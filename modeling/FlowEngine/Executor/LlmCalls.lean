import FlowEngine.Executor.Node
import FlowEngine.Lib.Mpsc
import FlowEngine.Lib.Transition

namespace flow_engine.executor.llm_calls

/-- What a handler does in one attempt: the LLM calls it records, and what it then returns. -/
structure Handler where
  calls : List LlmInvocationRecord
  answer : Except NodeError Value

/-- How the attempt ends if nothing stops the handler. -/
def Handler.attempt (handler : Handler) : Attempt where
  llm_records := handler.calls
  result :=
    match handler.answer with
    | .ok outputs => .ok outputs
    | .error error => .error error

/-- Record a structured LLM invocation. It waits while the channel is full. -/
def record_llm_call (llm_tx : mpsc.Channel LlmInvocationRecord) (record : LlmInvocationRecord) :
    Option (Except NodeError (mpsc.Channel LlmInvocationRecord)) :=
  match llm_tx.try_send record with
  | .ok sent => some (.ok sent)
  | .error .Full => none
  | .error .Closed => some (.error (.Fatal "failed to record LLM invocation: channel closed"))

/-- Where `execute_node` stands: the handler has calls to make, the channel is drained after
the handler, or the result is there. -/
inductive Phase where
  | running (pending : List LlmInvocationRecord)
  | draining (result : RunResult)
  | finished (result : JoinResult)

structure State where
  attempt : Nat
  phase : Phase
  channel : mpsc.Channel LlmInvocationRecord
  llm_records : List LlmInvocationRecord
  all_llm_records : List LlmInvocationRecord

inductive Move where
  | call
  | answer
  | elapse
  | drain
  | settle

section Steps

variable (timeout_ms max_attempts : Nat) (handlers : Nat → Handler)

/-- An attempt begins with a channel of its own. -/
def begin_attempt (attempt : Nat) (all_llm_records : List LlmInvocationRecord) : State :=
  ⟨attempt, .running (handlers attempt).calls, .new 1000, [], all_llm_records⟩

def finish (s : State) (all_llm_records : List LlmInvocationRecord) (result : JoinResult) : State :=
  { s with phase := .finished result, all_llm_records }

/-- The attempt is over and its records are collected. -/
def end_attempt (s : State) (result : RunResult) : State :=
  let all_llm_records := s.all_llm_records ++ s.llm_records
  match result with
  | .ok outputs => finish s all_llm_records (.returned (.Success outputs) all_llm_records)
  | .error node_error =>
    if node_error.is_retryable && decide (s.attempt < max_attempts) then
      begin_attempt handlers (s.attempt + 1) all_llm_records
    else finish s all_llm_records (.returned (.Failed node_error.to_string) all_llm_records)
  | .elapsed => finish s all_llm_records (.returned (.Failed (NodeError.Timeout timeout_ms).to_string) all_llm_records)
  | .panicked error => finish s all_llm_records (.panicked error)

/-- The steps of the handler and of `execute_node`, which waits for the handler or for the
timeout before it looks into the channel. -/
def step (s : State) : Move → Option State
  | .call =>
    match s.phase with
    | .running (record :: rest) =>
      match record_llm_call s.channel record with
      | none => none
      | some (.ok channel) => some { s with phase := .running rest, channel }
      | some (.error error) => some { s with phase := .draining (.error error) }
    | _ => none
  | .answer =>
    match s.phase with
    | .running [] => some { s with phase := .draining (handlers s.attempt).attempt.result }
    | _ => none
  | .elapse =>
    match s.phase with
    | .running _ => some { s with phase := .draining .elapsed }
    | _ => none
  | .drain =>
    match s.phase, s.channel.peek with
    | .draining _, .message record =>
      some { s with channel := s.channel.taken, llm_records := s.llm_records ++ [record] }
    | _, _ => none
  | .settle =>
    match s.phase, s.channel.peek with
    | .draining _, .message _ => none
    | .draining result, _ => some (end_attempt timeout_ms max_attempts handlers s result)
    | _, _ => none

def initial : State := begin_attempt handlers 1 []

/-- The handler waits in `record_llm_call` and nothing but the timeout can happen. -/
def Stuck (s : State) : Prop :=
  (∃ record rest, s.phase = .running (record :: rest)) ∧
    ∀ move, move ≠ .elapse → step timeout_ms max_attempts handlers s move = none

/-- The attempt is made: the earlier ones failed and are retried. -/
def Made (attempt : Nat) : Prop :=
  1 ≤ attempt ∧ attempt ≤ max_attempts ∧
    ∀ earlier, 1 ≤ earlier → earlier < attempt → ∃ message, (handlers earlier).answer = .error (.Retryable message)

/-- The calls of the first attempts, in order. -/
def records_of : Nat → List LlmInvocationRecord
  | 0 => []
  | attempts + 1 => records_of attempts ++ (handlers (attempts + 1)).calls

/-- How a node ends with the answer of its last attempt. -/
def outcome_of : Except NodeError Value → NodeOutcome
  | .ok outputs => .Success outputs
  | .error error => .Failed error.to_string

/-- The state of an attempt that no timeout has ended: its calls are in the channel or still
to be made, then drained or still in the channel, then all in the result. -/
inductive Recording : State → Prop
  | running {before : Nat} {pending : List LlmInvocationRecord} {channel : mpsc.Channel LlmInvocationRecord}
      (hmade : Made max_attempts handlers (before + 1))
      (hshort : ∀ k, 1 ≤ k → k ≤ before → (handlers k).calls.length ≤ 1000)
      (hcapacity : channel.capacity = 1000) (hreceiver : channel.receiver = true)
      (hcalls : channel.queue ++ pending = (handlers (before + 1)).calls) :
      Recording ⟨before + 1, .running pending, channel, [], records_of handlers before⟩
  | draining {before : Nat} {channel : mpsc.Channel LlmInvocationRecord} {llm_records : List LlmInvocationRecord}
      (hmade : Made max_attempts handlers (before + 1))
      (hshort : ∀ k, 1 ≤ k → k ≤ before + 1 → (handlers k).calls.length ≤ 1000)
      (hcalls : llm_records ++ channel.queue = (handlers (before + 1)).calls) :
      Recording ⟨before + 1, .draining (handlers (before + 1)).attempt.result, channel, llm_records,
        records_of handlers before⟩
  | finished {before : Nat} {channel : mpsc.Channel LlmInvocationRecord} {llm_records : List LlmInvocationRecord}
      (hmade : Made max_attempts handlers (before + 1))
      (hshort : ∀ k, 1 ≤ k → k ≤ before + 1 → (handlers k).calls.length ≤ 1000)
      (hlast : ¬ Made max_attempts handlers (before + 2)) :
      Recording ⟨before + 1,
        .finished (.returned (outcome_of (handlers (before + 1)).answer) (records_of handlers (before + 1))), channel,
        llm_records, records_of handlers (before + 1)⟩

end Steps

section Attempts

variable {max_attempts : Nat} {handlers : Nat → Handler} {before : Nat}

theorem Made.earlier {attempt earlier : Nat} (h : Made max_attempts handlers attempt) (hpositive : 1 ≤ earlier)
    (hle : earlier ≤ attempt) : Made max_attempts handlers earlier :=
  ⟨hpositive, by have := h.2.1; omega, fun k hk hlt => h.2.2 k hk (by omega)⟩

/-- The next attempt is made exactly if the error can be retried and attempts are left. -/
theorem made_next_iff (h : Made max_attempts handlers (before + 1)) :
    Made max_attempts handlers (before + 2) ↔
      before + 1 < max_attempts ∧ ∃ message, (handlers (before + 1)).answer = .error (.Retryable message) := by
  constructor
  · exact fun hnext => ⟨hnext.2.1, hnext.2.2 (before + 1) (by omega) (by omega)⟩
  · rintro ⟨hless, hretry⟩
    refine ⟨by omega, hless, fun k hk hlt => ?_⟩
    by_cases hlast : k = before + 1
    · exact hlast ▸ hretry
    · exact h.2.2 k hk (by omega)

variable {run_id : String} {task : Task} {timeout_ms : Nat}

/-- The loop over the attempts comes to every attempt that is made. -/
theorem execute_attempts_made (h : Made max_attempts handlers (before + 1)) (error : String) :
    (execute_attempts run_id task timeout_ms max_attempts (fun n => (handlers n).attempt) max_attempts 1 "" []).2 =
      (execute_attempts run_id task timeout_ms max_attempts (fun n => (handlers n).attempt) (max_attempts - before)
        (before + 1) error (records_of handlers before)).2 := by
  have hstep : ∀ before error error' records, before < max_attempts →
      execute_attempts run_id task timeout_ms max_attempts (fun n => (handlers n).attempt) (max_attempts - before)
        (before + 1) error records =
      execute_attempts run_id task timeout_ms max_attempts (fun n => (handlers n).attempt) (max_attempts - before)
        (before + 1) error' records := by
    intro before error error' records hless
    obtain ⟨left, hleft⟩ := Nat.exists_eq_add_of_lt hless
    rw [show max_attempts - before = left + 1 by omega, execute_attempts, execute_attempts]
  induction before generalizing error with
  | zero => rw [hstep 0 error "" _ h.2.1, Nat.sub_zero]; rfl
  | succ before ih =>
    have hearlier := h.earlier (show 1 ≤ before + 1 by omega) (by omega)
    obtain ⟨hless, message, hanswer⟩ := (made_next_iff hearlier).mp h
    rw [ih hearlier "", show max_attempts - before = max_attempts - (before + 1) + 1 by omega, execute_attempts]
    have hresult : (handlers (before + 1)).attempt.result = .error (.Retryable message) := by
      rw [Handler.attempt, hanswer]
    simp only [hresult, NodeError.is_retryable, hless, decide_true, Bool.and_self, if_true]
    rw [hstep (before + 1) _ error _ h.2.1]
    rfl

/-- The result of the node is the answer of the last attempt, with the records of all. -/
theorem execute_node_last {retry : RetryPolicy} (h : Made (max retry.max_attempts 1) handlers (before + 1))
    (hlast : ¬ Made (max retry.max_attempts 1) handlers (before + 2)) :
    (execute_node run_id task timeout_ms retry fun n => (handlers n).attempt).2 =
      .returned (outcome_of (handlers (before + 1)).answer) (records_of handlers (before + 1)) := by
  have hleft := h.2.1
  rw [made_next_iff h] at hlast
  unfold execute_node
  dsimp only
  rw [execute_attempts_made h "", show max retry.max_attempts 1 - before = max retry.max_attempts 1 - (before + 1) + 1 by omega,
    execute_attempts]
  simp only [Handler.attempt]
  cases hanswer : (handlers (before + 1)).answer with
  | ok outputs => rfl
  | error error =>
    dsimp only
    rw [if_neg]
    · rfl
    rw [Bool.and_eq_true, decide_eq_true_eq, NodeError.is_retryable_iff]
    rintro ⟨⟨message, rfl⟩, hless⟩
    exact hlast ⟨hless, message, hanswer⟩

end Attempts

section Channel

variable {llm_tx : mpsc.Channel LlmInvocationRecord} {record : LlmInvocationRecord}

theorem record_llm_call_full (hreceiver : llm_tx.receiver = true) (hfull : ¬ llm_tx.queue.length < llm_tx.capacity) :
    record_llm_call llm_tx record = none := by
  rw [record_llm_call, mpsc.Channel.try_send, if_neg (by simp [hreceiver]), dif_neg hfull]

theorem record_llm_call_room (hreceiver : llm_tx.receiver = true) (hroom : llm_tx.queue.length < llm_tx.capacity) :
    ∃ sent, record_llm_call llm_tx record = some (.ok sent) ∧ sent.queue = llm_tx.queue ++ [record] ∧
      sent.capacity = llm_tx.capacity ∧ sent.receiver = llm_tx.receiver := by
  rw [record_llm_call, mpsc.Channel.try_send, if_neg (by simp [hreceiver]), dif_pos hroom]
  exact ⟨_, rfl, rfl, rfl, rfl⟩

theorem record_llm_call_ok {sent : mpsc.Channel LlmInvocationRecord}
    (h : record_llm_call llm_tx record = some (.ok sent)) : sent.queue = llm_tx.queue ++ [record] ∧
      sent.capacity = llm_tx.capacity ∧ sent.receiver = llm_tx.receiver := by
  have hreceiver : llm_tx.receiver = true := by
    unfold record_llm_call at h
    split at h
    · exact (mpsc.Channel.try_send_ok ‹_›).1
    · cases h
    · cases h
  by_cases hroom : llm_tx.queue.length < llm_tx.capacity
  · obtain ⟨sent', hsent, hkept⟩ := @record_llm_call_room llm_tx record hreceiver hroom
    cases hsent.symm.trans h
    exact hkept
  · cases (record_llm_call_full hreceiver hroom).symm.trans h

theorem record_llm_call_error {error : NodeError} (h : record_llm_call llm_tx record = some (.error error)) :
    llm_tx.receiver = false := by
  unfold record_llm_call at h
  split at h
  · cases h
  · cases h
  · rename_i hsend
    rcases mpsc.Channel.try_send_error hsend with ⟨-, hclosed⟩ | ⟨heq, -⟩
    · exact hclosed
    · cases heq

end Channel

section Runs

variable {timeout_ms max_attempts : Nat} {handlers : Nat → Handler} {s next : State}

/-- What each move needs and does. -/
inductive MoveCase (timeout_ms max_attempts : Nat) (handlers : Nat → Handler) (s : State) : Move → State → Prop
  | called {record : LlmInvocationRecord} {rest : List LlmInvocationRecord} {channel : mpsc.Channel LlmInvocationRecord}
      (hphase : s.phase = .running (record :: rest)) (hqueue : channel.queue = s.channel.queue ++ [record])
      (hcapacity : channel.capacity = s.channel.capacity) (hreceiver : channel.receiver = s.channel.receiver) :
      MoveCase timeout_ms max_attempts handlers s .call { s with phase := .running rest, channel }
  | refused {record : LlmInvocationRecord} {rest : List LlmInvocationRecord} {error : NodeError}
      (hphase : s.phase = .running (record :: rest)) (hclosed : s.channel.receiver = false) :
      MoveCase timeout_ms max_attempts handlers s .call { s with phase := .draining (.error error) }
  | answered (hphase : s.phase = .running []) :
      MoveCase timeout_ms max_attempts handlers s .answer
        { s with phase := .draining (handlers s.attempt).attempt.result }
  | elapsed {pending : List LlmInvocationRecord} (hphase : s.phase = .running pending) :
      MoveCase timeout_ms max_attempts handlers s .elapse { s with phase := .draining .elapsed }
  | drained {result : RunResult} {record : LlmInvocationRecord} (hphase : s.phase = .draining result)
      (hqueue : s.channel.queue = record :: s.channel.taken.queue) :
      MoveCase timeout_ms max_attempts handlers s .drain
        { s with channel := s.channel.taken, llm_records := s.llm_records ++ [record] }
  | settled {result : RunResult} (hphase : s.phase = .draining result) (hempty : s.channel.queue = []) :
      MoveCase timeout_ms max_attempts handlers s .settle (end_attempt timeout_ms max_attempts handlers s result)

theorem step_cases {move : Move} (hstep : step timeout_ms max_attempts handlers s move = some next) :
    MoveCase timeout_ms max_attempts handlers s move next := by
  cases move with
  | call =>
    simp only [step] at hstep
    split at hstep
    · rename_i hphase
      split at hstep
      · cases hstep
      · rename_i hsent
        cases hstep
        obtain ⟨hqueue, hcapacity, hreceiver⟩ := record_llm_call_ok hsent
        exact .called hphase hqueue hcapacity hreceiver
      · rename_i hsent
        cases hstep
        exact .refused hphase (record_llm_call_error hsent)
    · cases hstep
  | answer =>
    simp only [step] at hstep
    split at hstep
    · cases hstep
      exact .answered ‹_›
    · cases hstep
  | elapse =>
    simp only [step] at hstep
    split at hstep
    · cases hstep
      exact .elapsed ‹_›
    · cases hstep
  | drain =>
    simp only [step] at hstep
    split at hstep
    · rename_i hphase hpeek
      cases hstep
      exact .drained hphase (mpsc.Channel.peek_message hpeek)
    · cases hstep
  | settle =>
    simp only [step] at hstep
    split at hstep
    · cases hstep
    · rename_i hphase hmessage
      cases hstep
      refine .settled hphase ?_
      cases hpeek : s.channel.peek with
      | message record => exact (hmessage record hpeek).elim
      | empty => exact mpsc.Channel.peek_empty hpeek
      | disconnected => exact (mpsc.Channel.peek_disconnected hpeek).1
    · cases hstep

/-- A state of an attempt whose calls are all in the result. -/
theorem Recording.end_attempt {before : Nat} {channel : mpsc.Channel LlmInvocationRecord}
    {llm_records : List LlmInvocationRecord} (hmade : Made max_attempts handlers (before + 1))
    (hshort : ∀ k, 1 ≤ k → k ≤ before + 1 → (handlers k).calls.length ≤ 1000)
    (hcalls : llm_records = (handlers (before + 1)).calls) :
    Recording max_attempts handlers (end_attempt timeout_ms max_attempts handlers
      ⟨before + 1, .draining (handlers (before + 1)).attempt.result, channel, llm_records, records_of handlers before⟩
      (handlers (before + 1)).attempt.result) := by
  have hall : records_of handlers before ++ llm_records = records_of handlers (before + 1) := by
    rw [records_of, hcalls]
  have hnext := made_next_iff hmade
  have hfinished := @Recording.finished max_attempts handlers before channel llm_records hmade hshort
  unfold llm_calls.end_attempt
  dsimp only
  rw [hall]
  cases hanswer : (handlers (before + 1)).answer with
  | ok outputs =>
    have hresult : (handlers (before + 1)).attempt.result = .ok outputs := by rw [Handler.attempt, hanswer]
    rw [hresult]
    rw [hnext, hanswer] at hfinished
    exact hfinished fun ⟨_, _, hretry⟩ => nomatch hretry
  | error error =>
    have hresult : (handlers (before + 1)).attempt.result = .error error := by rw [Handler.attempt, hanswer]
    rw [hresult]
    dsimp only
    split
    · rename_i hretry
      rw [Bool.and_eq_true, decide_eq_true_eq, NodeError.is_retryable_iff] at hretry
      obtain ⟨⟨message, rfl⟩, hless⟩ := hretry
      exact .running (hnext.mpr ⟨hless, message, hanswer⟩) hshort rfl rfl (List.nil_append _)
    · rename_i hretry
      rw [Bool.and_eq_true, decide_eq_true_eq, NodeError.is_retryable_iff] at hretry
      rw [hnext, hanswer] at hfinished
      refine hfinished ?_
      rintro ⟨hless, message, heq⟩
      cases heq
      exact hretry ⟨⟨message, rfl⟩, hless⟩

/-- Without a timeout every step keeps the calls in order. -/
theorem Recording.step {move : Move} (h : Recording max_attempts handlers s) (hmove : move ≠ .elapse)
    (hstep : step timeout_ms max_attempts handlers s move = some next) : Recording max_attempts handlers next := by
  cases h with
  | @running before pending channel hmade hshort hcapacity hreceiver hcalls =>
    cases step_cases hstep with
    | called hphase hqueue hcapacity' hreceiver' =>
      cases hphase
      refine .running hmade hshort (hcapacity'.trans hcapacity) (hreceiver'.trans hreceiver) ?_
      rw [hqueue, List.append_assoc]
      exact hcalls
    | refused _ hclosed => cases hreceiver.symm.trans hclosed
    | answered hphase =>
      cases hphase
      rw [List.append_nil] at hcalls
      refine .draining hmade ?_ hcalls
      intro k hk hle
      by_cases hlast : k = before + 1
      · -- what fits into the channel is short
        rw [hlast, ← hcalls, ← hcapacity]
        exact channel.bounded
      · exact hshort k hk (by omega)
    | elapsed => exact absurd rfl hmove
    | drained hphase => cases hphase
    | settled hphase => cases hphase
  | @draining before channel llm_records hmade hshort hcalls =>
    cases step_cases hstep with
    | called hphase => cases hphase
    | refused hphase => cases hphase
    | answered hphase => cases hphase
    | elapsed => exact absurd rfl hmove
    | drained _ hqueue =>
      refine .draining hmade hshort ?_
      rw [List.append_assoc, List.singleton_append, ← hqueue]
      exact hcalls
    | settled hphase hempty =>
      cases hphase
      rw [hempty, List.append_nil] at hcalls
      exact Recording.end_attempt hmade hshort hcalls
  | finished hmade hshort hlast =>
    cases step_cases hstep with
    | elapsed => exact absurd rfl hmove
    | _ hphase => cases hphase

/-- A state before the result has a step without a timeout, unless the handler is stuck. -/
theorem progress (hstuck : ¬ Stuck timeout_ms max_attempts handlers s) :
    (∃ result, s.phase = .finished result) ∨
      ∃ move next, move ≠ .elapse ∧ step timeout_ms max_attempts handlers s move = some next := by
  cases hphase : s.phase with
  | running pending =>
    right
    cases pending with
    | nil => exact ⟨.answer, _, nofun, by rw [llm_calls.step, hphase]⟩
    | cons record rest =>
      by_contra hnone
      refine hstuck ⟨⟨record, rest, hphase⟩, fun move hmove => ?_⟩
      by_contra hsome
      obtain ⟨next, hnext⟩ := Option.ne_none_iff_exists'.mp hsome
      exact hnone ⟨move, next, hmove, hnext⟩
  | draining result =>
    right
    cases hpeek : s.channel.peek with
    | message record => exact ⟨.drain, _, nofun, by rw [llm_calls.step, hphase, hpeek]⟩
    | empty => exact ⟨.settle, _, nofun, by rw [llm_calls.step, hphase, hpeek]⟩
    | disconnected => exact ⟨.settle, _, nofun, by rw [llm_calls.step, hphase, hpeek]⟩
  | finished result => exact Or.inl ⟨result, rfl⟩

/-- What is left of an attempt. -/
def work_left (s : State) : Nat :=
  match s.phase with
  | .running pending => 2 * pending.length + s.channel.queue.length + 2
  | .draining _ => s.channel.queue.length + 1
  | .finished _ => 0

/-- The end of an attempt gets closer to the result. -/
theorem end_attempt_decreases (result : RunResult) (hleft : 0 < work_left s) : Prod.Lex (· < ·) (· < ·)
    (max_attempts - (end_attempt timeout_ms max_attempts handlers s result).attempt,
      work_left (end_attempt timeout_ms max_attempts handlers s result))
    (max_attempts - s.attempt, work_left s) := by
  have hfinish : ∀ all result, Prod.Lex (· < ·) (· < ·) (max_attempts - (finish s all result).attempt,
      work_left (finish s all result)) (max_attempts - s.attempt, work_left s) :=
    fun all result => Prod.Lex.right _ hleft
  unfold end_attempt
  dsimp only
  split
  · exact hfinish _ _
  · split
    · rename_i hretry
      rw [Bool.and_eq_true, decide_eq_true_eq] at hretry
      refine Prod.Lex.left _ _ ?_
      have hless := hretry.2
      change max_attempts - (s.attempt + 1) < max_attempts - s.attempt
      omega
    · exact hfinish _ _
  · exact hfinish _ _
  · exact hfinish _ _

/-- Without a timeout every step gets closer to the result. -/
theorem step_decreases {move : Move} (hmove : move ≠ .elapse)
    (hstep : step timeout_ms max_attempts handlers s move = some next) :
    Prod.Lex (· < ·) (· < ·) (max_attempts - next.attempt, work_left next) (max_attempts - s.attempt, work_left s) := by
  cases step_cases hstep with
  | called hphase hqueue =>
    refine Prod.Lex.right _ ?_
    simp only [work_left, hphase, hqueue, List.length_append, List.length_cons, List.length_nil]
    omega
  | refused hphase =>
    refine Prod.Lex.right _ ?_
    simp only [work_left, hphase, List.length_cons]
    omega
  | answered hphase =>
    refine Prod.Lex.right _ ?_
    simp only [work_left, hphase]
    omega
  | elapsed => exact absurd rfl hmove
  | drained hphase hqueue =>
    refine Prod.Lex.right _ ?_
    simp only [work_left, hphase]
    rw [hqueue, List.length_cons]
    omega
  | settled hphase =>
    refine end_attempt_decreases _ ?_
    rw [work_left, hphase]
    exact Nat.succ_pos _

/-- The runs in which no timeout elapses. -/
def Untimed (timeout_ms max_attempts : Nat) (handlers : Nat → Handler) (moves : List Move) (s : State) : Prop :=
  transition.Run (step timeout_ms max_attempts handlers) (fun _ move => move ≠ .elapse) (initial handlers) moves s

/-- Where nobody is stuck the result comes without a timeout. -/
theorem completes (hnever : ∀ moves s, Untimed timeout_ms max_attempts handlers moves s →
    ¬ Stuck timeout_ms max_attempts handlers s) {moves : List Move}
    (hrun : Untimed timeout_ms max_attempts handlers moves s) : ∃ more last result,
      transition.Run (step timeout_ms max_attempts handlers) (fun _ move => move ≠ .elapse) s more last ∧
        last.phase = .finished result := by
  have hwf : WellFounded (Prod.Lex (fun a b : Nat => a < b) (fun a b : Nat => a < b)) :=
    WellFounded.prod_lex wellFounded_lt wellFounded_lt
  generalize hmeasure : (max_attempts - s.attempt, work_left s) = measure
  induction measure using hwf.induction generalizing moves s with
  | _ measure ih =>
    rcases progress (hnever moves s hrun) with ⟨result, hphase⟩ | ⟨move, next, hmove, hstep⟩
    · exact ⟨[], s, result, .nil, hphase⟩
    · have hless := step_decreases hmove hstep
      rw [hmeasure] at hless
      obtain ⟨more, last, result, hmore, hphase⟩ := ih _ hless (hrun.snoc hmove hstep) rfl
      have hone := @transition.Run.snoc State Move (step timeout_ms max_attempts handlers)
        (fun _ move => move ≠ .elapse) s [] s next move .nil hmove hstep
      exact ⟨[] ++ [move] ++ more, last, result, hone.append hmore, hphase⟩

variable (hpositive : 1 ≤ max_attempts)
include hpositive

theorem made_first : Made max_attempts handlers 1 := ⟨Nat.le_refl _, hpositive, fun _ _ _ => by omega⟩

theorem Recording.initial : Recording max_attempts handlers (initial handlers) :=
  .running (made_first hpositive) (fun _ _ _ => by omega) rfl rfl (List.nil_append _)

theorem untimed_recording {moves : List Move} (hrun : Untimed timeout_ms max_attempts handlers moves s) :
    Recording max_attempts handlers s :=
  hrun.invariant (P := fun _ s => Recording max_attempts handlers s) (Recording.initial hpositive)
    fun _ _ _ _ _ h hmove hstep => h.step hmove hstep

/-- A timeout ends the attempts. -/
theorem run_recording_or_over {moves : List Move}
    (hrun : transition.Run (step timeout_ms max_attempts handlers) (fun _ _ => True) (initial handlers) moves s) :
    Recording max_attempts handlers s ∨ s.phase = .draining .elapsed ∨ ∃ result, s.phase = .finished result := by
  refine hrun.invariant (P := fun _ s => Recording max_attempts handlers s ∨ s.phase = .draining .elapsed ∨
    ∃ result, s.phase = .finished result) (Or.inl (Recording.initial hpositive)) ?_
  intro moves s move next _ h _ hstep
  rcases h with hrecording | hdraining | ⟨result, hfinished⟩
  · by_cases hmove : move = .elapse
    · subst hmove
      cases step_cases hstep with
      | elapsed => exact Or.inr (Or.inl rfl)
    · exact Or.inl (hrecording.step hmove hstep)
  · right
    cases step_cases hstep with
    | drained => exact Or.inl hdraining
    | settled hphase =>
      cases hdraining.symm.trans hphase
      exact Or.inr ⟨_, rfl⟩
    | _ hphase => cases hdraining.symm.trans hphase
  · cases step_cases hstep with
    | _ hphase => cases hfinished.symm.trans hphase

/-- Where the calls of the attempts fit into the channel no handler is stuck. -/
theorem not_stuck (hshort : ∀ attempt, Made max_attempts handlers attempt → (handlers attempt).calls.length ≤ 1000)
    {moves : List Move}
    (hrun : transition.Run (step timeout_ms max_attempts handlers) (fun _ _ => True) (initial handlers) moves s) :
    ¬ Stuck timeout_ms max_attempts handlers s := by
  rintro ⟨⟨record, rest, hphase⟩, hnone⟩
  rcases run_recording_or_over hpositive hrun with hrecording | helapsed | ⟨result, hfinished⟩
  · cases hrecording with
    | @running before pending channel hmade hearlier hcapacity hreceiver hcalls =>
      cases hphase
      have hlength := congrArg List.length hcalls
      rw [List.length_append, List.length_cons] at hlength
      have hbound := hshort _ hmade
      obtain ⟨sent, hsent, _⟩ := @record_llm_call_room _ record hreceiver (by omega)
      have hcall := hnone .call nofun
      simp only [llm_calls.step, hsent, reduceCtorEq] at hcall
    | draining => cases hphase
    | finished => cases hphase
  · cases hphase.symm.trans helapsed
  · cases hphase.symm.trans hfinished

end Runs

/-- The calls of a handler cannot block it, and without a timeout they all succeed: the
result comes, and holds the records of all attempts in the order of the calls. -/
structure CallsSucceed (run_id : String) (task : Task) (timeout_ms : Nat) (retry : RetryPolicy)
    (handlers : Nat → Handler) : Prop where
  never_stuck : ∀ moves s, transition.Run (step timeout_ms (max retry.max_attempts 1) handlers) (fun _ _ => True)
    (initial handlers) moves s → ¬ Stuck timeout_ms (max retry.max_attempts 1) handlers s
  ends : ¬ ∃ (states : ℕ → State) (moves : ℕ → Move), states 0 = initial handlers ∧ ∀ n, moves n ≠ .elapse ∧
    step timeout_ms (max retry.max_attempts 1) handlers (states n) (moves n) = some (states (n + 1))
  completed : ∀ moves s, Untimed timeout_ms (max retry.max_attempts 1) handlers moves s → ∃ more last result,
    transition.Run (step timeout_ms (max retry.max_attempts 1) handlers) (fun _ move => move ≠ .elapse) s more last ∧
      last.phase = .finished result
  recorded : ∀ moves s result, Untimed timeout_ms (max retry.max_attempts 1) handlers moves s →
    s.phase = .finished result →
      result = (execute_node run_id task timeout_ms retry fun n => (handlers n).attempt).2 ∧
        ∃ attempts outcome, Made (max retry.max_attempts 1) handlers attempts ∧
          ¬ Made (max retry.max_attempts 1) handlers (attempts + 1) ∧
          result = .returned outcome (records_of handlers attempts)

/-- The calls succeed exactly if every attempt that is made records at most as many as the
channel holds. -/
theorem calls_succeed_iff (run_id : String) (task : Task) (timeout_ms : Nat) (retry : RetryPolicy)
    (handlers : Nat → Handler) : CallsSucceed run_id task timeout_ms retry handlers ↔
      ∀ attempt, Made (max retry.max_attempts 1) handlers attempt → (handlers attempt).calls.length ≤ 1000 := by
  have hpositive : 1 ≤ max retry.max_attempts 1 := by omega
  constructor
  · intro h attempt hmade
    obtain ⟨moves, last, result, hrun, hphase⟩ := h.completed [] _ .nil
    cases untimed_recording hpositive hrun with
    | running => cases hphase
    | draining => cases hphase
    | @finished before channel llm_records hlast_made hshort hlast =>
      refine hshort attempt hmade.1 ?_
      by_contra hlater
      exact hlast (hmade.earlier (by omega) (by omega))
  · intro hshort
    refine ⟨fun moves s hrun => not_stuck hpositive hshort hrun, ?_, ?_, ?_⟩
    · have hinfinite := @transition.Run.not_infinite State Move (step timeout_ms (max retry.max_attempts 1) handlers)
        (fun _ move => move ≠ .elapse) (initial handlers) _ _
        (WellFounded.prod_lex wellFounded_lt wellFounded_lt)
        (fun s => (max retry.max_attempts 1 - s.attempt, work_left s))
        (fun _ _ _ _ _ hmove hstep => step_decreases hmove hstep)
      exact hinfinite
    · intro moves s hrun
      refine completes ?_ hrun
      exact fun moves s huntimed => not_stuck hpositive hshort (huntimed.mono fun _ _ _ => trivial)
    · intro moves s result hrun hphase
      cases untimed_recording hpositive hrun with
      | running => cases hphase
      | draining => cases hphase
      | @finished before channel llm_records hmade _ hlast =>
        cases hphase
        exact ⟨(execute_node_last hmade hlast).symm, before + 1, _, hmade, hlast, rfl⟩

/-- A handler fills its channel as long as there is room. -/
theorem fill_channel {timeout_ms max_attempts : Nat} {handlers : Nat → Handler} {calls : Nat} (hroom : calls ≤ 1000)
    (hcalls : calls ≤ (handlers 1).calls.length) : ∃ moves channel,
      Untimed timeout_ms max_attempts handlers moves ⟨1, .running ((handlers 1).calls.drop calls), channel, [], []⟩ ∧
        channel.queue.length = calls ∧ channel.capacity = 1000 ∧ channel.receiver = true := by
  induction calls with
  | zero => exact ⟨[], _, .nil, rfl, rfl, rfl⟩
  | succ calls ih =>
    obtain ⟨moves, channel, hrun, hlength, hcapacity, hreceiver⟩ := ih (by omega) (by omega)
    obtain ⟨sent, hsent, hqueue, hcapacity', hreceiver'⟩ :=
      @record_llm_call_room _ ((handlers 1).calls.get ⟨calls, hcalls⟩) hreceiver (by omega)
    refine ⟨_, sent, hrun.snoc (show Move.call ≠ .elapse from nofun) ?_, ?_, hcapacity'.trans hcapacity,
      hreceiver'.trans hreceiver⟩
    · simp only [step]
      rw [List.drop_eq_getElem_cons hcalls]
      dsimp only
      rw [List.get_eq_getElem] at hsent
      rw [hsent]
    · rw [hqueue, List.length_append, hlength]
      rfl

def sample_record : LlmInvocationRecord where
  node_id := "N"
  request := ⟨"provider", "model", .null⟩
  response := ⟨.null, none, "model", none, none, "stop"⟩

/-- A handler that records a number of calls and puts out nothing. -/
def recording_handler (calls : Nat) (_attempt : Nat) : Handler := ⟨List.replicate calls sample_record, .ok .null⟩

/-- With one call more than the channel holds the handler is stuck. -/
theorem long_handler_stuck :
    ¬ CallsSucceed "run" ⟨⟨0, 0⟩, "N", none, .null⟩ 30000 ⟨1, none⟩ (recording_handler 1001) := by
  intro h
  have hlength : (recording_handler 1001 1).calls.length = 1001 := List.length_replicate
  have hpending : (recording_handler 1001 1).calls.drop 1000 = List.replicate 1 sample_record := by
    rw [recording_handler, List.drop_replicate]
  obtain ⟨moves, channel, hrun, hfull, hcapacity, hreceiver⟩ := @fill_channel 30000 1 (recording_handler 1001) 1000
    (Nat.le_refl _) (by omega)
  rw [hpending] at hrun
  refine h.never_stuck moves _ (hrun.mono fun _ _ _ => trivial) ⟨⟨sample_record, [], rfl⟩, fun move hmove => ?_⟩
  have hcall : record_llm_call channel sample_record = none := record_llm_call_full hreceiver (by omega)
  cases move with
  | call => simp only [step, List.replicate_one, hcall]
  | answer => rfl
  | elapse => exact absurd rfl hmove
  | drain => rfl
  | settle => rfl

end flow_engine.executor.llm_calls
