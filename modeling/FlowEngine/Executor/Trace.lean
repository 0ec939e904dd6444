import FlowEngine.Executor.Node

namespace flow_engine.executor

/-- An event a handler sends besides its result. -/
structure NodeEvent where
  name : String
  data : Value

/-- One call of a handler's `run`, with the events it had sent when it ended. -/
structure EventfulAttempt extends Attempt where
  events : List NodeEvent

/-- A result with the events the loop passes on. -/
structure EventfulResult extends NodeResult where
  events : List NodeEvent

/-- What the loop joins: a result, or the panic of the task. -/
def join_result : Except String EventfulResult → JoinResult
  | .ok result => .returned result.outcome result.llm_records
  | .error error => .panicked error

section Attempts

variable (run_id : String) (task : Task) (timeout_ms max_attempts : Nat) (attempts : Nat → EventfulAttempt)

/-- The loop over the attempts, with the result it builds. -/
def execute_attempts_result :
    Nat → Nat → String → List LlmInvocationRecord → List NodeEvent → List WriteEvent × Except String EventfulResult
  | 0, _, last_error, all_llm_records, all_events =>
    ([], .ok ⟨⟨task.node_id, task.fan_out_index, .Failed last_error, all_llm_records⟩, all_events⟩)
  | remaining + 1, attempt, _, all_llm_records, all_events =>
    let started := WriteEvent.NodeStarted 0 run_id task.node_id task.inputs task.fan_out_index attempt
    let all_llm_records := all_llm_records ++ (attempts attempt).llm_records
    let all_events := all_events ++ (attempts attempt).events
    match (attempts attempt).result with
    | .ok outputs =>
      let completed := WriteEvent.NodeCompleted 0 run_id task.node_id outputs task.fan_out_index
      let checkpoint := WriteEvent.Checkpoint 0 run_id task.node_id outputs
      ([started, completed, checkpoint],
        .ok ⟨⟨task.node_id, task.fan_out_index, .Success outputs, all_llm_records⟩, all_events⟩)
    | .error node_error =>
      let will_retry := node_error.is_retryable && decide (attempt < max_attempts)
      let error_msg := node_error.to_string
      let failed_event := WriteEvent.NodeFailed 0 run_id task.node_id error_msg will_retry attempt
      if will_retry then
        let (events, result) :=
          execute_attempts_result remaining (attempt + 1) error_msg all_llm_records all_events
        (started :: failed_event :: events, result)
      else ([started, failed_event],
        .ok ⟨⟨task.node_id, task.fan_out_index, .Failed error_msg, all_llm_records⟩, all_events⟩)
    | .elapsed =>
      let error_msg := (NodeError.Timeout timeout_ms).to_string
      let failed_event := WriteEvent.NodeFailed 0 run_id task.node_id error_msg false attempt
      ([started, failed_event],
        .ok ⟨⟨task.node_id, task.fan_out_index, .Failed error_msg, all_llm_records⟩, all_events⟩)
    | .panicked error => ([started], .error error)

end Attempts

/-- The execution of a node with the whole result it returns. -/
def execute_node_result (run_id : String) (task : Task) (timeout_ms : Nat) (retry : RetryPolicy)
    (attempts : Nat → EventfulAttempt) : List WriteEvent × Except String EventfulResult :=
  let max_attempts := max retry.max_attempts 1
  execute_attempts_result run_id task timeout_ms max_attempts attempts max_attempts 1 "" [] []

/-- The event with which an attempt starts. -/
def attempt_started (run_id : String) (task : Task) (attempt : Nat) : WriteEvent :=
  .NodeStarted 0 run_id task.node_id task.inputs task.fan_out_index attempt

variable {run_id : String} {task : Task} {timeout_ms max_attempts : Nat} {attempts : Nat → EventfulAttempt}
variable {retry : RetryPolicy}

/-- The loop of the runs is this one without the events of the handlers. -/
theorem execute_attempts_eq (remaining attempt : Nat) (error : String) (records : List LlmInvocationRecord)
    (events : List NodeEvent) :
    execute_attempts run_id task timeout_ms max_attempts (fun n => (attempts n).toAttempt) remaining attempt error records =
      Prod.map id join_result
        (execute_attempts_result run_id task timeout_ms max_attempts attempts remaining attempt error records events) := by
  induction remaining generalizing attempt error records events with
  | zero => rfl
  | succ remaining ih =>
    rw [execute_attempts, execute_attempts_result]
    dsimp only
    cases (attempts attempt).result with
    | ok outputs => rfl
    | error node_error =>
      dsimp only
      split
      · rw [ih]
        rfl
      · rfl
    | elapsed => rfl
    | panicked error => rfl

theorem execute_node_eq : execute_node run_id task timeout_ms retry (fun n => (attempts n).toAttempt) =
    Prod.map id join_result (execute_node_result run_id task timeout_ms retry attempts) :=
  execute_attempts_eq _ _ _ _ _

section Membership

variable {errors : Nat → String} {first count attempt : Nat}

theorem started_inj {other : Nat} :
    attempt_started run_id task attempt = attempt_started run_id task other ↔ attempt = other := by
  simp [attempt_started]

end Membership

/-- A handler that fails once, then answers, and tells of both attempts. -/
def flaky_attempts : Nat → EventfulAttempt
  | 1 => ⟨⟨[], .error (.Retryable "connection reset")⟩, [⟨"progress", .null⟩]⟩
  | _ => ⟨⟨[], .ok (.bool true)⟩, [⟨"done", .null⟩]⟩

def flaky_task : Task := ⟨⟨0, 0⟩, "N", some 3, .null⟩

section Filter

variable (matching : String → String → Prop)

/-- The policy's filter lets an error with this message be retried; `matching` tells which
strings a message matches. -/
def admits (retry : RetryPolicy) (message : String) : Prop :=
  retry.retryable_errors = none ∨
    ∃ patterns, retry.retryable_errors = some patterns ∧ ∃ pattern ∈ patterns, matching pattern message

/-- A failed attempt is followed by another exactly if its error may be retried, an attempt is
left, and the filter lets it. -/
def FilterHonoured (run_id : String) (task : Task) (timeout_ms : Nat) (retry : RetryPolicy)
    (attempts : Nat → EventfulAttempt) : Prop :=
  ∀ attempt, attempt_started run_id task attempt ∈ (execute_node_result run_id task timeout_ms retry attempts).1 →
    (∀ outputs, (attempts attempt).result ≠ .ok outputs) →
    (attempt_started run_id task (attempt + 1) ∈ (execute_node_result run_id task timeout_ms retry attempts).1 ↔
      ∃ message, (attempts attempt).result = .error (.Retryable message) ∧ attempt < max 1 retry.max_attempts ∧
        admits matching retry message)

end Filter

/-- After an attempt that is not retried no other is reached. -/
theorem reached_last_iff {attempt n : Nat} (hle : attempt ≤ max_attempts)
    (hlast : attempt = max_attempts ∨ ∀ message, (attempts attempt).result ≠ .error (.Retryable message)) :
    n = attempt ↔ attempt ≤ n ∧ n ≤ max_attempts ∧ ∀ earlier, attempt ≤ earlier → earlier < n →
      ∃ message, (attempts earlier).result = .error (.Retryable message) := by
  constructor
  · rintro rfl
    exact ⟨Nat.le_refl _, hle, fun earlier hge hlt => by omega⟩
  · rintro ⟨hle, hbound, hearlier⟩
    by_contra hne
    obtain ⟨message, hresult⟩ := hearlier attempt (Nat.le_refl _) (by omega)
    exact hlast.elim (fun heq => by omega) fun hnot => hnot message hresult

/-- After an attempt that is retried those are reached that the next one leads to. -/
theorem reached_next_iff {attempt n : Nat} {message : String} (hless : attempt < max_attempts)
    (hresult : (attempts attempt).result = .error (.Retryable message)) :
    (n = attempt ∨ attempt + 1 ≤ n ∧ n ≤ max_attempts ∧ ∀ earlier, attempt + 1 ≤ earlier → earlier < n →
        ∃ message, (attempts earlier).result = .error (.Retryable message)) ↔
      attempt ≤ n ∧ n ≤ max_attempts ∧ ∀ earlier, attempt ≤ earlier → earlier < n →
        ∃ message, (attempts earlier).result = .error (.Retryable message) := by
  constructor
  · rintro (rfl | ⟨hle, hbound, hearlier⟩)
    · exact ⟨Nat.le_refl _, by omega, fun earlier hle hlt => by omega⟩
    · refine ⟨by omega, hbound, fun earlier hge hlt => ?_⟩
      obtain rfl | hlater := Nat.eq_or_lt_of_le hge
      · exact ⟨message, hresult⟩
      · exact hearlier earlier hlater hlt
  · rintro ⟨hle, hbound, hearlier⟩
    obtain rfl | hlater := Nat.eq_or_lt_of_le hle
    · exact Or.inl rfl
    · exact Or.inr ⟨hlater, hbound, fun earlier hge hlt => hearlier earlier (by omega) hlt⟩

/-- The attempts made from one on are those with only retryable errors before them. -/
theorem started_mem_execute_attempts {remaining attempt n : Nat} (error : String)
    (records : List LlmInvocationRecord) (events : List NodeEvent) (hmax : attempt + remaining = max_attempts + 1) :
    attempt_started run_id task n ∈
        (execute_attempts_result run_id task timeout_ms max_attempts attempts remaining attempt error records events).1 ↔
      attempt ≤ n ∧ n ≤ max_attempts ∧
        ∀ earlier, attempt ≤ earlier → earlier < n → ∃ message, (attempts earlier).result = .error (.Retryable message) := by
  induction remaining generalizing attempt error records events with
  | zero =>
    simp only [execute_attempts_result, List.not_mem_nil, false_iff]
    omega
  | succ remaining ih =>
    have hle : attempt ≤ max_attempts := by omega
    rw [execute_attempts_result]
    dsimp only
    cases hresult : (attempts attempt).result with
    | ok outputs =>
      rw [← reached_last_iff hle (Or.inr fun message => by simp [hresult])]
      simp [attempt_started, eq_comm]
    | error node_error =>
      dsimp only
      split
      · rename_i hretry
        obtain ⟨hretryable, hless⟩ := (Bool.and_eq_true _ _ ▸ hretry : _ ∧ _)
        obtain ⟨message, rfl⟩ := NodeError.is_retryable_iff.mp hretryable
        have hmem : attempt_started run_id task n ≠
            .NodeFailed 0 run_id task.node_id (NodeError.Retryable message).to_string
              ((NodeError.Retryable message).is_retryable && decide (attempt < max_attempts)) attempt := by
          simp [attempt_started]
        have hfirst : attempt_started run_id task n =
            .NodeStarted 0 run_id task.node_id task.inputs task.fan_out_index attempt ↔ n = attempt := started_inj
        rw [List.mem_cons, List.mem_cons, or_iff_right hmem, hfirst, ih _ _ _ (by omega)]
        exact reached_next_iff (of_decide_eq_true hless) hresult
      · rename_i hretry
        have hlast : attempt = max_attempts ∨ ∀ message, (attempts attempt).result ≠ .error (.Retryable message) := by
          by_contra hnot
          rw [not_or, not_forall] at hnot
          obtain ⟨hne, message, hretryable⟩ := hnot
          rw [not_not, hresult] at hretryable
          cases hretryable
          exact hretry (by simp [NodeError.is_retryable]; omega)
        rw [← reached_last_iff hle hlast]
        simp [attempt_started, eq_comm]
    | elapsed =>
      rw [← reached_last_iff hle (Or.inr fun message => by simp [hresult])]
      simp [attempt_started, eq_comm]
    | panicked message =>
      rw [← reached_last_iff hle (Or.inr fun message => by simp [hresult])]
      simp [attempt_started]

theorem started_mem_execute_node {n : Nat} :
    attempt_started run_id task n ∈ (execute_node_result run_id task timeout_ms retry attempts).1 ↔
      1 ≤ n ∧ n ≤ max 1 retry.max_attempts ∧
        ∀ earlier, 1 ≤ earlier → earlier < n → ∃ message, (attempts earlier).result = .error (.Retryable message) := by
  rw [Nat.max_comm]
  exact started_mem_execute_attempts _ _ _ (by omega)

/-- Only the class of its error and the number of attempts decide what follows an attempt. -/
theorem next_started_iff {attempt : Nat}
    (hstarted : attempt_started run_id task attempt ∈ (execute_node_result run_id task timeout_ms retry attempts).1) :
    attempt_started run_id task (attempt + 1) ∈ (execute_node_result run_id task timeout_ms retry attempts).1 ↔
      attempt < max 1 retry.max_attempts ∧ ∃ message, (attempts attempt).result = .error (.Retryable message) := by
  obtain ⟨hpositive, _, hearlier⟩ := started_mem_execute_node.mp hstarted
  rw [started_mem_execute_node]
  constructor
  · rintro ⟨_, hless, hall⟩
    exact ⟨hless, hall attempt hpositive (Nat.lt_succ_self _)⟩
  · rintro ⟨hless, hretryable⟩
    refine ⟨by omega, hless, fun earlier hge hlt => ?_⟩
    obtain rfl | hbefore := Nat.eq_or_lt_of_le (Nat.le_of_lt_succ hlt)
    · exact hretryable
    · exact hearlier earlier hge hbefore

/-- The filter is never read: it is honoured exactly if it lets every error through that the
other rules let be retried. -/
theorem filter_honoured_iff {matching : String → String → Prop} :
    FilterHonoured matching run_id task timeout_ms retry attempts ↔
      ∀ attempt message, 1 ≤ attempt → attempt < max 1 retry.max_attempts →
        (∀ earlier, 1 ≤ earlier → earlier < attempt →
          ∃ message, (attempts earlier).result = .error (.Retryable message)) →
        (attempts attempt).result = .error (.Retryable message) → admits matching retry message := by
  constructor
  · intro h attempt message hpositive hless hearlier hresult
    have hstarted : attempt_started run_id task attempt ∈
        (execute_node_result run_id task timeout_ms retry attempts).1 :=
      started_mem_execute_node.mpr ⟨hpositive, hless.le, hearlier⟩
    have hnext := (next_started_iff hstarted).mpr ⟨hless, message, hresult⟩
    obtain ⟨other, hother, _, hadmits⟩ := (h attempt hstarted (by simp [hresult])).mp hnext
    rw [hresult] at hother
    cases hother
    exact hadmits
  · intro h attempt hstarted _
    obtain ⟨hpositive, _, hearlier⟩ := started_mem_execute_node.mp hstarted
    rw [next_started_iff hstarted]
    constructor
    · rintro ⟨hless, message, hresult⟩
      exact ⟨message, hresult, hless, h attempt message hpositive hless hearlier hresult⟩
    · rintro ⟨message, hresult, hless, _⟩
      exact ⟨hless, message, hresult⟩

/-- With a filter for rate limits only, a reset connection is retried. -/
theorem filter_ignored :
    ¬ FilterHonoured (fun pattern message => pattern.toList <:+: message.toList) "run" flaky_task 1000
      ⟨3, some ["rate limit"]⟩ flaky_attempts := by
  intro h
  have hfirst : attempt_started "run" flaky_task 1 ∈
      (execute_node_result "run" flaky_task 1000 ⟨3, some ["rate limit"]⟩ flaky_attempts).1 :=
    started_mem_execute_node.mpr ⟨by decide, by decide, by omega⟩
  have hnext := (next_started_iff hfirst).mpr ⟨by decide, "connection reset", rfl⟩
  obtain ⟨message, hresult, _, hadmits⟩ := (h 1 hfirst (by simp [flaky_attempts])).mp hnext
  cases hresult
  obtain hnone | ⟨patterns, hsome, pattern, hmem, hinfix⟩ := hadmits
  · cases hnone
  · cases hsome
    cases List.mem_singleton.mp hmem
    exact absurd hinfix (by decide)

end flow_engine.executor
