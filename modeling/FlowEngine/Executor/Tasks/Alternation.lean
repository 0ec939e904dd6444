import FlowEngine.Executor.Tasks.Outcomes
import FlowEngine.Lib.Matching
import FlowEngine.Stores.NodeResults

namespace flow_engine.executor

open reconstruct (attempt_event)

/-- Of the starts and ends of its attempts, what a task writes after an event. -/
def Continues : WriteEvent → WriteEvent → Prop
  | .NodeStarted .., .NodeCompleted .. => True
  | .NodeStarted _ _ _ _ _ attempt, .NodeFailed _ _ _ _ _ failed => failed = attempt
  | .NodeFailed _ _ _ _ _ failed, .NodeStarted _ _ _ _ _ attempt => attempt = failed + 1
  | _, _ => False

/-- The start of an attempt with the number. -/
def StartsAttempt (attempt : Nat) : WriteEvent → Prop
  | .NodeStarted _ _ _ _ _ started => started = attempt
  | _ => False

/-- Starts and ends of attempts alternate, from the start of the one with the number on. -/
structure Alternate (attempt : Nat) (events : List WriteEvent) : Prop where
  first : ∀ event ∈ events.head?, StartsAttempt attempt event
  chain : events.IsChain Continues

/-- The fan-out index that an event names. -/
def event_index : WriteEvent → Option (Option Nat)
  | .NodeStarted _ _ _ _ fan_out_index _ | .NodeCompleted _ _ _ _ fan_out_index => some fan_out_index
  | _ => none

theorem Alternate.of_first {attempt : Nat} {events : List WriteEvent} (h : Alternate attempt events) {first : List WriteEvent}
    (hfirst : first <+: events) : Alternate attempt first := by
  refine ⟨fun event hevent => ?_, h.chain.prefix hfirst⟩
  obtain ⟨rest, rfl⟩ := hfirst
  exact h.first event (by rw [List.head?_append, hevent]; rfl)

section Attempts

variable {run_id : String} {task : Task} {timeout_ms max_attempts : Nat} {attempts : Nat → Attempt}

theorem execute_attempts_alternate (remaining attempt : Nat) (error : String) (records : List LlmInvocationRecord) :
    Alternate attempt ((execute_attempts run_id task timeout_ms max_attempts attempts remaining attempt error
      records).1.filter attempt_event) := by
  induction remaining generalizing attempt error records with
  | zero => exact ⟨by simp [execute_attempts], by simp [execute_attempts]⟩
  | succ remaining ih =>
    rw [execute_attempts]
    dsimp only
    cases (attempts attempt).result with
    | ok outputs => exact ⟨by simp [attempt_event, StartsAttempt], List.isChain_pair.mpr trivial⟩
    | error node_error =>
      dsimp only
      split
      · have hrest := ih (attempt + 1) node_error.to_string (records ++ (attempts attempt).llm_records)
        refine ⟨by simp [attempt_event, StartsAttempt], ?_⟩
        rw [List.filter_cons_of_pos rfl, List.filter_cons_of_pos rfl]
        refine List.isChain_cons_cons.mpr ⟨rfl, hrest.chain.cons fun event hevent => ?_⟩
        have hstarts := hrest.first event hevent
        cases event with
        | NodeStarted => exact hstarts
        | _ => exact hstarts.elim
      · exact ⟨by simp [attempt_event, StartsAttempt], List.isChain_pair.mpr rfl⟩
    | elapsed => exact ⟨by simp [attempt_event, StartsAttempt], List.isChain_pair.mpr rfl⟩
    | panicked error => exact ⟨by simp [attempt_event, StartsAttempt], List.isChain_singleton _⟩

/-- The attempts name the index of their task, and leave the number of an event open. -/
theorem execute_attempts_index {remaining attempt : Nat} {error : String} {records : List LlmInvocationRecord} :
    ∀ event ∈ (execute_attempts run_id task timeout_ms max_attempts attempts remaining attempt error records).1,
      (∀ index ∈ event_index event, index = task.fan_out_index) ∧ event.set_seq 0 = event := by
  induction remaining generalizing attempt error records with
  | zero => simp [execute_attempts]
  | succ remaining ih =>
    rw [execute_attempts]
    dsimp only
    cases (attempts attempt).result with
    | ok outputs => simp [event_index, WriteEvent.set_seq]
    | error node_error =>
      dsimp only
      split
      · simpa [event_index, WriteEvent.set_seq] using ih
      · simp [event_index, WriteEvent.set_seq]
    | elapsed => simp [event_index, WriteEvent.set_seq]
    | panicked error => simp [event_index, WriteEvent.set_seq]

end Attempts

/-- The task that writes. -/
def Writer.task_id : Writer → Option TaskId
  | .task author => some author.id
  | .loop _ => none

/-- The starts and ends of attempts in the log, with their writers. -/
def attempt_log (log : List Entry) : List (Writer × WriteEvent) :=
  (log.filter fun entry => attempt_event entry.event).map fun entry => (entry.writer, entry.event)

/-- The attempts of every task alternate in the log; an event names its writer's node and index. -/
structure Alternating (log : List (Writer × WriteEvent)) : Prop where
  alternate : ∀ id, Alternate 1 ((log.filter fun entry => entry.1.task_id = some id).map Prod.snd)
  attempts : ∀ entry ∈ log, attempt_event entry.2 = true
  by_task : ∀ entry ∈ log, ∃ task, entry.1 = .task task ∧ event_node entry.2 = some task.node_id ∧
    ∀ index ∈ event_index entry.2, index = task.fan_out_index
  same_task : ∀ entry ∈ log, ∀ other ∈ log, entry.1.task_id = other.1.task_id → entry.1 = other.1
  unnumbered : ∀ entry ∈ log, entry.2.set_seq 0 = entry.2

theorem attempt_log_append (log more : List Entry) : attempt_log (log ++ more) = attempt_log log ++ attempt_log more := by
  simp [attempt_log]

section Script

variable {ctx : RunContext} {behave : Task → Behaviour} {x : Live}

theorem script_alternate (ctx : RunContext) (behave : Task → Behaviour) (task : Task) :
    Alternate 1 ((script ctx behave task).1.filter attempt_event) :=
  execute_attempts_alternate _ _ _ _

theorem node_of_attempt_event {event : WriteEvent} (h : attempt_event event = true) : (event_node event).isSome = true := by
  cases event <;> first | rfl | cases h

/-- The log of an execution alternates. -/
theorem Transcribed.alternating (h : Transcribed ctx behave x) : Alternating (attempt_log x.log) := by
  have hentry : ∀ pair ∈ attempt_log x.log, ∃ entry ∈ x.log, attempt_event entry.event = true ∧
      ∃ task, entry.writer = .task task ∧ pair = (.task task, entry.event) := by
    intro pair hpair
    obtain ⟨entry, hfiltered, rfl⟩ := List.mem_map.mp hpair
    obtain ⟨hmem, hattempt⟩ := List.mem_filter.mp hfiltered
    obtain ⟨node_id, hnode⟩ := Option.isSome_iff_exists.mp (node_of_attempt_event hattempt)
    obtain ⟨task, hwriter, _⟩ := h.writer_of_node hmem hnode
    exact ⟨entry, hmem, hattempt, task, hwriter, by rw [hwriter]⟩
  constructor
  · intro id
    have hown : ((attempt_log x.log).filter fun entry => entry.1.task_id = some id).map Prod.snd =
        ((x.log.filter (by_task id)).map Entry.event).filter attempt_event := by
      rw [attempt_log, List.filter_map, List.map_map, List.filter_map, List.filter_filter, List.filter_filter]
      refine congrArg _ (List.filter_congr fun entry _ => ?_)
      cases hwriter : entry.writer with
      | task task => simp [by_task, hwriter, Writer.task_id, Bool.and_comm]
      | loop nodes => simp [by_task, hwriter, Writer.task_id]
    rw [hown]
    by_cases hwrote : ∃ entry ∈ x.log, by_task id entry = true
    · obtain ⟨entry, hmem, hby⟩ := hwrote
      unfold by_task at hby
      split at hby
      · rename_i task hwriter
        cases of_decide_eq_true hby
        rw [h.own task (h.writers entry hmem task hwriter)]
        exact (script_alternate ctx behave task).of_first ((List.take_prefix _ _).filter _)
      · cases hby
    · rw [List.filter_eq_nil_iff.mpr fun entry hmem hby => hwrote ⟨entry, hmem, hby⟩]
      exact ⟨fun _ hevent => (nomatch hevent), List.isChain_nil⟩
  · intro pair hpair
    obtain ⟨entry, _, hattempt, task, _, rfl⟩ := hentry pair hpair
    exact hattempt
  · intro pair hpair
    obtain ⟨entry, hmem, _, task, hwriter, rfl⟩ := hentry pair hpair
    have hscript := h.event_mem_script hmem hwriter
    exact ⟨task, rfl, script_node hscript, (execute_attempts_index _ hscript).1⟩
  · intro pair hpair other hother hid
    obtain ⟨entry, hmem, _, task, hwriter, rfl⟩ := hentry pair hpair
    obtain ⟨entry', hmem', _, task', hwriter', rfl⟩ := hentry other hother
    have hsame := (h.writers entry hmem task hwriter).unique (h.writers entry' hmem' task' hwriter') (Option.some.inj hid)
    rw [hsame]
  · intro pair hpair
    obtain ⟨entry, hmem, _, task, hwriter, rfl⟩ := hentry pair hpair
    exact (execute_attempts_index _ (h.event_mem_script hmem hwriter)).2

end Script

end flow_engine.executor
