import FlowEngine.Executor.Tasks.Machine

namespace flow_engine.executor

/-- The node an attempt's event is about. -/
def event_node : WriteEvent → Option String
  | .NodeStarted _ _ node_id _ _ _ | .NodeCompleted _ _ node_id _ _ | .NodeFailed _ _ node_id _ _ _
  | .Checkpoint _ _ node_id _ => some node_id
  | _ => none

/-- The start of an attempt. -/
def is_start : WriteEvent → Bool
  | .NodeStarted .. => true
  | _ => false

/-- How a task ends according to a terminal event: well, or with an error that is not retried. -/
def ending : WriteEvent → Option (Option String)
  | .NodeCompleted .. => some none
  | .NodeFailed _ _ _ error false _ => some (some error)
  | _ => none

/-- What the terminal event of a task says. -/
def outcome_ending : NodeOutcome → Option String
  | .Success _ => none
  | .Failed error => some error

/-- The handler does not panic. -/
def Behaviour.NoPanic (behaviour : Behaviour) : Prop :=
  ∀ attempt error, (behaviour.attempts attempt).result ≠ .panicked error

section Attempts

variable {run_id : String} {task : Task} {timeout_ms max_attempts : Nat} {attempts : Nat → Attempt}

/-- The attempts write about their node only. -/
theorem execute_attempts_node {remaining attempt : Nat} {error : String} {records : List LlmInvocationRecord} :
    ∀ event ∈ (execute_attempts run_id task timeout_ms max_attempts attempts remaining attempt error records).1,
      event_node event = some task.node_id := by
  induction remaining generalizing attempt error records with
  | zero => simp [execute_attempts]
  | succ remaining ih =>
    rw [execute_attempts]
    dsimp only
    cases (attempts attempt).result with
    | ok outputs => simp [event_node]
    | error node_error =>
      dsimp only
      split
      · simpa [event_node] using ih
      · simp [event_node]
    | elapsed => simp [event_node]
    | panicked error => simp [event_node]

/-- The first event of the attempts is a start. -/
theorem execute_attempts_head (remaining attempt : Nat) (error : String) (records : List LlmInvocationRecord) :
    ∃ event rest, (execute_attempts run_id task timeout_ms max_attempts attempts (remaining + 1) attempt error
      records).1 = event :: rest ∧ is_start event = true := by
  rw [execute_attempts]
  dsimp only
  cases (attempts attempt).result with
  | ok outputs => exact ⟨_, _, rfl, rfl⟩
  | error node_error =>
    dsimp only
    split <;> exact ⟨_, _, rfl, rfl⟩
  | elapsed => exact ⟨_, _, rfl, rfl⟩
  | panicked error => exact ⟨_, _, rfl, rfl⟩

/-- Without a panic the attempts end with one terminal event, which tells the outcome. -/
theorem execute_attempts_ending (hpanic : ∀ attempt error, (attempts attempt).result ≠ .panicked error)
    {remaining attempt : Nat} {error : String} {records : List LlmInvocationRecord} (hpositive : 0 < remaining)
    (hmax : attempt + remaining = max_attempts + 1) :
    ∃ outcome all, (execute_attempts run_id task timeout_ms max_attempts attempts remaining attempt error records).2 =
        .returned outcome all ∧
      (execute_attempts run_id task timeout_ms max_attempts attempts remaining attempt error records).1.filterMap
        ending = [outcome_ending outcome] := by
  induction remaining generalizing attempt error records with
  | zero => omega
  | succ remaining ih =>
    rw [execute_attempts]
    dsimp only
    cases hresult : (attempts attempt).result with
    | ok outputs => exact ⟨_, _, rfl, rfl⟩
    | error node_error =>
      dsimp only
      split
      · rename_i hretry
        have hless : attempt < max_attempts := by
          simp only [Bool.and_eq_true, decide_eq_true_eq] at hretry
          exact hretry.2
        obtain ⟨outcome, all, hreturned, hending⟩ := @ih (attempt + 1) node_error.to_string
          (records ++ (attempts attempt).llm_records) (by omega) (by omega)
        refine ⟨outcome, all, hreturned, ?_⟩
        rw [List.filterMap_cons_none rfl, List.filterMap_cons_none (by simp [ending, hretry])]
        exact hending
      · rename_i hretry
        refine ⟨_, _, rfl, ?_⟩
        rw [Bool.not_eq_true] at hretry
        rw [hretry]
        rfl
    | elapsed => exact ⟨_, _, rfl, rfl⟩
    | panicked error => exact absurd hresult (hpanic attempt error)

end Attempts

section Script

variable {ctx : RunContext} {behave : Task → Behaviour} {task : Task}

theorem script_node {event : WriteEvent} (h : event ∈ (script ctx behave task).1) :
    event_node event = some task.node_id :=
  execute_attempts_node event h

theorem script_head : ∃ event rest, (script ctx behave task).1 = event :: rest ∧ is_start event = true := by
  have hpositive : 0 < max (behave task).retry.max_attempts 1 := by omega
  obtain ⟨remaining, hremaining⟩ := Nat.exists_eq_add_of_lt hpositive
  unfold script execute_node
  dsimp only
  rw [hremaining, Nat.zero_add]
  exact execute_attempts_head _ _ _ _

theorem script_ending (hpanic : (behave task).NoPanic) :
    ∃ outcome records, (script ctx behave task).2 = .returned outcome records ∧
      (script ctx behave task).1.filterMap ending = [outcome_ending outcome] :=
  execute_attempts_ending hpanic (by omega) (by omega)

end Script

end flow_engine.executor
