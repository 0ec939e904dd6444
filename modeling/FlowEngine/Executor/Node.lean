import FlowEngine.Executor.Run

namespace flow_engine

/-- Retry policy of a node. The backoff between two attempts only takes time. -/
structure RetryPolicy where
  max_attempts : Nat
  /-- If set, only retry errors whose message matches one of these strings. -/
  retryable_errors : Option (List String)

inductive NodeError where
  | Retryable (message : String)
  | Fatal (message : String)
  | Timeout (elapsed_ms : Nat)
  | Validation (message : String)

namespace NodeError

def to_string : NodeError → String
  | .Retryable message => "retryable: " ++ message
  | .Fatal message => "fatal: " ++ message
  | .Timeout elapsed_ms => "timeout after " ++ toString elapsed_ms ++ "ms"
  | .Validation message => "validation: " ++ message

def is_retryable : NodeError → Bool
  | .Retryable _ => true
  | _ => false

theorem is_retryable_iff {error : NodeError} : error.is_retryable = true ↔ ∃ message, error = .Retryable message := by
  cases error <;> simp [is_retryable]

end NodeError

namespace executor

/-- How a handler's `run` ends under its timeout. -/
inductive RunResult where
  | ok (outputs : Value)
  | error (error : NodeError)
  | elapsed
  | panicked (error : String)

/-- One call of a handler's `run`: the LLM records it left and how it ended. -/
structure Attempt where
  llm_records : List LlmInvocationRecord
  result : RunResult

section Attempts

variable (run_id : String) (task : Task) (timeout_ms max_attempts : Nat) (attempts : Nat → Attempt)

/-- The loop over the attempts, with the critical events it emits. A panic of the handler is
one of the task. -/
def execute_attempts :
    Nat → Nat → String → List LlmInvocationRecord → List WriteEvent × JoinResult
  | 0, _, last_error, all_llm_records => ([], .returned (.Failed last_error) all_llm_records)
  | remaining + 1, attempt, _, all_llm_records =>
    let started := WriteEvent.NodeStarted 0 run_id task.node_id task.inputs task.fan_out_index attempt
    let all_llm_records := all_llm_records ++ (attempts attempt).llm_records
    match (attempts attempt).result with
    | .ok outputs =>
      let completed := WriteEvent.NodeCompleted 0 run_id task.node_id outputs task.fan_out_index
      let checkpoint := WriteEvent.Checkpoint 0 run_id task.node_id outputs
      ([started, completed, checkpoint], .returned (.Success outputs) all_llm_records)
    | .error node_error =>
      let will_retry := node_error.is_retryable && decide (attempt < max_attempts)
      let error_msg := node_error.to_string
      let failed_event := WriteEvent.NodeFailed 0 run_id task.node_id error_msg will_retry attempt
      if will_retry then
        let (events, result) := execute_attempts remaining (attempt + 1) error_msg all_llm_records
        (started :: failed_event :: events, result)
      else ([started, failed_event], .returned (.Failed error_msg) all_llm_records)
    | .elapsed =>
      let error_msg := (NodeError.Timeout timeout_ms).to_string
      let failed_event := WriteEvent.NodeFailed 0 run_id task.node_id error_msg false attempt
      ([started, failed_event], .returned (.Failed error_msg) all_llm_records)
    | .panicked error => ([started], .panicked error)

end Attempts

/-- Execute a single node with retry and timeout logic. -/
def execute_node (run_id : String) (task : Task) (timeout_ms : Nat) (retry : RetryPolicy)
    (attempts : Nat → Attempt) : List WriteEvent × JoinResult :=
  let max_attempts := max retry.max_attempts 1
  execute_attempts run_id task timeout_ms max_attempts attempts max_attempts 1 "" []

/-- The attempts end in a success after a number of failures that are retried. -/
structure Succeeds (retry : RetryPolicy) (attempts : Nat → Attempt) (failures : Nat) (outputs : Value) : Prop where
  within : failures < max retry.max_attempts 1
  failed : ∀ attempt, 1 ≤ attempt → attempt ≤ failures →
    ∃ message, (attempts attempt).result = .error (.Retryable message)
  succeeded : (attempts (failures + 1)).result = .ok outputs

variable {run_id : String} {task : Task} {timeout_ms max_attempts : Nat} {attempts : Nat → Attempt}
variable {retry : RetryPolicy} {failures : Nat} {outputs : Value}

/-- The events of the attempts from one on, of which only the last does not fail. -/
def attempt_events (run_id : String) (task : Task) (attempts : Nat → Attempt) (outputs : Value) :
    Nat → Nat → List WriteEvent
  | attempt, 0 => [.NodeStarted 0 run_id task.node_id task.inputs task.fan_out_index attempt,
      .NodeCompleted 0 run_id task.node_id outputs task.fan_out_index, .Checkpoint 0 run_id task.node_id outputs]
  | attempt, failures + 1 =>
    let error := match (attempts attempt).result with
      | .error node_error => node_error.to_string
      | _ => ""
    .NodeStarted 0 run_id task.node_id task.inputs task.fan_out_index attempt ::
      .NodeFailed 0 run_id task.node_id error true attempt ::
      attempt_events run_id task attempts outputs (attempt + 1) failures

theorem execute_attempts_success {remaining attempt : Nat} {error : String} {records : List LlmInvocationRecord}
    (hmax : attempt + remaining = max_attempts + 1) (hlast : failures < remaining)
    (hfailed : ∀ n, attempt ≤ n → n < attempt + failures →
      ∃ message, (attempts n).result = .error (.Retryable message))
    (hsucceeded : (attempts (attempt + failures)).result = .ok outputs) :
    ∃ all, execute_attempts run_id task timeout_ms max_attempts attempts remaining attempt error records =
      (attempt_events run_id task attempts outputs attempt failures, .returned (.Success outputs) all) := by
  induction failures generalizing remaining attempt error records with
  | zero =>
    cases remaining with
    | zero => omega
    | succ remaining =>
      rw [Nat.add_zero] at hsucceeded
      exact ⟨records ++ (attempts attempt).llm_records, by simp [execute_attempts, attempt_events, hsucceeded]⟩
  | succ failures ih =>
    cases remaining with
    | zero => omega
    | succ remaining =>
      obtain ⟨message, herror⟩ := hfailed attempt (Nat.le_refl _) (by omega)
      have hretry : attempt < max_attempts := by omega
      have hsucceeded' : (attempts (attempt + 1 + failures)).result = .ok outputs := by
        rw [← hsucceeded]
        congr 2
        omega
      have hfailed' : ∀ n, attempt + 1 ≤ n → n < attempt + 1 + failures →
          ∃ message, (attempts n).result = .error (.Retryable message) :=
        fun n hle hlt => hfailed n (by omega) (by omega)
      have hrest := fun error records => @ih remaining (attempt + 1) error records (by omega) (by omega) hfailed' hsucceeded'
      obtain ⟨all, hrest⟩ := hrest (NodeError.Retryable message).to_string (records ++ (attempts attempt).llm_records)
      refine ⟨all, ?_⟩
      rw [execute_attempts, attempt_events]
      simp only [herror, NodeError.is_retryable, hretry, decide_true, Bool.and_self, if_true, hrest]

/-- An execution that succeeds writes an event for each start and failure, then the outputs twice. -/
theorem Succeeds.execute_node (h : Succeeds retry attempts failures outputs) :
    ∃ all, execute_node run_id task timeout_ms retry attempts =
      (attempt_events run_id task attempts outputs 1 failures, .returned (.Success outputs) all) := by
  refine execute_attempts_success (by omega) h.within ?_ ?_
  · exact fun n hle hlt => h.failed n hle (by omega)
  · rw [Nat.add_comm]
    exact h.succeeded

theorem succeeds_of_execute_attempts {remaining attempt : Nat} {error : String}
    {records all : List LlmInvocationRecord} (hmax : attempt + remaining = max_attempts + 1)
    (hreturned : (execute_attempts run_id task timeout_ms max_attempts attempts remaining attempt error records).2 =
      .returned (.Success outputs) all) :
    ∃ failures < remaining, (∀ n, attempt ≤ n → n < attempt + failures →
      ∃ message, (attempts n).result = .error (.Retryable message)) ∧
        (attempts (attempt + failures)).result = .ok outputs := by
  induction remaining generalizing attempt error records with
  | zero => simp [execute_attempts] at hreturned
  | succ remaining ih =>
    rw [execute_attempts] at hreturned
    cases hresult : (attempts attempt).result with
    | ok result =>
      simp only [hresult, JoinResult.returned.injEq, NodeOutcome.Success.injEq] at hreturned
      exact ⟨0, by omega, fun n hle hlt => by omega, by rw [Nat.add_zero, hresult, hreturned.1]⟩
    | error node_error =>
      simp only [hresult] at hreturned
      split at hreturned
      · rename_i hretry
        obtain ⟨failures, hlt, hfailed, hsucceeded⟩ := ih (by omega) hreturned
        refine ⟨failures + 1, by omega, fun n hle hn => ?_, ?_⟩
        · by_cases hfirst : n = attempt
          · subst hfirst
            cases node_error with
            | Retryable message => exact ⟨message, hresult⟩
            | _ => simp [NodeError.is_retryable] at hretry
          · exact hfailed n (by omega) (by omega)
        · rw [← hsucceeded]
          congr 2
          omega
      · simp at hreturned
    | elapsed => simp [hresult] at hreturned
    | panicked e => simp [hresult] at hreturned

/-- An execution succeeds with some outputs exactly if its attempts end with them. -/
theorem execute_node_success_iff :
    (∃ all, (execute_node run_id task timeout_ms retry attempts).2 = .returned (.Success outputs) all) ↔
      ∃ failures, Succeeds retry attempts failures outputs := by
  constructor
  · rintro ⟨all, hreturned⟩
    obtain ⟨failures, hlt, hfailed, hsucceeded⟩ := succeeds_of_execute_attempts (by omega) hreturned
    exact ⟨failures, hlt, fun n hle hn => hfailed n hle (by omega), by rwa [Nat.add_comm] at hsucceeded⟩
  · rintro ⟨failures, h⟩
    obtain ⟨all, hrun⟩ := @Succeeds.execute_node run_id task timeout_ms _ _ _ _ h
    exact ⟨all, by rw [hrun]⟩

end executor

end flow_engine
