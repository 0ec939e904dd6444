import FlowEngine.Types

namespace flow_engine

/-- The events of an execution. The constant schema version is left out; the timestamp
and the duration are those of a `StampedEvent`. -/
inductive WriteEvent where
  | RunStarted (seq : Nat) (run_id flow_id version_id : String) (trigger_inputs : Value)
      (triggered_by : TriggerSource) (config_hash parent_run_id : Option String)
  | RunCompleted (seq : Nat) (run_id : String) (status : RunStatus)
      (llm_summary : Option LlmRunSummary)
  | NodeStarted (seq : Nat) (run_id node_id : String) (inputs : Value)
      (fan_out_index : Option Nat) (attempt : Nat)
  | NodeCompleted (seq : Nat) (run_id node_id : String) (outputs : Value)
      (fan_out_index : Option Nat)
  | NodeFailed (seq : Nat) (run_id node_id error : String) (will_retry : Bool) (attempt : Nat)
  | EdgeEvaluated (seq : Nat) (run_id edge_id : String) (condition : Option String)
      (result : Bool) (data_summary : Value)
  | Checkpoint (seq : Nat) (run_id node_id : String) (state_snapshot : Value)
  | LlmInvocation (seq : Nat) (run_id node_id : String) (request : LlmRequest)
      (response : LlmResponse)
  | LlmStreamChunk (seq : Nat) (run_id node_id : String) (chunk : Value)
  | ToolInvocation (seq : Nat) (run_id tool_name : String) (inputs outputs : Value)
  | StepRecorded (seq : Nat) (run_id step_name : String) (data : Value)
  | Custom (seq : Nat) (run_id : String) (node_id : Option String) (name : String) (data : Value)
  | TopologyHint (seq : Nat) (run_id : String) (nodes : List String)
      (edges : List (String × String))

namespace WriteEvent

/-- The sequence number of an event. -/
def seq : WriteEvent → Nat
  | .RunStarted seq .. | .RunCompleted seq .. | .NodeStarted seq .. | .NodeCompleted seq ..
  | .NodeFailed seq .. | .EdgeEvaluated seq .. | .Checkpoint seq .. | .LlmInvocation seq ..
  | .LlmStreamChunk seq .. | .ToolInvocation seq .. | .StepRecorded seq .. | .Custom seq ..
  | .TopologyHint seq .. => seq

/-- The event under a new sequence number. -/
def set_seq (new_seq : Nat) : WriteEvent → WriteEvent
  | .RunStarted _ r f v i t c p => .RunStarted new_seq r f v i t c p
  | .RunCompleted _ r s l => .RunCompleted new_seq r s l
  | .NodeStarted _ r n i f a => .NodeStarted new_seq r n i f a
  | .NodeCompleted _ r n o f => .NodeCompleted new_seq r n o f
  | .NodeFailed _ r n e w a => .NodeFailed new_seq r n e w a
  | .EdgeEvaluated _ r e c p d => .EdgeEvaluated new_seq r e c p d
  | .Checkpoint _ r n s => .Checkpoint new_seq r n s
  | .LlmInvocation _ r n q a => .LlmInvocation new_seq r n q a
  | .LlmStreamChunk _ r n c => .LlmStreamChunk new_seq r n c
  | .ToolInvocation _ r t i o => .ToolInvocation new_seq r t i o
  | .StepRecorded _ r s d => .StepRecorded new_seq r s d
  | .Custom _ r n m d => .Custom new_seq r n m d
  | .TopologyHint _ r n e => .TopologyHint new_seq r n e

/-- The run an event belongs to. -/
def run_id : WriteEvent → String
  | .RunStarted _ run_id .. | .RunCompleted _ run_id .. | .NodeStarted _ run_id ..
  | .NodeCompleted _ run_id .. | .NodeFailed _ run_id .. | .EdgeEvaluated _ run_id ..
  | .Checkpoint _ run_id .. | .LlmInvocation _ run_id .. | .LlmStreamChunk _ run_id ..
  | .ToolInvocation _ run_id .. | .StepRecorded _ run_id .. | .Custom _ run_id ..
  | .TopologyHint _ run_id .. => run_id

/-- Whether the event must go through the critical channel. -/
def is_critical : WriteEvent → Bool
  | .RunStarted .. | .RunCompleted .. | .NodeStarted .. | .NodeCompleted .. | .NodeFailed ..
  | .EdgeEvaluated .. | .Checkpoint .. | .LlmInvocation .. | .ToolInvocation ..
  | .StepRecorded .. => true
  | .LlmStreamChunk .. | .Custom .. | .TopologyHint .. => false

@[simp] theorem seq_set_seq (new_seq : Nat) (event : WriteEvent) :
    (event.set_seq new_seq).seq = new_seq := by
  cases event <;> rfl

@[simp] theorem is_critical_set_seq (new_seq : Nat) (event : WriteEvent) :
    (event.set_seq new_seq).is_critical = event.is_critical := by
  cases event <;> rfl

end WriteEvent

end flow_engine
