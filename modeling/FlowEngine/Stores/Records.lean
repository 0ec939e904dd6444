import FlowEngine.WriteEvent

namespace flow_engine

/-- The events that carry a duration. -/
def WriteEvent.has_duration : WriteEvent → Bool
  | .RunCompleted .. | .NodeCompleted .. | .ToolInvocation .. => true
  | _ => false

/-- A write event with its timestamp and, where it has one, its duration. -/
structure StampedEvent where
  event : WriteEvent
  timestamp : Int
  duration_ms : Option Nat
  in_u64 : event.seq < 2 ^ 64
  measured : duration_ms.isSome = event.has_duration

namespace StampedEvent

def seq (event : StampedEvent) : Nat := event.event.seq

def run_id (event : StampedEvent) : String := event.event.run_id

/-- What the stores deduplicate on. -/
def key (event : StampedEvent) : String × Nat := (event.run_id, event.seq)

end StampedEvent

/-- Summary of a run. -/
structure RunRecord where
  run_id : String
  flow_id : String
  version_id : String
  status : RunStatus
  triggered_by : TriggerSource
  config_hash : Option String
  parent_run_id : Option String
  replay_config : Option Value
  llm_summary : Option LlmRunSummary
  started_at : Option Int
  completed_at : Option Int
  duration_ms : Option Nat
  inputs : Value

/-- `RunRecord::default`. -/
def default_run_record : RunRecord where
  run_id := ""
  flow_id := ""
  version_id := ""
  status := .Pending
  triggered_by := .manual "local"
  config_hash := none
  parent_run_id := none
  replay_config := none
  llm_summary := none
  started_at := none
  completed_at := none
  duration_ms := none
  inputs := .null

/-- Summary of a single node's execution within a run. -/
structure NodeRunResult where
  node_id : String
  status : String
  inputs : Value
  outputs : Option Value
  error : Option String
  duration_ms : Option Nat
  attempts : Nat

/-- Summary of a single edge evaluation within a run. -/
structure EdgeRunResult where
  edge_id : String
  condition : Option String
  result : Bool
  data_summary : Value

/-- A single execution attempt for a node. -/
structure NodeAttemptDetail where
  attempt : Nat
  fan_out_index : Option Nat
  inputs : Value
  outputs : Option Value
  error : Option String
  duration_ms : Option Nat

/-- Detailed information about a node's execution, with all attempts and fan-out instances. -/
structure NodeRunDetail where
  node_id : String
  attempts : List NodeAttemptDetail

namespace NodeAttemptDetail

/-- An attempt that has just started. -/
def begun (attempt : Nat) (fan_out_index : Option Nat) (inputs : Value) : NodeAttemptDetail where
  attempt
  fan_out_index
  inputs
  outputs := none
  error := none
  duration_ms := none

def completed (detail : NodeAttemptDetail) (outputs : Value) (duration_ms : Option Nat) : NodeAttemptDetail :=
  { detail with outputs := some outputs, duration_ms }

def failed (detail : NodeAttemptDetail) (error : String) : NodeAttemptDetail := { detail with error := some error }

/-- The attempt has neither outputs nor an error. -/
def unfinished (detail : NodeAttemptDetail) : Bool := detail.outputs.isNone && detail.error.isNone

/-- The attempt number and the fan-out index. -/
def key (detail : NodeAttemptDetail) : Nat × Option Nat := (detail.attempt, detail.fan_out_index)

end NodeAttemptDetail

structure CustomEventRecord where
  run_id : String
  node_id : Option String
  name : String
  data : Value
  seq : Nat

/-- An LLM invocation as a store returns it, with its run and its time. -/
structure StoredLlmInvocation extends LlmInvocationRecord where
  run_id : String
  timestamp : Int

/-- Filter criteria for listing runs. -/
structure RunFilter where
  flow_id : Option String
  status : Option RunStatus
  version_id : Option String
  parent_run_id : Option String
  limit : Option Nat
  offset : Option Nat

/-- Paginated run listing result. -/
structure RunPage where
  runs : List RunRecord
  total : Nat

/-- The filter of `list_runs`, which every store but the in-memory one applies. -/
def RunFilter.passes (filter : RunFilter) (record : RunRecord) : Bool :=
  (filter.flow_id.all fun flow_id => record.flow_id = flow_id) &&
    (filter.status.all fun status => record.status = status) &&
    (filter.version_id.all fun version_id => record.version_id = version_id) &&
    filter.parent_run_id.all fun parent_run_id => record.parent_run_id = some parent_run_id

/-- The page of a list of runs that a filter asks for. -/
def RunFilter.page (filter : RunFilter) (runs : List RunRecord) : RunPage where
  runs := (runs.drop (filter.offset.getD 0)).take (filter.limit.getD runs.length)
  total := runs.length

end flow_engine
