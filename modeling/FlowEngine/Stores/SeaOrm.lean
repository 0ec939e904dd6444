import FlowEngine.Lib.KeyedLog
import FlowEngine.Stores.RunStore
import Mathlib.Data.List.Dedup

namespace flow_engine.seaorm

/-- A row of `run_event`, less its id and its time of creation. -/
structure RunEvent where
  run_id : String
  seq : Int
  event_type : String
  payload : Value

/-- The table of events, rows in the order of insertion. -/
structure SeaOrmRunStore where
  run_event : List RunEvent

def new : SeaOrmRunStore := ⟨[]⟩

/-- The cast of a 64-bit unsigned integer to a signed one. -/
def as_i64 (n : Nat) : Int := Int.bmod n (2 ^ 64)

def event_type : WriteEvent → String
  | .RunStarted .. => "run_started"
  | .RunCompleted .. => "run_completed"
  | .NodeStarted .. => "node_started"
  | .NodeCompleted .. => "node_completed"
  | .NodeFailed .. => "node_failed"
  | .EdgeEvaluated .. => "edge_evaluated"
  | .Checkpoint .. => "checkpoint"
  | .LlmInvocation .. => "llm_invocation"
  | .LlmStreamChunk .. => "llm_stream_chunk"
  | .ToolInvocation .. => "tool_invocation"
  | .StepRecorded .. => "step_recorded"
  | .Custom .. => "custom"
  | .TopologyHint .. => "topology_hint"

/-- The rows of a run, ordered by the stored number. -/
def rows_of (s : SeaOrmRunStore) (run_id : String) : List RunEvent :=
  keyed.sort_by_key RunEvent.seq (s.run_event.filter fun row => row.run_id = run_id)

/-- Read all events for a run, ordered by seq. -/
def read_events (serde : Serde) (s : SeaOrmRunStore) (run_id : String) : Except String (List StampedEvent) :=
  (rows_of s run_id).mapM fun row => serde.from_value row.payload

/-- Insert an event, unless its run has a row with that number. -/
def insert (serde : Serde) (s : SeaOrmRunStore) (event : StampedEvent) : Except String SeaOrmRunStore := do
  let payload ← serde.to_value event
  let row : RunEvent := ⟨event.run_id, as_i64 event.seq, event_type event.event, payload⟩
  if s.run_event.any fun old => old.run_id = row.run_id && old.seq = row.seq then return s
  return ⟨s.run_event ++ [row]⟩

def write_batch (serde : Serde) (s : SeaOrmRunStore) (events : List StampedEvent) : Except String SeaOrmRunStore :=
  events.foldlM (insert serde) s

def get_run (serde : Serde) (s : SeaOrmRunStore) (run_id : String) : Except String (Option RunRecord) := do
  let events ← read_events serde s run_id
  return reconstruct.reconstruct_run run_id events

/-- List the runs that pass a filter. The order of the groups is not specified. -/
def list_runs (serde : Serde) (s : SeaOrmRunStore) (filter : RunFilter) : Except String RunPage := do
  let records ← (s.run_event.map RunEvent.run_id).dedup.mapM (get_run serde s)
  return filter.page ((records.filterMap id).filter filter.passes)

/-- Database-backed store for execution records. -/
def run_store (serde : Serde) : RunStore SeaOrmRunStore where
  write_batch := write_batch serde
  events := read_events serde
  get_run := get_run serde
  list_runs := list_runs serde
  get_node_results s run_id := return reconstruct.extract_node_results (← read_events serde s run_id)
  get_edge_results s run_id := return reconstruct.extract_edge_results (← read_events serde s run_id)
  get_custom_events s run_id := return reconstruct.extract_custom_events (← read_events serde s run_id)
  get_llm_invocations s run_id := return reconstruct.extract_llm_invocations (← read_events serde s run_id)

end flow_engine.seaorm
