import FlowEngine.Lib.KeyedLog
import FlowEngine.Lib.Lines
import FlowEngine.Stores.RunStore
import Std.Data.TreeMap.Lemmas

namespace flow_engine.file_store

/-- The directories of the runs, with the content of `events.jsonl` where there is one. -/
structure FileRunStore where
  runs : Std.TreeMap String (Option String)

def new : FileRunStore := ⟨∅⟩

/-- The characters `trim` removes. -/
def is_whitespace (c : Char) : Bool :=
  let n := c.toNat
  9 ≤ n && n ≤ 13 || n = 32 || n = 133 || n = 160 || n = 5760 || 8192 ≤ n && n ≤ 8202 || n = 8232 || n = 8233 ||
    n = 8239 || n = 8287 || n = 12288

/-- Read all events for a run, ordered by seq. -/
def read_events (serde : Serde) (s : FileRunStore) (run_id : String) : Except String (List StampedEvent) :=
  match s.runs[run_id]? with
  | some (some content) =>
    match ((text.lines content).filter fun line => !line.toList.all is_whitespace).mapM serde.from_str with
    | .ok events => .ok (keyed.sort_by_key StampedEvent.seq events)
    | .error e => .error ("failed to deserialize event: " ++ e)
  | _ => .ok []

/-- Rewrite the file of one run with the events it lacks. A new file replaces the old one by
renaming, after all lines have been written. -/
def write_run (serde : Serde) (s : FileRunStore) (group : String × List StampedEvent) : Except String FileRunStore := do
  let (run_id, new_events) := group
  let s : FileRunStore := ⟨s.runs.insertIfNew run_id none⟩
  let existing ← read_events serde s run_id
  let deduped := keyed.fresh StampedEvent.seq existing new_events
  if deduped.isEmpty then return s
  match (existing ++ deduped).mapM serde.to_string with
  | .ok lines => return ⟨s.runs.insert run_id (some (text.of_lines lines))⟩
  | .error e => throw ("failed to serialize event: " ++ e)

def write_batch (serde : Serde) (s : FileRunStore) (events : List StampedEvent) : Except String FileRunStore :=
  (group_by_run events).foldlM (write_run serde) s

def reconstruct_run (serde : Serde) (s : FileRunStore) (run_id : String) : Except String (Option RunRecord) := do
  let events ← read_events serde s run_id
  return reconstruct.reconstruct_run run_id events

/-- List the runs that pass a filter. The order in which directories are read is not specified. -/
def list_runs (serde : Serde) (s : FileRunStore) (filter : RunFilter) : Except String RunPage := do
  let records ← s.runs.keys.mapM (reconstruct_run serde s)
  return filter.page ((records.filterMap id).filter filter.passes)

/-- Count a run of the flow under its version. -/
def count_version (flow_id : String) (counts : Std.TreeMap String Nat) (record : RunRecord) : Std.TreeMap String Nat :=
  if record.flow_id = flow_id then counts.insert record.version_id (counts.getD record.version_id 0 + 1) else counts

def count_runs_by_version (serde : Serde) (s : FileRunStore) (flow_id : String) :
    Except String (Std.TreeMap String Nat) := do
  let records ← s.runs.keys.mapM (reconstruct_run serde s)
  return (records.filterMap id).foldl (count_version flow_id) ∅

/-- File-system backed store for execution records. -/
def run_store (serde : Serde) : RunStore FileRunStore where
  write_batch := write_batch serde
  events := read_events serde
  get_run := reconstruct_run serde
  list_runs := list_runs serde
  get_node_results s run_id := return reconstruct.extract_node_results (← read_events serde s run_id)
  get_edge_results s run_id := return reconstruct.extract_edge_results (← read_events serde s run_id)
  get_custom_events s run_id := return reconstruct.extract_custom_events (← read_events serde s run_id)
  get_llm_invocations s run_id := return reconstruct.extract_llm_invocations (← read_events serde s run_id)
  count_runs_by_version := count_runs_by_version serde

end flow_engine.file_store
