import FlowEngine.Lib.KeyedLog
import FlowEngine.Stores.RunStore
import Mathlib.Data.Prod.Lex
import Mathlib.Order.WithBot
import Std.Data.TreeMap.Lemmas

namespace flow_engine.in_memory

structure InMemoryRunStore where
  runs : Std.TreeMap String RunRecord
  events : Std.TreeMap String (List StampedEvent)

def new : InMemoryRunStore := ⟨∅, ∅⟩

/-- The store's own copy of the fold, which makes a record of no events too. -/
def reconstruct_run (run_id : String) (events : List StampedEvent) : RunRecord :=
  events.foldl reconstruct.apply_event { default_run_record with run_id }

/-- The events stored for a run, `none` before the first. -/
def stored_events (s : InMemoryRunStore) (run_id : String) : List StampedEvent := s.events[run_id]?.getD []

/-- Add the events of one run and renew its record. -/
def write_run (s : InMemoryRunStore) (group : String × List StampedEvent) : InMemoryRunStore :=
  let (run_id, batch) := group
  let stored := stored_events s run_id
  let stored := keyed.sort_by_key StampedEvent.seq (stored ++ keyed.fresh StampedEvent.seq stored batch)
  ⟨s.runs.insert run_id (reconstruct_run run_id stored), s.events.insert run_id stored⟩

def write_batch (s : InMemoryRunStore) (new_events : List StampedEvent) : InMemoryRunStore :=
  (group_by_run new_events).foldl write_run s

/-- The filter of `list_runs`, which looks at the flow and the status alone. -/
def passes (filter : RunFilter) (record : RunRecord) : Bool :=
  (filter.flow_id.all fun flow_id => record.flow_id = flow_id) && filter.status.all fun status => record.status = status

def list_runs (s : InMemoryRunStore) (filter : RunFilter) : RunPage :=
  filter.page ((s.runs.toList.map Prod.snd).filter (passes filter))

/-- What an event changes in the attempts of a node, which are filed under their number and
their fan-out index: the values of the map, whose keys are fields of theirs. -/
def apply_attempt_event (node_id : String) (attempts : List NodeAttemptDetail) (event : StampedEvent) :
    List NodeAttemptDetail :=
  match event.event with
  | .NodeStarted _ _ nid inputs fan_out_index attempt =>
    if nid = node_id then
      if attempts.any fun detail => detail.key = (attempt, fan_out_index) then attempts
      else attempts ++ [.begun attempt fan_out_index inputs]
    else attempts
  | .NodeCompleted _ _ nid outputs fan_out_index =>
    if nid = node_id then
      attempts.map fun detail =>
        if detail.fan_out_index = fan_out_index then detail.completed outputs event.duration_ms else detail
    else attempts
  | .NodeFailed _ _ nid error _ attempt =>
    if nid = node_id then
      attempts.map fun detail => if detail.key = (attempt, none) then detail.failed error else detail
    else attempts
  | _ => attempts

/-- The order of the attempts: by number, and then by fan-out index with plain tasks first. -/
def attempt_order (detail : NodeAttemptDetail) : Nat ×ₗ WithBot Nat := toLex detail.key

def get_node_detail (s : InMemoryRunStore) (run_id node_id : String) : Option NodeRunDetail :=
  s.events[run_id]?.bind fun events =>
    let attempts := events.foldl (apply_attempt_event node_id) []
    if attempts.isEmpty then none else some ⟨node_id, keyed.sort_by_key attempt_order attempts⟩

/-- What an event changes in the map of `get_node_results`. -/
def apply_node_event (nodes : List NodeRunResult) (event : StampedEvent) : List NodeRunResult :=
  match event.event with
  | .NodeStarted _ _ node_id inputs _ attempt =>
    reconstruct.update_node (reconstruct.or_insert_node nodes node_id) node_id fun entry =>
      { entry with inputs, attempts := max entry.attempts attempt }
  | .NodeCompleted _ _ node_id outputs _ =>
    reconstruct.update_node nodes node_id fun entry =>
      { entry with status := "completed", outputs := some outputs, duration_ms := event.duration_ms }
  | .NodeFailed _ _ node_id error will_retry _ =>
    reconstruct.update_node nodes node_id fun entry =>
      if !will_retry then { entry with status := "failed", error := some error } else entry
  | _ => nodes

def get_node_results (s : InMemoryRunStore) (run_id : String) : List NodeRunResult :=
  match s.events[run_id]? with
  | some events => events.foldl apply_node_event []
  | none => []

/-- Push what a query makes of an event, if it is of its kind. -/
def push_record (record : StampedEvent → Option α) (records : List α) (event : StampedEvent) : List α :=
  match record event with
  | some found => records ++ [found]
  | none => records

/-- The loop of the other queries. -/
def collect (record : StampedEvent → Option α) (s : InMemoryRunStore) (run_id : String) : List α :=
  match s.events[run_id]? with
  | some events => events.foldl (push_record record) []
  | none => []

def get_edge_results : InMemoryRunStore → String → List EdgeRunResult :=
  collect fun event =>
    match event.event with
    | .EdgeEvaluated _ _ edge_id condition result data_summary => some ⟨edge_id, condition, result, data_summary⟩
    | _ => none

def get_custom_events : InMemoryRunStore → String → List CustomEventRecord :=
  collect fun event =>
    match event.event with
    | .Custom seq rid node_id name data => some ⟨rid, node_id, name, data, seq⟩
    | _ => none

def get_llm_invocations : InMemoryRunStore → String → List StoredLlmInvocation :=
  collect fun event =>
    match event.event with
    | .LlmInvocation _ rid node_id request response =>
      some { node_id, request, response, run_id := rid, timestamp := event.timestamp }
    | _ => none

/-- In-memory implementation of `RunStore`, with its own copies of the fold functions. -/
def run_store : RunStore InMemoryRunStore where
  write_batch s new_events := .ok (write_batch s new_events)
  events s run_id := .ok (stored_events s run_id)
  get_run s run_id := .ok s.runs[run_id]?
  list_runs s filter := .ok (list_runs s filter)
  get_node_results s run_id := .ok (get_node_results s run_id)
  get_edge_results s run_id := .ok (get_edge_results s run_id)
  get_custom_events s run_id := .ok (get_custom_events s run_id)
  get_llm_invocations s run_id := .ok (get_llm_invocations s run_id)

end flow_engine.in_memory
