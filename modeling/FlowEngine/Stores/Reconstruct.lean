import FlowEngine.Lib.Matching
import FlowEngine.Stores.Records

namespace flow_engine.reconstruct

/-- What an event changes in the record of its run. -/
def apply_event (record : RunRecord) (event : StampedEvent) : RunRecord :=
  match event.event with
  | .RunStarted _ _ flow_id version_id trigger_inputs triggered_by config_hash parent_run_id =>
    { record with
      flow_id
      version_id
      inputs := trigger_inputs
      triggered_by
      config_hash
      parent_run_id
      started_at := some event.timestamp
      status := .Running }
  | .RunCompleted _ _ status llm_summary =>
    { record with
      status
      duration_ms := event.duration_ms
      llm_summary
      completed_at := some event.timestamp }
  | _ => record

/-- Reconstruct a run's record from its ordered events, if there are any. -/
def reconstruct_run (run_id : String) (events : List StampedEvent) : Option RunRecord :=
  if events.isEmpty then none else some (events.foldl apply_event { default_run_record with run_id })

/-- The entry of a node in the map of results, changed. -/
def update_node (nodes : List NodeRunResult) (node_id : String) (f : NodeRunResult → NodeRunResult) :
    List NodeRunResult :=
  nodes.map fun entry => if entry.node_id = node_id then f entry else entry

/-- The map with an entry for the node. -/
def or_insert_node (nodes : List NodeRunResult) (node_id : String) : List NodeRunResult :=
  if nodes.any fun entry => entry.node_id = node_id then nodes
  else
    nodes ++ [{
      node_id
      status := "running"
      inputs := .null
      outputs := none
      error := none
      duration_ms := none
      attempts := 0 }]

def apply_node_event (nodes : List NodeRunResult) (event : StampedEvent) : List NodeRunResult :=
  match event.event with
  | .NodeStarted _ _ node_id inputs _ attempt =>
    update_node (or_insert_node nodes node_id) node_id fun entry =>
      { entry with inputs, attempts := max entry.attempts attempt }
  | .NodeCompleted _ _ node_id outputs _ =>
    update_node nodes node_id fun entry =>
      { entry with status := "completed", outputs := some outputs, duration_ms := event.duration_ms }
  | .NodeFailed _ _ node_id error will_retry _ =>
    update_node nodes node_id fun entry =>
      if will_retry then entry else { entry with status := "failed", error := some error }
  | _ => nodes

/-- The results of the nodes, one for each node id; the order of the map they come from is
not specified. -/
def extract_node_results (events : List StampedEvent) : List NodeRunResult := events.foldl apply_node_event []

def extract_edge_results (events : List StampedEvent) : List EdgeRunResult :=
  events.filterMap fun event =>
    match event.event with
    | .EdgeEvaluated _ _ edge_id condition result data_summary => some ⟨edge_id, condition, result, data_summary⟩
    | _ => none

/-- What an event changes in the attempts of a node. The outputs of a completion go to the most
recent unfinished attempt with its fan-out index, an error to the most recent unfinished one. -/
def apply_attempt_event (node_id : String) (attempts : List NodeAttemptDetail) (event : StampedEvent) :
    List NodeAttemptDetail :=
  match event.event with
  | .NodeStarted _ _ nid inputs fan_out_index attempt =>
    if nid = node_id then attempts ++ [.begun attempt fan_out_index inputs] else attempts
  | .NodeCompleted _ _ nid outputs fan_out_index =>
    if nid = node_id then
      matching.update_last (fun detail => detail.fan_out_index = fan_out_index && detail.unfinished)
        (fun detail => detail.completed outputs event.duration_ms) attempts
    else attempts
  | .NodeFailed _ _ nid error _ _ =>
    if nid = node_id then
      matching.update_last (fun detail => detail.unfinished) (fun detail => detail.failed error) attempts
    else attempts
  | _ => attempts

/-- The detail of a node that has started, with all of its attempts. -/
def extract_node_detail (events : List StampedEvent) (node_id : String) : Option NodeRunDetail :=
  let attempts := events.foldl (apply_attempt_event node_id) []
  if attempts.isEmpty then none else some ⟨node_id, attempts⟩

def extract_custom_events (events : List StampedEvent) : List CustomEventRecord :=
  events.filterMap fun event =>
    match event.event with
    | .Custom seq run_id node_id name data => some ⟨run_id, node_id, name, data, seq⟩
    | _ => none

def extract_llm_invocations (events : List StampedEvent) : List StoredLlmInvocation :=
  events.filterMap fun event =>
    match event.event with
    | .LlmInvocation _ run_id node_id request response =>
      some { node_id, request, response, run_id, timestamp := event.timestamp }
    | _ => none

end flow_engine.reconstruct
