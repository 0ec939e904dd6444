import FlowEngine.Executor.Fanout

namespace flow_engine.executor

/-- How a task ends: with its outcome and LLM records, or in a panic. -/
inductive JoinResult where
  | returned (outcome : NodeOutcome) (llm_records : List LlmInvocationRecord)
  | panicked (error : String)

/-- A task finishing. -/
structure Completion where
  task : TaskId
  joined : JoinResult

/-- The result the loop works on; a panic is attributed to the node "unknown". -/
def node_result (task : Task) : JoinResult → NodeResult
  | .returned outcome llm_records =>
    { node_id := task.node_id, fan_out_index := task.fan_out_index, outcome, llm_records }
  | .panicked e =>
    { node_id := "unknown", fan_out_index := none, outcome := .Failed ("task panic: " ++ e), llm_records := [] }

/-- Spawn an entry node on the trigger inputs. -/
def spawn_entry (ctx : RunContext) (s : RunState) (node_id : String) : RunState :=
  match spawn_node ctx s.node_outputs node_id ⟨s.activations.length, 0⟩ none (some ctx.inputs) with
  | some task => { s with
      running := s.running ++ [task]
      activations := s.activations ++ [⟨node_id, .plain task.inputs⟩] }
  | none => s

def entry_nodes (ctx : RunContext) : List String :=
  find_entry_nodes ctx.graph (find_back_edges ctx.graph)

/-- The variables before the loop: the entry nodes are seeded and spawned. -/
def initial_state (ctx : RunContext) : RunState :=
  let seeded : RunState := {
    completed := ∅
    failed := ∅
    node_outputs := (entry_nodes ctx).foldl (fun outputs entry =>
      Function.update outputs entry (some ctx.inputs)) fun _ => none
    edge_traversal_counts := fun _ => 0
    llm_records := []
    fan_out_states := fun _ => none
    running := []
    running_set := ∅
    activations := []
    log := [] }
  { (entry_nodes ctx).foldl (spawn_entry ctx) seeded with running_set := (entry_nodes ctx).toFinset }

/-- Keep the LLM records of a task and record an event for each. -/
def collect_llm_records (ctx : RunContext) (s : RunState) (result : NodeResult) : RunState :=
  { s with
    llm_records := s.llm_records ++ result.llm_records
    log := s.log ++ result.llm_records.map fun record =>
      .LlmInvocation 0 ctx.run_id record.node_id record.request record.response }

/-- Account for a finished task. The second part is the node whose outgoing edges
are to be evaluated, with its output and whether that output is a fan-in. -/
def settle (ctx : RunContext) (s : RunState) (result : NodeResult) :
    Except Panic (RunState × Option (String × Value × Bool)) :=
  match result.fan_out_index with
  | some foi =>
    match handle_fan_out_completion s result.node_id foi result.outcome with
    | .error p => .error p
    | .ok (s, completion) => .ok (s, completion.map fun (id, val) => (id, val, true))
  | none =>
    let s := { s with running_set := s.running_set.erase result.node_id }
    match result.outcome with
    | .Success outputs => .ok ({ s with
        completed := insert result.node_id s.completed
        node_outputs := Function.update s.node_outputs result.node_id (some outputs) },
        some (result.node_id, outputs, false))
    | .Failed _ =>
      let s := { s with failed := insert result.node_id s.failed }
      .ok ((find_ready_after_failure ctx s result.node_id).foldl (spawn_plain ctx) s, none)

/-- Evaluate the edges of a completed node and spawn what became ready. -/
def evaluate_downstream (ctx : RunContext) (s : RunState) (completed_node_id : String) (outputs : Value)
    (from_fan_in : Bool) : RunState :=
  let (s, newly_ready) := evaluate_edges_and_find_ready ctx completed_node_id outputs s from_fan_in
  spawn_ready_nodes ctx newly_ready s

/-- The body of the run loop after a task was joined. -/
def process_result (ctx : RunContext) (s : RunState) (result : NodeResult) : Except Panic RunState :=
  match settle ctx (collect_llm_records ctx s result) result with
  | .error p => .error p
  | .ok (s, none) => .ok s
  | .ok (s, some (completed_node_id, outputs, from_fan_in)) =>
    .ok (evaluate_downstream ctx s completed_node_id outputs from_fan_in)

/-- One iteration of the run loop on the next finished task. There is no next
state when that task is not in flight, or when the loop itself panics. -/
def next_state (ctx : RunContext) (s : RunState) (c : Completion) : Option RunState :=
  match s.running.find? fun task => task.id = c.task with
  | none => none
  | some task =>
    match process_result ctx { s with running := s.running.eraseP fun task => task.id = c.task }
        (node_result task c.joined) with
    | .ok next => some next
    | .error _ => none

/-- The status of a run whose loop has ended. -/
def final_status (ctx : RunContext) (s : RunState) (cancelled : Bool) : RunStatus :=
  let all_node_ids := (ctx.graph.nodes.map NodeInstance.instance_id).toFinset
  let done_count := s.completed.card + s.failed.card
  if cancelled then .Cancelled
  else if done_count < all_node_ids.card ∧ s.running_set = ∅ ∧ ¬ all_reachable_done ctx s then .Failed
  else if s.failed = ∅ then .Completed
  else .Failed

end flow_engine.executor
