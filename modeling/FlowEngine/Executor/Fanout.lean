import FlowEngine.Executor.Edges

namespace flow_engine.executor

/-- The panics the run loop's own code can end in. -/
inductive Panic where
  | index_out_of_bounds (index len : Nat)
  deriving DecidableEq

/-- The slot value an instance leaves: its output, or a marker with its error. -/
def fan_out_result (fan_out_index : Nat) : NodeOutcome → Value
  | .Success val => val
  | .Failed err => .object [("error", .string err),
      ("fan_out_index", .number (.pos_int (UInt64.ofNat fan_out_index)))]

/-- Record a finished instance. When it is the last one, its node completes with
the array of all slots. -/
def handle_fan_out_completion (s : RunState) (node_id : String) (fan_out_index : Nat)
    (outcome : NodeOutcome) : Except Panic (RunState × Option (String × Value)) :=
  match s.fan_out_states node_id with
  | none => .ok (s, none)
  | some state =>
    if fan_out_index < state.results.length then
      let results := state.results.set fan_out_index (some (fan_out_result fan_out_index outcome))
      let completed := state.completed + 1
      if completed = state.expected then
        let merged_output := Value.array (results.map fun r => r.getD .null)
        .ok ({ s with
          completed := insert node_id s.completed
          node_outputs := Function.update s.node_outputs node_id (some merged_output)
          fan_out_states := Function.update s.fan_out_states node_id none },
          some (node_id, merged_output))
      else
        let state := { state with results := results, completed := completed }
        .ok ({ s with fan_out_states := Function.update s.fan_out_states node_id (some state) }, none)
    else .error (.index_out_of_bounds fan_out_index state.results.length)

/-- Spawn one task of a node. A node missing from the graph, or of an unregistered
type, gives none. -/
def spawn_node (ctx : RunContext) (node_outputs : String → Option Value) (node_id : String) (id : TaskId)
    (fan_out_index : Option Nat) (override_inputs : Option Value) : Option Task :=
  match ctx.graph.nodes.find? fun n => n.instance_id = node_id with
  | none => none
  | some node_instance =>
    match ctx.node_registry node_instance.node_type with
    | none => none
    | some _ => some {
        id := id
        node_id := node_id
        fan_out_index := fan_out_index
        inputs := override_inputs.getD (resolve_inputs ctx.graph node_outputs node_id) }

/-- Spawn a node as a single task on its resolved inputs, and track it as running. -/
def spawn_plain (ctx : RunContext) (s : RunState) (node_id : String) : RunState :=
  match spawn_node ctx s.node_outputs node_id ⟨s.activations.length, 0⟩ none none with
  | some task => { s with
      running_set := insert node_id s.running_set
      running := s.running ++ [task]
      activations := s.activations ++ [⟨node_id, .plain task.inputs⟩] }
  | none => s

/-- Spawn the instance for one item of a fan-out. Its index is a `u32`. -/
def spawn_instance (ctx : RunContext) (node_id : String) (activation : Nat) (s : RunState)
    (item : Value × Nat) : RunState :=
  match spawn_node ctx s.node_outputs node_id ⟨activation, item.2⟩ (some (item.2 % 2 ^ 32)) (some item.1) with
  | some task => { s with running := s.running ++ [task] }
  | none => s

/-- Spawn an instance for each item. The number of expected results is a `u32`. -/
def spawn_fan_out (ctx : RunContext) (s : RunState) (node_id : String) (items : List Value) : RunState :=
  let count := items.length % 2 ^ 32
  let state : FanOutState := { expected := count, results := List.replicate count none, completed := 0 }
  items.zipIdx.foldl (spawn_instance ctx node_id s.activations.length) { s with
    fan_out_states := Function.update s.fan_out_states node_id (some state)
    activations := s.activations ++ [⟨node_id, .fan_out items⟩] }

/-- Spawn one ready node; a re-executed node is no longer completed. -/
def spawn_ready_node (ctx : RunContext) (s : RunState) (ready : ReadyNode) : RunState :=
  let s := if ready.is_cycle then { s with completed := s.completed.erase ready.node_id } else s
  match ready.fan_out_items with
  | some items => spawn_fan_out ctx s ready.node_id items
  | none => spawn_plain ctx s ready.node_id

def spawn_ready_nodes (ctx : RunContext) (ready_nodes : List ReadyNode) (s : RunState) : RunState :=
  ready_nodes.foldl (spawn_ready_node ctx) s

end flow_engine.executor
