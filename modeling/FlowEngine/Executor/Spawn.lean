import FlowEngine.Executor.Run
import FlowEngine.Validate

namespace flow_engine.executor

/-- A node of the graph whose type is registered. -/
def spawnable (ctx : RunContext) (node_id : String) : Bool :=
  match ctx.graph.nodes.find? fun n => n.instance_id = node_id with
  | none => false
  | some node_instance => (ctx.node_registry node_instance.node_type).isSome

/-- A graph that `validate_graph` accepts, with a handler for every node. `Executor::execute` checks
the handlers; to validate the graph is left to whoever calls it. -/
structure Accepted (ctx : RunContext) : Prop where
  validated : validate.validate_graph ctx.graph = .ok ()
  registered : ∀ node ∈ ctx.graph.nodes, (ctx.node_registry node.node_type).isSome

theorem Accepted.valid {ctx : RunContext} (h : Accepted ctx) : validate.Valid ctx.graph :=
  validate.valid_of_validate_graph h.validated

theorem Accepted.spawnable {ctx : RunContext} (h : Accepted ctx) {node_id : String}
    (hnode : node_id ∈ ctx.graph.nodes.map NodeInstance.instance_id) : spawnable ctx node_id := by
  obtain ⟨node, hmem, hid⟩ := List.mem_map.mp hnode
  unfold executor.spawnable
  cases hfind : ctx.graph.nodes.find? fun n => n.instance_id = node_id with
  | none =>
    have hnone := List.find?_eq_none.mp hfind node hmem
    simp [hid] at hnone
  | some found => exact h.registered found (List.mem_of_find?_eq_some hfind)

theorem spawn_node_eq (ctx : RunContext) (node_outputs : String → Option Value) (node_id : String)
    (id : TaskId) (fan_out_index : Option Nat) (override_inputs : Option Value) :
    spawn_node ctx node_outputs node_id id fan_out_index override_inputs =
      if spawnable ctx node_id then some {
        id := id
        node_id := node_id
        fan_out_index := fan_out_index
        inputs := override_inputs.getD (resolve_inputs ctx.graph node_outputs node_id) }
      else none := by
  unfold spawn_node spawnable
  cases ctx.graph.nodes.find? fun n => n.instance_id = node_id with
  | none => rfl
  | some node_instance => cases hregistered : ctx.node_registry node_instance.node_type <;> simp [hregistered]

/-- The task of a plain activation. -/
def plain_task (ctx : RunContext) (s : RunState) (node_id : String) : Task where
  id := ⟨s.activations.length, 0⟩
  node_id := node_id
  fan_out_index := none
  inputs := resolve_inputs ctx.graph s.node_outputs node_id

/-- The tasks of a fan-out activation. -/
def instance_tasks (s : RunState) (node_id : String) (items : List Value) : List Task :=
  items.zipIdx.map fun item => {
    id := ⟨s.activations.length, item.2⟩
    node_id := node_id
    fan_out_index := some (item.2 % 2 ^ 32)
    inputs := item.1 }

/-- The state of a fan-out before its first instance finishes. -/
def fresh_fan_out (items : List Value) : FanOutState where
  expected := items.length % 2 ^ 32
  results := List.replicate (items.length % 2 ^ 32) none
  completed := 0

theorem spawn_plain_eq (ctx : RunContext) (s : RunState) (node_id : String) :
    spawn_plain ctx s node_id = if spawnable ctx node_id then { s with
        running_set := insert node_id s.running_set
        running := s.running ++ [plain_task ctx s node_id]
        activations := s.activations ++ [⟨node_id, .plain (resolve_inputs ctx.graph s.node_outputs node_id)⟩] }
      else s := by
  unfold spawn_plain
  rw [spawn_node_eq]
  by_cases hspawnable : spawnable ctx node_id = true
  · simp [hspawnable, plain_task]
  · simp [hspawnable]

theorem spawn_fan_out_eq (ctx : RunContext) (s : RunState) (node_id : String) (items : List Value) :
    spawn_fan_out ctx s node_id items = { s with
      fan_out_states := Function.update s.fan_out_states node_id (some (fresh_fan_out items))
      running := s.running ++ if spawnable ctx node_id then instance_tasks s node_id items else []
      activations := s.activations ++ [⟨node_id, .fan_out items⟩] } := by
  have hfold : ∀ (pairs : List (Value × Nat)) (a : Nat) (s : RunState),
      pairs.foldl (spawn_instance ctx node_id a) s = { s with
        running := s.running ++ if spawnable ctx node_id then pairs.map fun item =>
          { id := ⟨a, item.2⟩, node_id := node_id, fan_out_index := some (item.2 % 2 ^ 32), inputs := item.1 }
        else [] } := by
    intro pairs a
    induction pairs with
    | nil => intro s; simp
    | cons pair rest ih =>
      intro s
      rw [List.foldl_cons, ih, spawn_instance, spawn_node_eq]
      by_cases hspawnable : spawnable ctx node_id = true
      · simp [hspawnable]
      · simp [hspawnable]
  unfold spawn_fan_out
  rw [hfold]
  rfl

section Frame

variable (ctx : RunContext) (s : RunState) (node_id : String) (items : List Value) (ready : ReadyNode)

@[simp] theorem spawn_plain_completed : (spawn_plain ctx s node_id).completed = s.completed := by
  rw [spawn_plain_eq]; split <;> rfl

@[simp] theorem spawn_plain_failed : (spawn_plain ctx s node_id).failed = s.failed := by
  rw [spawn_plain_eq]; split <;> rfl

@[simp] theorem spawn_plain_node_outputs : (spawn_plain ctx s node_id).node_outputs = s.node_outputs := by
  rw [spawn_plain_eq]; split <;> rfl

@[simp] theorem spawn_plain_counts :
    (spawn_plain ctx s node_id).edge_traversal_counts = s.edge_traversal_counts := by
  rw [spawn_plain_eq]; split <;> rfl

@[simp] theorem spawn_plain_fan_out_states :
    (spawn_plain ctx s node_id).fan_out_states = s.fan_out_states := by
  rw [spawn_plain_eq]; split <;> rfl

@[simp] theorem spawn_plain_log : (spawn_plain ctx s node_id).log = s.log := by
  rw [spawn_plain_eq]; split <;> rfl

@[simp] theorem spawn_ready_node_failed : (spawn_ready_node ctx s ready).failed = s.failed := by
  unfold spawn_ready_node
  cases ready.fan_out_items <;> by_cases hcycle : ready.is_cycle = true <;> simp [hcycle, spawn_fan_out_eq]

@[simp] theorem spawn_ready_node_node_outputs :
    (spawn_ready_node ctx s ready).node_outputs = s.node_outputs := by
  unfold spawn_ready_node
  cases ready.fan_out_items <;> by_cases hcycle : ready.is_cycle = true <;> simp [hcycle, spawn_fan_out_eq]

@[simp] theorem spawn_ready_node_counts :
    (spawn_ready_node ctx s ready).edge_traversal_counts = s.edge_traversal_counts := by
  unfold spawn_ready_node
  cases ready.fan_out_items <;> by_cases hcycle : ready.is_cycle = true <;> simp [hcycle, spawn_fan_out_eq]

@[simp] theorem spawn_ready_node_log : (spawn_ready_node ctx s ready).log = s.log := by
  unfold spawn_ready_node
  cases ready.fan_out_items <;> by_cases hcycle : ready.is_cycle = true <;> simp [hcycle, spawn_fan_out_eq]

end Frame

/-- A node that is re-executed is no longer completed. -/
def reopen (s : RunState) (ready : ReadyNode) : RunState :=
  { s with completed := if ready.is_cycle then s.completed.erase ready.node_id else s.completed }

@[simp] theorem reopen_failed (s : RunState) (ready : ReadyNode) : (reopen s ready).failed = s.failed := rfl

@[simp] theorem reopen_node_outputs (s : RunState) (ready : ReadyNode) :
    (reopen s ready).node_outputs = s.node_outputs := rfl

@[simp] theorem reopen_fan_out_states (s : RunState) (ready : ReadyNode) :
    (reopen s ready).fan_out_states = s.fan_out_states := rfl

@[simp] theorem reopen_running (s : RunState) (ready : ReadyNode) : (reopen s ready).running = s.running := rfl

@[simp] theorem reopen_running_set (s : RunState) (ready : ReadyNode) :
    (reopen s ready).running_set = s.running_set := rfl

@[simp] theorem reopen_activations (s : RunState) (ready : ReadyNode) :
    (reopen s ready).activations = s.activations := rfl

theorem spawn_ready_node_plain (ctx : RunContext) (s : RunState) {ready : ReadyNode}
    (hplain : ready.fan_out_items = none) :
    spawn_ready_node ctx s ready = spawn_plain ctx (reopen s ready) ready.node_id := by
  unfold spawn_ready_node reopen
  by_cases hcycle : ready.is_cycle = true <;> simp [hplain, hcycle]

theorem spawn_ready_node_fan_out (ctx : RunContext) (s : RunState) {ready : ReadyNode} {items : List Value}
    (hitems : ready.fan_out_items = some items) :
    spawn_ready_node ctx s ready = spawn_fan_out ctx (reopen s ready) ready.node_id items := by
  unfold spawn_ready_node reopen
  by_cases hcycle : ready.is_cycle = true <;> simp [hitems, hcycle]

/-- A spawn concerns one node only. -/
theorem spawn_ready_node_other (ctx : RunContext) (s : RunState) (ready : ReadyNode) {node_id : String}
    (hne : node_id ≠ ready.node_id) :
    (node_id ∈ (spawn_ready_node ctx s ready).completed ↔ node_id ∈ s.completed) ∧
    (node_id ∈ (spawn_ready_node ctx s ready).running_set ↔ node_id ∈ s.running_set) ∧
    (spawn_ready_node ctx s ready).fan_out_states node_id = s.fan_out_states node_id := by
  have hreopen : node_id ∈ (reopen s ready).completed ↔ node_id ∈ s.completed := by
    unfold reopen
    by_cases hcycle : ready.is_cycle = true <;> simp [hcycle, hne]
  cases hitems : ready.fan_out_items with
  | none =>
    rw [spawn_ready_node_plain ctx s hitems, spawn_plain_eq]
    by_cases hspawnable : spawnable ctx ready.node_id = true
    · simp [hspawnable, hreopen, hne]
    · simp [hspawnable, hreopen]
  | some items =>
    rw [spawn_ready_node_fan_out ctx s hitems, spawn_fan_out_eq]
    simp [hreopen, hne]

/-- What one spawn preserves, all spawns of a list of distinct nodes preserve. The
condition on a node to be spawned must not be disturbed by spawning another one. -/
theorem spawn_ready_nodes_induction {ctx : RunContext} {P : RunState → Prop} {R : RunState → ReadyNode → Prop}
    (hspawn : ∀ s ready, P s → R s ready → P (spawn_ready_node ctx s ready))
    (hother : ∀ s ready other, other.node_id ≠ ready.node_id → R s ready → R s other →
      R (spawn_ready_node ctx s ready) other)
    {nodes : List ReadyNode} (hnodup : (nodes.map ReadyNode.node_id).Nodup) {s : RunState} (hs : P s)
    (hready : ∀ ready ∈ nodes, R s ready) : P (spawn_ready_nodes ctx nodes s) := by
  induction nodes generalizing s with
  | nil => exact hs
  | cons ready rest ih =>
    rw [List.map_cons, List.nodup_cons] at hnodup
    have hfirst : R s ready := hready ready (by simp)
    refine ih hnodup.2 (hspawn s ready hs hfirst) ?_
    intro other hmem
    have hne : other.node_id ≠ ready.node_id := fun heq => hnodup.1 (heq ▸ List.mem_map_of_mem hmem)
    exact hother s ready other hne hfirst (hready other (List.mem_cons_of_mem _ hmem))

end flow_engine.executor
