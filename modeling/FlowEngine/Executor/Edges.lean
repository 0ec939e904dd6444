import FlowEngine.Executor.State

namespace flow_engine.executor

/-- An edge's condition on the output of its source; an evaluation error counts
as false. -/
def evaluate_edge_condition (ctx : RunContext) (edge : Edge) (data : Value) : Bool :=
  match edge.condition with
  | none => true
  | some cond =>
    match expression.evaluate ctx.f64 cond.expression data with
    | .ok result => result
    | .error _ => false

/-- The loop of `is_node_ready` over the incoming edges. -/
def is_node_ready_loop (ctx : RunContext) (s : RunState) (counts : String → Nat) :
    List Edge → Bool → Bool
  | [], has_passing_edge => has_passing_edge
  | edge :: rest, has_passing_edge =>
    if edge.id ∈ find_back_edges ctx.graph then is_node_ready_loop ctx s counts rest has_passing_edge
    else if edge.from_node ∉ s.completed ∧ edge.from_node ∉ s.failed then false
    else
      let passing := decide (edge.from_node ∈ s.completed) &&
        match s.node_outputs edge.from_node with
        | some outputs =>
          evaluate_edge_condition ctx edge outputs && decide (counts edge.id ≤ ctx.max_traversals)
        | none => false
      is_node_ready_loop ctx s counts rest (has_passing_edge || passing)

/-- All sources of incoming edges other than back-edges are done, and one of these
edges comes from a completed source and has a condition that holds. -/
def is_node_ready (ctx : RunContext) (s : RunState) (counts : String → Nat) (node_id : String) : Bool :=
  match build_incoming_edges ctx.graph node_id with
  | [] => true
  | edges => is_node_ready_loop ctx s counts edges false

/-- The items to fan out over when an edge is passed: the elements of a non-empty
array, unless the output came from a fan-in. -/
def fan_out_items (outputs : Value) (edge : Edge) (from_fan_in : Bool) : Option (List Value) :=
  if from_fan_in then none
  else
    match resolve_edge_value outputs edge.from_port with
    | .array (item :: items) => some (item :: items)
    | _ => none

/-- The instances of a node's fan-out are still running. -/
def is_fan_out_running (s : RunState) (node_id : String) : Bool :=
  match s.fan_out_states node_id with
  | some state => decide (state.completed < state.expected)
  | none => false

/-- The variables of the loop in `evaluate_edges_and_find_ready`. -/
structure EdgeLoop where
  ready : List ReadyNode
  seen : Finset String
  counts : String → Nat
  log : List WriteEvent

/-- What a passed edge adds to the ready nodes. -/
def visit_target (ctx : RunContext) (s : RunState) (outputs : Value) (from_fan_in : Bool)
    (vars : EdgeLoop) (edge : Edge) : EdgeLoop :=
  let target := edge.to_node
  if target ∈ vars.seen then vars
  else
    let vars := { vars with seen := insert target vars.seen }
    if is_fan_out_running s target ∨ target ∈ s.running_set then vars
    else if target ∈ s.completed then
      { vars with ready := vars.ready ++ [⟨target, fan_out_items outputs edge from_fan_in, true⟩] }
    else if target ∉ s.failed ∧ is_node_ready ctx s vars.counts target then
      { vars with ready := vars.ready ++ [⟨target, fan_out_items outputs edge from_fan_in, false⟩] }
    else vars

/-- One pass of the loop: evaluate an edge, count and record it, and visit its
target when it is passed. -/
def evaluate_edge (ctx : RunContext) (s : RunState) (outputs : Value) (from_fan_in : Bool)
    (vars : EdgeLoop) (edge : Edge) : EdgeLoop :=
  let result := evaluate_edge_condition ctx edge outputs
  let within_limit := decide (vars.counts edge.id < ctx.max_traversals)
  let passed := result && within_limit
  let event := WriteEvent.EdgeEvaluated 0 ctx.run_id edge.id (edge.condition.map EdgeCondition.expression)
    passed outputs
  if passed then
    visit_target ctx s outputs from_fan_in { vars with
      counts := Function.update vars.counts edge.id (vars.counts edge.id + 1)
      log := vars.log ++ [event] } edge
  else { vars with log := vars.log ++ [event] }

/-- Evaluate the outgoing edges of a completed node and find the nodes that are
ready to be spawned. -/
def evaluate_edges_and_find_ready (ctx : RunContext) (completed_node : String) (outputs : Value)
    (s : RunState) (from_fan_in : Bool) : RunState × List ReadyNode :=
  let vars := (build_outgoing_edges ctx.graph completed_node).foldl
    (evaluate_edge ctx s outputs from_fan_in)
    { ready := [], seen := ∅, counts := s.edge_traversal_counts, log := s.log }
  ({ s with edge_traversal_counts := vars.counts, log := vars.log }, vars.ready)

/-- The targets of a failed node's edges that can still proceed: not started, all
sources done, and one of them completed. -/
def find_ready_after_failure (ctx : RunContext) (s : RunState) (failed_node : String) : List String :=
  ((build_outgoing_edges ctx.graph failed_node).filter fun edge =>
    let target := edge.to_node
    if target ∈ s.completed ∨ target ∈ s.failed ∨ target ∈ s.running_set then false
    else
      let target_incoming := build_incoming_edges ctx.graph target
      let all_sources_done := target_incoming.all fun e =>
        decide (e.from_node ∈ s.completed) || decide (e.from_node ∈ s.failed)
      let has_completed_source := target_incoming.any fun e => decide (e.from_node ∈ s.completed)
      all_sources_done && has_completed_source).map Edge.to_node

/-- Every node of the graph has completed or failed. -/
def all_reachable_done (ctx : RunContext) (s : RunState) : Bool :=
  (ctx.graph.nodes.map NodeInstance.instance_id).all fun node =>
    decide (node ∈ s.completed) || decide (node ∈ s.failed)

end flow_engine.executor
