import FlowEngine.Executor.BackEdges
import FlowEngine.Lib.Dataflow.Confluence

namespace flow_engine.executor

/-- How a node ended: it failed, or it is done with an output that may be a fan-in. -/
inductive NodeEnd where
  | failed
  | done (outputs : Value) (from_fan_in : Bool)

/-- The output a node ended with. -/
def NodeEnd.output : NodeEnd → Option Value
  | .failed => none
  | .done outputs _ => some outputs

/-- The sources of a node's incoming edges. -/
def sources (ctx : RunContext) (node_id : String) : List String :=
  (build_incoming_edges ctx.graph node_id).map Edge.from_node

theorem mem_sources {ctx : RunContext} {u v : String} : u ∈ sources ctx v ↔ GraphEdge ctx.graph u v := by
  simp only [sources, List.mem_map, mem_build_incoming_edges, GraphEdge]
  constructor
  · rintro ⟨edge, ⟨hedge, hto⟩, hfrom⟩
    exact ⟨edge, hedge, hfrom, hto⟩
  · rintro ⟨edge, hedge, hfrom, hto⟩
    exact ⟨edge, ⟨hedge, hto⟩, hfrom⟩

theorem sources_eq_nil_iff {ctx : RunContext} {v : String} :
    sources ctx v = [] ↔ ∀ edge ∈ ctx.graph.edges, edge.to_node ≠ v := by
  rw [List.eq_nil_iff_forall_not_mem]
  constructor
  · intro h edge hedge hto
    exact h edge.from_node (mem_sources.mpr ⟨edge, hedge, rfl, hto⟩)
  · intro h u hu
    obtain ⟨edge, hedge, _, hto⟩ := mem_sources.mp hu
    exact h edge hedge hto

/-- The outputs of nodes that ended in the given ways; a node that is not done still
shows its seed. -/
def end_outputs (ctx : RunContext) (found : String → Option NodeEnd) (node_id : String) : Option Value :=
  match found node_id with
  | some (.done outputs _) => some outputs
  | _ => seeds ctx node_id

/-- The node is done. -/
def is_done (found : String → Option NodeEnd) (node_id : String) : Bool :=
  match found node_id with
  | some (.done _ _) => true
  | _ => false

/-- The single task of a node on the outputs of its sources. -/
def join_work (ctx : RunContext) (found : String → Option NodeEnd) (node_id : String) : Work :=
  .plain (resolve_inputs ctx.graph (end_outputs ctx found) node_id)

/-- The first edge between two nodes that the output passes. -/
def passing_edge (ctx : RunContext) (outputs : Value) (source target : String) : Option Edge :=
  (build_outgoing_edges ctx.graph source).find? fun edge =>
    decide (edge.to_node = target) && evaluate_edge_condition ctx edge outputs && decide (0 < ctx.max_traversals)

/-- The work a node gets when `x` is the last of its sources to end. A failed source
leaves a single task if another one is done; a done source decides by its first edge
that is passed. -/
def wake (ctx : RunContext) (found : String → Option NodeEnd) (x v : String) : Option Work :=
  match found x with
  | none => none
  | some .failed => if (sources ctx v).any (is_done found) then some (join_work ctx found v) else none
  | some (.done outputs from_fan_in) =>
    match passing_edge ctx outputs x v with
    | none => none
    | some edge =>
      match fan_out_items outputs edge from_fan_in with
      | some items => some (.fan_out items)
      | none => some (join_work ctx found v)

/-- The inputs of a node depend on the outputs of its sources only. -/
theorem resolve_inputs_congr {graph : GraphDef} {outputs outputs' : String → Option Value} {node_id : String}
    (h : ∀ edge ∈ build_incoming_edges graph node_id, outputs edge.from_node = outputs' edge.from_node) :
    resolve_inputs graph outputs node_id = resolve_inputs graph outputs' node_id := by
  unfold resolve_inputs
  dsimp only
  rw [List.foldl_ext _ _ [] fun merged edge hedge => by rw [h edge hedge]]

theorem join_work_congr {ctx : RunContext} {found found' : String → Option NodeEnd} {v : String}
    (h : ∀ u ∈ sources ctx v, found u = found' u) : join_work ctx found v = join_work ctx found' v := by
  unfold join_work
  rw [resolve_inputs_congr]
  intro edge hedge
  unfold end_outputs
  rw [h edge.from_node (List.mem_map_of_mem hedge)]

theorem wake_congr {ctx : RunContext} (found found' : String → Option NodeEnd) (x v : String)
    (hx : x ∈ sources ctx v) (h : ∀ u ∈ sources ctx v, found u = found' u) :
    wake ctx found x v = wake ctx found' x v := by
  have hany : (sources ctx v).any (is_done found) = (sources ctx v).any (is_done found') := by
    rw [Bool.eq_iff_iff, List.any_eq_true, List.any_eq_true]
    apply exists_congr
    intro u
    apply and_congr_right
    intro hu
    unfold is_done
    rw [h u hu]
  unfold wake
  rw [h x hx, hany, join_work_congr h]

/-- The flow graph as a network of waiting nodes. -/
def net (ctx : RunContext) : dataflow.Net String Work NodeEnd where
  sources := sources ctx
  root v := if v ∈ ctx.graph.nodes.map NodeInstance.instance_id then some (.plain ctx.inputs) else none
  wake := wake ctx
  wake_congr := wake_congr

theorem net_wake (ctx : RunContext) : (net ctx).wake = wake ctx := rfl

theorem source_iff {ctx : RunContext} {u v : String} :
    dataflow.Source (net ctx) u v ↔ GraphEdge ctx.graph u v :=
  mem_sources

/-- Waiting for sources is well founded on an acyclic graph. -/
theorem source_wellFounded {ctx : RunContext} (hacyclic : digraph.Acyclic (GraphEdge ctx.graph)) :
    WellFounded (dataflow.Source (net ctx)) := by
  have hsame : dataflow.Source (net ctx) = GraphEdge ctx.graph := by
    funext u v
    exact propext source_iff
  rw [hsame]
  apply hacyclic.wellFounded (List.finite_toSet (ctx.graph.edges.map Edge.from_node))
  rintro u v ⟨edge, hedge, hfrom, _⟩
  exact hfrom ▸ List.mem_map_of_mem hedge

/-- The ends nodes can come to with their works. -/
abbrev WorkEnds := String → Work → NodeEnd → Prop

/-- The outcomes a node's tasks can have on their inputs. -/
abbrev Handlers := String → Value → NodeOutcome → Prop

/-- The ends a node can come to with a work: those its task has, or the fan-in of its
instances. -/
inductive Ends (may : Handlers) (node_id : String) : Work → NodeEnd → Prop
  | plain_done {inputs outputs : Value} (hmay : may node_id inputs (.Success outputs)) :
      Ends may node_id (.plain inputs) (.done outputs false)
  | plain_failed {inputs : Value} {error : String} (hmay : may node_id inputs (.Failed error)) :
      Ends may node_id (.plain inputs) .failed
  | fan_in {items : List Value} {outcome : Nat → NodeOutcome}
      (hmay : ∀ i item, items[i]? = some item → may node_id item (outcome i)) :
      Ends may node_id (.fan_out items)
        (.done (.array ((List.range items.length).map fun i => fan_out_result i (outcome i))) true)

end flow_engine.executor
