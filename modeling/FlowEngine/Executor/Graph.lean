import FlowEngine.Types
import Mathlib.Data.Finset.Card
import Mathlib.Logic.Function.Basic

namespace flow_engine.executor

/-- The sets threaded through the depth-first search for back-edges. -/
structure BackEdgeSearch where
  visited : Finset String
  in_stack : Finset String
  back_edges : Finset String

/-- A map from a node to the edges filed under it, in graph order. An absent key
is an empty list: every reader of the maps treats the two alike. -/
def file_edges (key : Edge → String) (edges : List Edge) : String → List Edge :=
  edges.foldl (fun map edge => Function.update map (key edge) (map (key edge) ++ [edge])) fun _ => []

/-- The outgoing edges of each node. -/
def build_outgoing_edges (graph : GraphDef) : String → List Edge :=
  file_edges Edge.from_node graph.edges

/-- The incoming edges of each node. -/
def build_incoming_edges (graph : GraphDef) : String → List Edge :=
  file_edges Edge.to_node graph.edges

/-- Depth-first search from `node`. Every recursive call follows an edge to an
unvisited node, so one more than the number of edges bounds the depth. -/
def dfs_back_edges (outgoing : String → List Edge) : Nat → String → BackEdgeSearch → BackEdgeSearch
  | 0, _, search => search
  | fuel + 1, node, search =>
    if node ∈ search.visited then search
    else
      let entered : BackEdgeSearch := { search with
        visited := insert node search.visited
        in_stack := insert node search.in_stack }
      let explored := (outgoing node).foldl (fun search edge =>
        if edge.to_node ∈ search.in_stack then
          { search with back_edges := insert edge.id search.back_edges }
        else if edge.to_node ∉ search.visited then
          dfs_back_edges outgoing fuel edge.to_node search
        else search) entered
      { explored with in_stack := explored.in_stack.erase node }

/-- The nodes without incoming edges. -/
def start_nodes (graph : GraphDef) : List String :=
  (graph.nodes.map NodeInstance.instance_id).filter fun id =>
    id ∉ graph.edges.map Edge.to_node

/-- The back-edges of a search from the nodes without incoming edges, or from
all nodes when every node has one. -/
def find_back_edges (graph : GraphDef) : Finset String :=
  let roots := if (start_nodes graph).isEmpty then graph.nodes.map NodeInstance.instance_id
    else start_nodes graph
  (roots.foldl (fun search node =>
    dfs_back_edges (build_outgoing_edges graph) (graph.edges.length + 1) node search)
    { visited := ∅, in_stack := ∅, back_edges := ∅ }).back_edges

/-- The nodes without incoming edges other than back-edges. -/
def find_entry_nodes (graph : GraphDef) (back_edge_ids : Finset String) : List String :=
  (graph.nodes.map NodeInstance.instance_id).filter fun id =>
    id ∉ (graph.edges.filter fun edge => edge.id ∉ back_edge_ids).map Edge.to_node

/-- The value flowing through an edge: the named port of the output, or the
whole output where it has no such port. -/
def resolve_edge_value (outputs : Value) (from_port : String) : Value :=
  match outputs.get from_port with
  | some port_val => port_val
  | none => outputs

/-- The inputs of a node: the values of its incoming edges whose source has an
output, under the edges' target ports. A single port is unwrapped. -/
def resolve_inputs (graph : GraphDef) (node_outputs : String → Option Value) (node_id : String) : Value :=
  let merged := (build_incoming_edges graph node_id).foldl (fun merged edge =>
    match node_outputs edge.from_node with
    | some upstream_output =>
      Map.insert merged edge.to_port (resolve_edge_value upstream_output edge.from_port)
    | none => merged) []
  match merged with
  | [] => .object []
  | [(_, value)] => value
  | _ => .object merged

/-- The filed edges of a node are the edges with that key. -/
theorem file_edges_apply (key : Edge → String) (edges : List Edge) (node : String) :
    file_edges key edges node = edges.filter (fun edge => key edge = node) := by
  have hfold : ∀ (edges : List Edge) (map : String → List Edge),
      edges.foldl (fun map edge => Function.update map (key edge) (map (key edge) ++ [edge])) map node =
        map node ++ edges.filter (fun edge => key edge = node) := by
    intro edges
    induction edges with
    | nil => simp
    | cons edge rest ih =>
      intro map
      rw [List.foldl_cons, ih]
      by_cases hkey : key edge = node
      · subst hkey
        simp
      · simp [hkey, Function.update_of_ne (Ne.symm hkey)]
  simpa [file_edges] using hfold edges fun _ => []

@[simp] theorem mem_build_outgoing_edges {graph : GraphDef} {node : String} {edge : Edge} :
    edge ∈ build_outgoing_edges graph node ↔ edge ∈ graph.edges ∧ edge.from_node = node := by
  simp [build_outgoing_edges, file_edges_apply]

@[simp] theorem mem_build_incoming_edges {graph : GraphDef} {node : String} {edge : Edge} :
    edge ∈ build_incoming_edges graph node ↔ edge ∈ graph.edges ∧ edge.to_node = node := by
  simp [build_incoming_edges, file_edges_apply]

end flow_engine.executor
