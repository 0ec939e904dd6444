import FlowEngine.Executor.Graph

namespace flow_engine.validate

/-- The validator has its own copy of the executor's back-edge search. -/
def find_back_edges (graph : GraphDef) : Finset String := executor.find_back_edges graph

/-- The entries of a list that are in `seen` or occur before them, in order. -/
def duplicates (seen : Finset String) : List String → List String
  | [] => []
  | id :: rest =>
    if id ∈ seen then id :: duplicates seen rest else duplicates (insert id seen) rest

/-- The errors of a graph, in the order in which they are pushed. -/
def validation_errors (graph : GraphDef) : List String :=
  let node_ids := graph.nodes.map NodeInstance.instance_id
  let duplicate_nodes := (duplicates ∅ node_ids).map ("Duplicate node ID: " ++ ·)
  let endpoints := graph.edges.flatMap fun edge =>
    (if edge.from_node ∈ node_ids then []
      else ["Edge " ++ edge.id ++ " references unknown source node: " ++ edge.from_node]) ++
    (if edge.to_node ∈ node_ids then []
      else ["Edge " ++ edge.id ++ " references unknown target node: " ++ edge.to_node])
  let duplicate_edges := (duplicates ∅ (graph.edges.map Edge.id)).map ("Duplicate edge ID: " ++ ·)
  let nodes_with_incoming :=
    (graph.edges.filter fun edge => edge.id ∉ find_back_edges graph).map Edge.to_node
  let entry_nodes := node_ids.filter fun id => id ∉ nodes_with_incoming
  let no_entry := if entry_nodes.isEmpty && !graph.nodes.isEmpty then
      ["No entry nodes found (all nodes have incoming edges)"] else []
  let no_nodes := if graph.nodes.isEmpty then ["Graph has no nodes"] else []
  duplicate_nodes ++ endpoints ++ duplicate_edges ++ no_entry ++ no_nodes

/-- Structural validation. -/
def validate_graph (graph : GraphDef) : Except (List String) Unit :=
  if (validation_errors graph).isEmpty then .ok () else .error (validation_errors graph)

theorem duplicates_eq_nil_iff (seen : Finset String) (ids : List String) :
    duplicates seen ids = [] ↔ ids.Nodup ∧ ∀ id ∈ ids, id ∉ seen := by
  induction ids generalizing seen with
  | nil => simp [duplicates]
  | cons id rest ih =>
    by_cases hseen : id ∈ seen
    · simp [duplicates, hseen]
    · rw [duplicates, if_neg hseen, ih]
      simp only [List.nodup_cons, List.mem_cons, forall_eq_or_imp, Finset.mem_insert, not_or]
      constructor
      · rintro ⟨hnodup, hrest⟩
        exact ⟨⟨fun hmem => (hrest id hmem).1 rfl, hnodup⟩, hseen, fun a ha => (hrest a ha).2⟩
      · rintro ⟨⟨hmem, hnodup⟩, _, hrest⟩
        exact ⟨hnodup, fun a ha => ⟨fun heq => hmem (heq ▸ ha), hrest a ha⟩⟩

/-- What an accepted graph satisfies. -/
structure Valid (graph : GraphDef) : Prop where
  node_ids_nodup : (graph.nodes.map NodeInstance.instance_id).Nodup
  edge_ids_nodup : (graph.edges.map Edge.id).Nodup
  from_node_mem : ∀ edge ∈ graph.edges, edge.from_node ∈ graph.nodes.map NodeInstance.instance_id
  to_node_mem : ∀ edge ∈ graph.edges, edge.to_node ∈ graph.nodes.map NodeInstance.instance_id
  entry_nodes_ne_nil : executor.find_entry_nodes graph (executor.find_back_edges graph) ≠ []

theorem valid_of_validate_graph {graph : GraphDef} (h : validate_graph graph = .ok ()) : Valid graph := by
  have herrors : validation_errors graph = [] := by
    unfold validate_graph at h
    by_cases hempty : (validation_errors graph).isEmpty
    · simpa using hempty
    · simp [hempty] at h
  simp only [validation_errors, List.append_eq_nil_iff, List.map_eq_nil_iff, duplicates_eq_nil_iff,
    List.flatMap_eq_nil_iff] at herrors
  obtain ⟨⟨⟨⟨⟨hnodes, _⟩, hendpoints⟩, hedges, _⟩, hentry⟩, hempty⟩ := herrors
  have hnodes_ne : graph.nodes ≠ [] := by
    intro hnil
    simp [hnil] at hempty
  refine ⟨hnodes, hedges, ?_, ?_, ?_⟩
  · intro edge hedge
    by_contra hnot
    simpa [hnot] using (hendpoints edge hedge).1
  · intro edge hedge
    by_contra hnot
    simpa [hnot] using (hendpoints edge hedge).2
  · intro hnil
    unfold executor.find_entry_nodes at hnil
    rw [find_back_edges, hnil] at hentry
    simp [hnodes_ne] at hentry

end flow_engine.validate
