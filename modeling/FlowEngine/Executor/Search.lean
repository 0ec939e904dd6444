import FlowEngine.Executor.BackEdges
import FlowEngine.Lib.DepthFirst

namespace flow_engine.executor

/-- The nodes from which the search is started. -/
def search_roots (graph : GraphDef) : List String :=
  if (start_nodes graph).isEmpty then graph.nodes.map NodeInstance.instance_id else start_nodes graph

/-- The outgoing edges of a node by their ids and targets. -/
def labelled_edges (graph : GraphDef) (node : String) : List (String × String) :=
  (build_outgoing_edges graph node).map fun edge => (edge.id, edge.to_node)

/-- Some edge other than the back-edges leads from `u` to `v`. -/
def KeptEdge (graph : GraphDef) (u v : String) : Prop :=
  ∃ edge ∈ graph.edges, edge.id ∉ find_back_edges graph ∧ edge.from_node = u ∧ edge.to_node = v

/-- The search explores what the nodes without incoming edges reach, or all nodes when every
node has one. -/
def Explored (graph : GraphDef) (node : String) : Prop :=
  node ∈ graph.nodes.map NodeInstance.instance_id ∧
    (start_nodes graph = [] ∨ ∃ start ∈ start_nodes graph, Relation.ReflTransGen (GraphEdge graph) start node)

def BackEdgeSearch.to_search (search : BackEdgeSearch) : depth_first.Search String String :=
  ⟨search.visited, search.in_stack, search.back_edges⟩

variable {graph : GraphDef}

theorem mem_labelled_edges {node id target : String} : (id, target) ∈ labelled_edges graph node ↔
    ∃ edge ∈ graph.edges, edge.id = id ∧ edge.from_node = node ∧ edge.to_node = target := by
  rw [labelled_edges, List.mem_map]
  constructor
  · rintro ⟨edge, hedge, heq⟩
    obtain ⟨hmem, hfrom⟩ := mem_build_outgoing_edges.mp hedge
    obtain ⟨hid, hto⟩ := Prod.mk.inj heq
    exact ⟨edge, hmem, hid, hfrom, hto⟩
  · rintro ⟨edge, hmem, rfl, hfrom, rfl⟩
    exact ⟨edge, mem_build_outgoing_edges.mpr ⟨hmem, hfrom⟩, rfl⟩

theorem edge_iff {u v : String} : depth_first.Edge (labelled_edges graph) u v ↔ GraphEdge graph u v := by
  constructor
  · rintro ⟨id, hmem⟩
    obtain ⟨edge, hedge, _, hfrom, hto⟩ := mem_labelled_edges.mp hmem
    exact ⟨edge, hedge, hfrom, hto⟩
  · rintro ⟨edge, hedge, hfrom, hto⟩
    exact ⟨edge.id, mem_labelled_edges.mpr ⟨edge, hedge, rfl, hfrom, hto⟩⟩

/-- The search of the code is the depth-first search of the labelled graph. -/
theorem to_search_dfs_back_edges (fuel : Nat) (node : String) (search : BackEdgeSearch) :
    (dfs_back_edges (build_outgoing_edges graph) fuel node search).to_search =
      depth_first.visit (labelled_edges graph) fuel node search.to_search := by
  induction fuel generalizing node search with
  | zero => rfl
  | succ fuel ih =>
    have hloop : ∀ (edges : List Edge) (search : BackEdgeSearch), (edges.foldl (fun search edge =>
          if edge.to_node ∈ search.in_stack then { search with back_edges := insert edge.id search.back_edges }
          else if edge.to_node ∉ search.visited then
            dfs_back_edges (build_outgoing_edges graph) fuel edge.to_node search
          else search) search).to_search =
        (edges.map fun edge => (edge.id, edge.to_node)).foldl
          (depth_first.follow (depth_first.visit (labelled_edges graph) fuel)) search.to_search := by
      intro edges
      induction edges with
      | nil => exact fun _ => rfl
      | cons edge rest ih_rest =>
        intro search
        rw [List.foldl_cons, List.map_cons, List.foldl_cons, ih_rest]
        congr 1
        rw [depth_first.follow]
        by_cases hstack : edge.to_node ∈ search.in_stack
        · rw [if_pos hstack]
          exact (if_pos hstack).symm
        rw [if_neg hstack]
        refine Eq.trans ?_ (if_neg hstack).symm
        by_cases hvisited : edge.to_node ∉ search.visited
        · rw [if_pos hvisited, ih]
          exact (if_pos hvisited).symm
        · rw [if_neg hvisited]
          exact (if_neg hvisited).symm
    rw [dfs_back_edges, depth_first.visit]
    by_cases hvisited : node ∈ search.visited
    · rw [if_pos hvisited]
      exact (if_pos hvisited).symm
    · rw [if_neg hvisited]
      refine Eq.trans ?_ (if_neg hvisited).symm
      exact congrArg (depth_first.leave node) (hloop (build_outgoing_edges graph node) _)

theorem find_back_edges_eq_back : find_back_edges graph =
    (depth_first.visit_all (labelled_edges graph) (graph.edges.length + 1) (search_roots graph)).back := by
  have hroots : ∀ (roots : List String) (search : BackEdgeSearch), (roots.foldl (fun search node =>
        dfs_back_edges (build_outgoing_edges graph) (graph.edges.length + 1) node search) search).to_search =
      roots.foldl (fun search node => depth_first.visit (labelled_edges graph) (graph.edges.length + 1) node search)
        search.to_search := by
    intro roots
    induction roots with
    | nil => exact fun _ => rfl
    | cons node rest ih =>
      intro search
      rw [List.foldl_cons, List.foldl_cons, ih, to_search_dfs_back_edges]
  exact congrArg depth_first.Search.back (hroots (search_roots graph) ⟨∅, ∅, ∅⟩)

theorem forward_iff_kept {u v : String} : depth_first.Forward (labelled_edges graph) (find_back_edges graph) u v ↔
    KeptEdge graph u v := by
  constructor
  · rintro ⟨id, hmem, hnot⟩
    obtain ⟨edge, hedge, rfl, hfrom, hto⟩ := mem_labelled_edges.mp hmem
    exact ⟨edge, hedge, hnot, hfrom, hto⟩
  · rintro ⟨edge, hedge, hnot, hfrom, hto⟩
    exact ⟨edge.id, mem_labelled_edges.mpr ⟨edge, hedge, rfl, hfrom, hto⟩, hnot⟩

/-- Unique ids label the edges. -/
theorem labelled (hids : (graph.edges.map Edge.id).Nodup) : depth_first.Labelled (labelled_edges graph) := by
  constructor
  · intro id u u' v v' hmem hmem'
    obtain ⟨edge, hedge, hid, hfrom, _⟩ := mem_labelled_edges.mp hmem
    obtain ⟨edge', hedge', hid', hfrom', _⟩ := mem_labelled_edges.mp hmem'
    rw [← hfrom, ← hfrom', List.inj_on_of_nodup_map hids hedge hedge' (hid.trans hid'.symm)]
  · intro u
    have hmap : (labelled_edges graph u).map Prod.fst = (graph.edges.filter fun edge => edge.from_node = u).map Edge.id := by
      rw [labelled_edges, List.map_map, build_outgoing_edges, file_edges_apply]
      rfl
    rw [hmap]
    exact hids.sublist (List.filter_sublist.map Edge.id)

theorem bounds : depth_first.Bounds (labelled_edges graph) (unvisited_edges graph) := by
  constructor
  · exact fun hle => unvisited_edges_mono graph hle
  · intro u v id visited hmem hnot
    obtain ⟨edge, hedge, _, _, rfl⟩ := mem_labelled_edges.mp hmem
    exact unvisited_edges_insert_lt graph hedge hnot

theorem searched (hids : (graph.edges.map Edge.id).Nodup) : depth_first.Searched (labelled_edges graph) (search_roots graph)
    (depth_first.visit_all (labelled_edges graph) (graph.edges.length + 1) (search_roots graph)) :=
  depth_first.visit_all_searched (labelled hids) bounds (fun _ => Nat.lt_succ_of_le List.countP_le_length) _

theorem mem_start_nodes {node : String} : node ∈ start_nodes graph ↔
    node ∈ graph.nodes.map NodeInstance.instance_id ∧ ∀ edge ∈ graph.edges, edge.to_node ≠ node := by
  simp [start_nodes]

theorem mem_find_entry_nodes {node : String} : node ∈ find_entry_nodes graph (find_back_edges graph) ↔
    node ∈ graph.nodes.map NodeInstance.instance_id ∧ ∀ source, ¬ KeptEdge graph source node := by
  simp only [find_entry_nodes, List.mem_filter, decide_eq_true_eq, List.mem_map, not_exists, not_and]
  refine and_congr_right fun _ => ⟨?_, ?_⟩
  · rintro hnone source ⟨edge, hedge, hkept, _, hto⟩
    exact hnone edge ⟨hedge, hkept⟩ hto
  · rintro hnone edge ⟨hedge, hkept⟩ hto
    exact hnone edge.from_node ⟨edge, hedge, hkept, rfl, hto⟩

/-- A node with an incoming edge less is a node without incoming edges. -/
theorem start_nodes_subset {node : String} (h : node ∈ start_nodes graph) :
    node ∈ find_entry_nodes graph (find_back_edges graph) := by
  obtain ⟨hnode, hnone⟩ := mem_start_nodes.mp h
  refine mem_find_entry_nodes.mpr ⟨hnode, ?_⟩
  rintro source ⟨edge, hedge, _, _, hto⟩
  exact hnone edge hedge hto

section Endpoints

variable (hto : ∀ edge ∈ graph.edges, edge.to_node ∈ graph.nodes.map NodeInstance.instance_id)
include hto

/-- What the roots reach is what is explored. -/
theorem explored_iff {node : String} : Explored graph node ↔
    ∃ root ∈ search_roots graph, Relation.ReflTransGen (depth_first.Edge (labelled_edges graph)) root node := by
  have hreach : ∀ root, Relation.ReflTransGen (depth_first.Edge (labelled_edges graph)) root node ↔
      Relation.ReflTransGen (GraphEdge graph) root node := by
    intro root
    have hsame : depth_first.Edge (labelled_edges graph) = GraphEdge graph := by
      funext u v
      exact propext edge_iff
    rw [hsame]
  have hnode : ∀ root ∈ graph.nodes.map NodeInstance.instance_id, Relation.ReflTransGen (GraphEdge graph) root node →
      node ∈ graph.nodes.map NodeInstance.instance_id := by
    intro root hroot hpath
    cases Relation.ReflTransGen.cases_tail hpath with
    | inl heq => exact heq ▸ hroot
    | inr hlast =>
      obtain ⟨_, _, edge, hedge, _, rfl⟩ := hlast
      exact hto edge hedge
  simp only [hreach, Explored]
  cases hstart : start_nodes graph with
  | nil =>
    rw [search_roots, hstart]
    exact ⟨fun h => ⟨node, h.1, .refl⟩, fun ⟨root, hroot, hpath⟩ => ⟨hnode root hroot hpath, Or.inl rfl⟩⟩
  | cons start rest =>
    rw [search_roots, hstart]
    constructor
    · rintro ⟨_, hnil | hreached⟩
      · cases hnil
      · exact hreached
    · rintro ⟨root, hroot, hpath⟩
      have hmem : root ∈ start_nodes graph := hstart ▸ hroot
      exact ⟨hnode root (mem_start_nodes.mp hmem).1 hpath, Or.inr ⟨root, hroot, hpath⟩⟩

variable (hids : (graph.edges.map Edge.id).Nodup)
include hids

theorem mem_visited_iff_explored {node : String} :
    node ∈ (depth_first.visit_all (labelled_edges graph) (graph.edges.length + 1) (search_roots graph)).visited ↔
      Explored graph node :=
  (searched hids).mem_visited_iff.trans (explored_iff hto).symm

/-- Without the back-edges no explored node is on a cycle. -/
theorem explored_acyclic {node : String} (hexplored : Explored graph node) :
    ¬ Relation.TransGen (KeptEdge graph) node node := by
  have hsearched := searched hids
  have hfinished := hsearched.finished ((mem_visited_iff_explored hto hids).mpr hexplored)
  have hacyclic := hsearched.sound.acyclic hfinished
  rw [← find_back_edges_eq_back] at hacyclic
  intro hcycle
  exact hacyclic (Relation.TransGen.mono (fun _ _ hkept => forward_iff_kept.mpr hkept) node node hcycle)

end Endpoints

/-- What the search for back-edges promises: without them the explored part of the graph has
no cycles, each closes one, and all that is explored is reached from the entry nodes without them. -/
structure BackEdgesCorrect (graph : GraphDef) : Prop where
  acyclic : digraph.Acyclic fun u v => Explored graph u ∧ Explored graph v ∧ KeptEdge graph u v
  of_edges : ∀ id ∈ find_back_edges graph, ∃ edge ∈ graph.edges, edge.id = id
  on_cycle : ∀ edge ∈ graph.edges, edge.id ∈ find_back_edges graph →
    Relation.ReflTransGen (GraphEdge graph) edge.to_node edge.from_node
  none_if_acyclic : digraph.Acyclic (GraphEdge graph) → find_back_edges graph = ∅
  reached : ∀ node, Explored graph node →
    ∃ entry ∈ find_entry_nodes graph (find_back_edges graph), Relation.ReflTransGen (KeptEdge graph) entry node
  entries : find_entry_nodes graph (find_back_edges graph) ≠ []

/-- Every explored node is reached from an entry node. With start nodes these are where the
search began; without, the graph of the other edges is acyclic and has a first node. -/
theorem reached_from_entry (hids : (graph.edges.map Edge.id).Nodup)
    (hfrom : ∀ edge ∈ graph.edges, edge.from_node ∈ graph.nodes.map NodeInstance.instance_id)
    (hto : ∀ edge ∈ graph.edges, edge.to_node ∈ graph.nodes.map NodeInstance.instance_id)
    {node : String} (hexplored : Explored graph node) :
    ∃ entry ∈ find_entry_nodes graph (find_back_edges graph), Relation.ReflTransGen (KeptEdge graph) entry node := by
  by_cases hstart : start_nodes graph = []
  · have hall : ∀ v, v ∈ graph.nodes.map NodeInstance.instance_id → Explored graph v := fun v hv => ⟨hv, Or.inl hstart⟩
    have hacyclic : digraph.Acyclic (KeptEdge graph) := by
      intro v hcycle
      obtain ⟨w, ⟨edge, hedge, _, rfl, _⟩, _⟩ := Relation.TransGen.head'_iff.mp hcycle
      exact explored_acyclic hto hids (hall _ (hfrom edge hedge)) hcycle
    have hwf := hacyclic.wellFounded (List.finite_toSet (graph.nodes.map NodeInstance.instance_id)) (by
      rintro u v ⟨edge, hedge, _, rfl, _⟩
      exact hfrom edge hedge)
    induction node using hwf.induction with
    | _ node ih =>
      by_cases hentry : ∀ source, ¬ KeptEdge graph source node
      · exact ⟨node, mem_find_entry_nodes.mpr ⟨hexplored.1, hentry⟩, .refl⟩
      · obtain ⟨source, hkept⟩ := not_forall_not.mp hentry
        have hsource : source ∈ graph.nodes.map NodeInstance.instance_id := by
          obtain ⟨edge, hedge, _, rfl, _⟩ := hkept
          exact hfrom edge hedge
        obtain ⟨entry, hmem, hpath⟩ := ih source hkept (hall source hsource)
        exact ⟨entry, hmem, hpath.tail hkept⟩
  · obtain ⟨root, hroot, hpath⟩ := (searched hids).reached node ((mem_visited_iff_explored hto hids).mpr hexplored)
    rw [search_roots, if_neg (by simpa using hstart)] at hroot
    refine ⟨root, start_nodes_subset hroot, Relation.ReflTransGen.mono ?_ _ _ hpath⟩
    rintro u v ⟨_, hforward⟩
    rw [← find_back_edges_eq_back] at hforward
    exact forward_iff_kept.mp hforward

theorem back_edges_correct (hnodes : graph.nodes ≠ []) (hids : (graph.edges.map Edge.id).Nodup)
    (hfrom : ∀ edge ∈ graph.edges, edge.from_node ∈ graph.nodes.map NodeInstance.instance_id)
    (hto : ∀ edge ∈ graph.edges, edge.to_node ∈ graph.nodes.map NodeInstance.instance_id) :
    BackEdgesCorrect graph := by
  have hsound := (searched hids).sound
  have hcycles := hsound.cycles
  rw [← find_back_edges_eq_back] at hcycles
  have hreached : ∀ node, Explored graph node → ∃ entry ∈ find_entry_nodes graph (find_back_edges graph),
      Relation.ReflTransGen (KeptEdge graph) entry node := fun node => reached_from_entry hids hfrom hto
  refine ⟨?_, ?_, ?_, fun hacyclic => find_back_edges_eq_empty hacyclic, hreached, ?_⟩
  · intro v hcycle
    obtain ⟨w, ⟨hexplored, _, _⟩, _⟩ := Relation.TransGen.head'_iff.mp hcycle
    exact explored_acyclic hto hids hexplored (Relation.TransGen.mono (fun _ _ hinduced => hinduced.2.2) v v hcycle)
  · intro id hid
    obtain ⟨u, v, hmem, _⟩ := hcycles id hid
    obtain ⟨edge, hedge, heq, _⟩ := mem_labelled_edges.mp hmem
    exact ⟨edge, hedge, heq⟩
  · intro edge hedge hback
    obtain ⟨u, v, hmem, _, hpath⟩ := hcycles edge.id hback
    obtain ⟨other, hother, heq, rfl, rfl⟩ := mem_labelled_edges.mp hmem
    rw [← List.inj_on_of_nodup_map hids hother hedge heq]
    exact Relation.ReflTransGen.mono (fun _ _ hstep => edge_iff.mp hstep) _ _ hpath
  · by_cases hstart : start_nodes graph = []
    · obtain ⟨node, rest, hcons⟩ := List.exists_cons_of_ne_nil hnodes
      have hnode : node.instance_id ∈ graph.nodes.map NodeInstance.instance_id := by
        rw [hcons]
        exact List.mem_cons_self
      obtain ⟨entry, hentry, _⟩ := hreached node.instance_id ⟨hnode, Or.inl hstart⟩
      exact List.ne_nil_of_mem hentry
    · obtain ⟨start, hstart⟩ := List.exists_mem_of_ne_nil _ hstart
      exact List.ne_nil_of_mem (start_nodes_subset hstart)

/-- A loop of two nodes behind an entry node. -/
def two_node_loop : GraphDef :=
  (sample_context ["S", "A", "B"]
    [sample_edge "in" "S" "A" none, sample_edge "on" "A" "B" none, sample_edge "back" "B" "A" none] 1).graph

theorem back_edges_correct_two_node_loop : two_node_loop.nodes ≠ [] ∧ BackEdgesCorrect two_node_loop :=
  ⟨by decide, back_edges_correct (by decide) (by decide) (by decide) (by decide)⟩

end flow_engine.executor
