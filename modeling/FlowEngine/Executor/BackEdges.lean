import FlowEngine.Executor.Runs
import FlowEngine.Lib.Digraph

namespace flow_engine.executor

/-- Some edge leads from `u` to `v`. -/
def GraphEdge (graph : GraphDef) (u v : String) : Prop :=
  ∃ edge ∈ graph.edges, edge.from_node = u ∧ edge.to_node = v

/-- What the search keeps on an acyclic graph: it has found no back-edge, and only
visited nodes are on the stack. -/
structure CleanSearch (search : BackEdgeSearch) : Prop where
  no_back_edges : search.back_edges = ∅
  in_stack_visited : search.in_stack ⊆ search.visited

section Search

variable {graph : GraphDef} (hacyclic : digraph.Acyclic (GraphEdge graph))
include hacyclic

/-- From a stack whose nodes all reach `node`, the search from `node` finds no
back-edge: an edge to the stack would close a cycle. The stack is restored. -/
theorem dfs_back_edges_clean (fuel : Nat) (node : String) (search : BackEdgeSearch) (hclean : CleanSearch search)
    (hreach : ∀ m ∈ search.in_stack, Relation.TransGen (GraphEdge graph) m node) :
    CleanSearch (dfs_back_edges (build_outgoing_edges graph) fuel node search) ∧
      (dfs_back_edges (build_outgoing_edges graph) fuel node search).in_stack = search.in_stack := by
  induction fuel generalizing node search with
  | zero => exact ⟨hclean, rfl⟩
  | succ fuel ih =>
    rw [dfs_back_edges]
    by_cases hvisited : node ∈ search.visited
    · rw [if_pos hvisited]
      exact ⟨hclean, rfl⟩
    · rw [if_neg hvisited]
      have hoff_stack : node ∉ search.in_stack := fun hmem => hvisited (hclean.in_stack_visited hmem)
      have hloop : ∀ (edges : List Edge) (current : BackEdgeSearch),
          (∀ edge ∈ edges, GraphEdge graph node edge.to_node) → CleanSearch current →
          current.in_stack = insert node search.in_stack →
          let explored := edges.foldl (fun search edge =>
            if edge.to_node ∈ search.in_stack then
              { search with back_edges := insert edge.id search.back_edges }
            else if edge.to_node ∉ search.visited then
              dfs_back_edges (build_outgoing_edges graph) fuel edge.to_node search
            else search) current
          CleanSearch explored ∧ explored.in_stack = insert node search.in_stack := by
        intro edges
        induction edges with
        | nil => exact fun current _ hcurrent hstack => ⟨hcurrent, hstack⟩
        | cons edge rest ih_edges =>
          intro current hedges hcurrent hstack
          have hedge := hedges edge (List.mem_cons_self ..)
          have hrest : ∀ e ∈ rest, GraphEdge graph node e.to_node := fun e he =>
            hedges e (List.mem_cons_of_mem _ he)
          have hoff : edge.to_node ∉ current.in_stack := by
            rw [hstack, Finset.mem_insert]
            rintro (heq | hmem)
            · exact hacyclic node (.single (heq ▸ hedge))
            · exact hacyclic node (.head hedge (hreach _ hmem))
          have hto : ∀ m ∈ current.in_stack, Relation.TransGen (GraphEdge graph) m edge.to_node := by
            intro m hm
            rw [hstack, Finset.mem_insert] at hm
            cases hm with
            | inl heq => exact heq ▸ .single hedge
            | inr hmem => exact (hreach m hmem).tail hedge
          rw [List.foldl_cons, if_neg hoff]
          by_cases hunvisited : edge.to_node ∉ current.visited
          · rw [if_pos hunvisited]
            obtain ⟨hnext, hsame⟩ := ih edge.to_node current hcurrent hto
            exact ih_edges _ hrest hnext (hsame.trans hstack)
          · rw [if_neg hunvisited]
            exact ih_edges _ hrest hcurrent hstack
      have hedges : ∀ edge ∈ build_outgoing_edges graph node, GraphEdge graph node edge.to_node := by
        intro edge hedge
        obtain ⟨hmem, hfrom⟩ := mem_build_outgoing_edges.mp hedge
        exact ⟨edge, hmem, hfrom, rfl⟩
      obtain ⟨hexplored, hstack⟩ := hloop (build_outgoing_edges graph node)
        { search with visited := insert node search.visited, in_stack := insert node search.in_stack }
        hedges ⟨hclean.no_back_edges, Finset.insert_subset_insert _ hclean.in_stack_visited⟩ rfl
      constructor
      · exact ⟨hexplored.no_back_edges, (Finset.erase_subset _ _).trans hexplored.in_stack_visited⟩
      · dsimp only at hstack ⊢
        rw [hstack, Finset.erase_insert hoff_stack]

/-- An acyclic graph has no back-edges. -/
theorem find_back_edges_eq_empty : find_back_edges graph = ∅ := by
  have hroots : ∀ (roots : List String) (search : BackEdgeSearch), CleanSearch search → search.in_stack = ∅ →
      CleanSearch (roots.foldl (fun search node =>
        dfs_back_edges (build_outgoing_edges graph) (graph.edges.length + 1) node search) search) := by
    intro roots
    induction roots with
    | nil => exact fun _ hclean _ => hclean
    | cons node rest ih =>
      intro search hclean hstack
      obtain ⟨hnext, hsame⟩ := dfs_back_edges_clean hacyclic (graph.edges.length + 1) node search hclean
        (by simp [hstack])
      exact ih _ hnext (hsame.trans hstack)
  unfold find_back_edges
  exact (hroots _ _ ⟨rfl, Finset.Subset.refl _⟩ rfl).no_back_edges

/-- The entry nodes of an acyclic graph are its nodes without incoming edges. -/
theorem mem_entry_nodes_of_acyclic {ctx : RunContext} (hgraph : ctx.graph = graph) {node_id : String} :
    node_id ∈ entry_nodes ctx ↔ node_id ∈ ctx.graph.nodes.map NodeInstance.instance_id ∧
      ∀ edge ∈ ctx.graph.edges, edge.to_node ≠ node_id := by
  rw [mem_entry_nodes, hgraph, find_back_edges_eq_empty hacyclic]
  simp

end Search

section Fuel

variable (graph : GraphDef)

/-- The edges that lead to a node the search has not visited. -/
def unvisited_edges (visited : Finset String) : Nat :=
  graph.edges.countP fun edge => edge.to_node ∉ visited

theorem unvisited_edges_mono {visited visited' : Finset String} (h : visited ⊆ visited') :
    unvisited_edges graph visited' ≤ unvisited_edges graph visited := by
  apply List.countP_mono_left
  intro edge _ hnot
  simp only [decide_eq_true_eq] at hnot ⊢
  exact fun hmem => hnot (h hmem)

/-- Entering an unvisited target leaves fewer such edges. -/
theorem unvisited_edges_insert_lt {visited : Finset String} {edge : Edge} (hedge : edge ∈ graph.edges)
    (hunvisited : edge.to_node ∉ visited) :
    unvisited_edges graph (insert edge.to_node visited) < unvisited_edges graph visited := by
  unfold unvisited_edges
  obtain ⟨before, after, hsplit⟩ := List.append_of_mem hedge
  have hmono : ∀ edges : List Edge, edges.countP (fun e => e.to_node ∉ insert edge.to_node visited) ≤
      edges.countP fun e => e.to_node ∉ visited := by
    intro edges
    apply List.countP_mono_left
    intro e _ hnot
    simp only [decide_eq_true_eq] at hnot ⊢
    exact fun hmem => hnot (Finset.mem_insert_of_mem hmem)
  have hbefore := hmono before
  have hafter := hmono after
  rw [hsplit, List.countP_append, List.countP_append, List.countP_cons, List.countP_cons]
  simp only [Finset.mem_insert_self, not_true_eq_false, decide_false, Bool.false_eq_true, if_false,
    hunvisited, not_false_eq_true, decide_true, if_true]
  omega

theorem visited_subset_dfs_back_edges (outgoing : String → List Edge) (fuel : Nat) (node : String)
    (search : BackEdgeSearch) : search.visited ⊆ (dfs_back_edges outgoing fuel node search).visited := by
  induction fuel generalizing node search with
  | zero => exact Finset.Subset.refl _
  | succ fuel ih =>
    rw [dfs_back_edges]
    by_cases hvisited : node ∈ search.visited
    · rw [if_pos hvisited]
    · rw [if_neg hvisited]
      have hloop : ∀ (edges : List Edge) (current : BackEdgeSearch), current.visited ⊆
          (edges.foldl (fun search edge =>
            if edge.to_node ∈ search.in_stack then
              { search with back_edges := insert edge.id search.back_edges }
            else if edge.to_node ∉ search.visited then dfs_back_edges outgoing fuel edge.to_node search
            else search) current).visited := by
        intro edges
        induction edges with
        | nil => exact fun _ => Finset.Subset.refl _
        | cons edge rest ih_edges =>
          intro current
          rw [List.foldl_cons]
          refine Finset.Subset.trans ?_ (ih_edges _)
          split
          · exact Finset.Subset.refl _
          · split
            · exact ih edge.to_node current
            · exact Finset.Subset.refl _
      dsimp only
      exact (Finset.subset_insert _ _).trans (hloop (outgoing node)
        { search with visited := insert node search.visited, in_stack := insert node search.in_stack })

/-- The fuel of the search is enough: more of it changes nothing. -/
theorem dfs_back_edges_fuel (fuel : Nat) (node : String) (search : BackEdgeSearch)
    (hfuel : unvisited_edges graph (insert node search.visited) < fuel) :
    dfs_back_edges (build_outgoing_edges graph) (fuel + 1) node search =
      dfs_back_edges (build_outgoing_edges graph) fuel node search := by
  induction fuel generalizing node search with
  | zero => exact absurd hfuel (Nat.not_lt_zero _)
  | succ fuel ih =>
    rw [dfs_back_edges, dfs_back_edges]
    by_cases hvisited : node ∈ search.visited
    · rw [if_pos hvisited, if_pos hvisited]
    · rw [if_neg hvisited, if_neg hvisited]
      have hloop : ∀ (edges : List Edge) (current : BackEdgeSearch), (∀ edge ∈ edges, edge ∈ graph.edges) →
          insert node search.visited ⊆ current.visited →
          edges.foldl (fun search edge =>
            if edge.to_node ∈ search.in_stack then
              { search with back_edges := insert edge.id search.back_edges }
            else if edge.to_node ∉ search.visited then
              dfs_back_edges (build_outgoing_edges graph) (fuel + 1) edge.to_node search
            else search) current =
          edges.foldl (fun search edge =>
            if edge.to_node ∈ search.in_stack then
              { search with back_edges := insert edge.id search.back_edges }
            else if edge.to_node ∉ search.visited then
              dfs_back_edges (build_outgoing_edges graph) fuel edge.to_node search
            else search) current := by
        intro edges
        induction edges with
        | nil => exact fun _ _ _ => rfl
        | cons edge rest ih_edges =>
          intro current hedges hsub
          have hrest : ∀ e ∈ rest, e ∈ graph.edges := fun e he => hedges e (List.mem_cons_of_mem _ he)
          rw [List.foldl_cons, List.foldl_cons]
          by_cases hstack : edge.to_node ∈ current.in_stack
          · rw [if_pos hstack, if_pos hstack]
            exact ih_edges _ hrest hsub
          · rw [if_neg hstack, if_neg hstack]
            by_cases hunvisited : edge.to_node ∉ current.visited
            · have hless : unvisited_edges graph (insert edge.to_node current.visited) < fuel := by
                have hlt := unvisited_edges_insert_lt graph (hedges edge (List.mem_cons_self ..)) hunvisited
                have hle := unvisited_edges_mono graph hsub
                omega
              rw [if_pos hunvisited, if_pos hunvisited, ih edge.to_node current hless]
              exact ih_edges _ hrest (hsub.trans (visited_subset_dfs_back_edges _ _ _ _))
            · rw [if_neg hunvisited, if_neg hunvisited]
              exact ih_edges _ hrest hsub
      dsimp only
      rw [hloop _ _ (fun edge hedge => (mem_build_outgoing_edges.mp hedge).1) (Finset.Subset.refl _)]

/-- The searches of `find_back_edges` never run out of fuel. -/
theorem find_back_edges_fuel (extra : Nat) (node : String) (search : BackEdgeSearch) :
    dfs_back_edges (build_outgoing_edges graph) (graph.edges.length + 1 + extra) node search =
      dfs_back_edges (build_outgoing_edges graph) (graph.edges.length + 1) node search := by
  induction extra with
  | zero => rfl
  | succ extra ih =>
    have hle : unvisited_edges graph (insert node search.visited) ≤ graph.edges.length := List.countP_le_length
    have hfuel : unvisited_edges graph (insert node search.visited) < graph.edges.length + 1 + extra := by omega
    exact (dfs_back_edges_fuel graph _ node search hfuel).trans ih

end Fuel

/-- A sample graph whose edges all lead to later nodes is acyclic. -/
theorem sample_acyclic {node_ids : List String} {edges : List Edge} (max_traversals : Nat)
    (hforward : ∀ edge ∈ edges, node_ids.idxOf edge.from_node < node_ids.idxOf edge.to_node) :
    digraph.Acyclic (GraphEdge (sample_context node_ids edges max_traversals).graph) := by
  apply digraph.Acyclic.of_rank fun n => node_ids.idxOf n
  rintro u v ⟨edge, hedge, rfl, rfl⟩
  exact hforward edge hedge

end flow_engine.executor
