import FlowEngine.Executor.Evaluate

namespace flow_engine.executor

/-- An edge from which a first start can come: it is not a back-edge, its source has
completed, and its condition holds on the source's output. -/
def satisfied (ctx : RunContext) (s : RunState) (edge : Edge) : Prop :=
  edge.id ∉ find_back_edges ctx.graph ∧ edge.from_node ∈ s.completed ∧
    ∃ outputs, s.node_outputs edge.from_node = some outputs ∧ evaluate_edge_condition ctx edge outputs = true

theorem is_node_ready_loop_iff {ctx : RunContext} {counts : String → Nat} (hcounts : CountsBounded ctx counts)
    (s : RunState) (edges : List Edge) (passing : Bool) :
    is_node_ready_loop ctx s counts edges passing = true ↔
      (∀ edge ∈ edges, edge.id ∉ find_back_edges ctx.graph →
        edge.from_node ∈ s.completed ∨ edge.from_node ∈ s.failed) ∧
      (passing = true ∨ ∃ edge ∈ edges, satisfied ctx s edge) := by
  induction edges generalizing passing with
  | nil => simp [is_node_ready_loop]
  | cons edge rest ih =>
    rw [is_node_ready_loop]
    by_cases hback : edge.id ∈ find_back_edges ctx.graph
    · rw [if_pos hback, ih]
      simp [hback, satisfied]
    · rw [if_neg hback]
      by_cases hdone : edge.from_node ∉ s.completed ∧ edge.from_node ∉ s.failed
      · simp [hdone, hback]
      · rw [if_neg hdone, ih]
        have hsource : edge.from_node ∈ s.completed ∨ edge.from_node ∈ s.failed := by
          by_contra hnot
          exact hdone (not_or.mp hnot)
        have hlimit : decide (counts edge.id ≤ ctx.max_traversals) = true := decide_eq_true (hcounts edge.id)
        cases houtputs : s.node_outputs edge.from_node with
        | none => simp [hback, hsource, satisfied, houtputs]
        | some outputs =>
          simp only [hlimit, Bool.and_true, Bool.or_eq_true, Bool.and_eq_true, decide_eq_true_eq,
            List.forall_mem_cons, List.exists_mem_cons_iff, hsource, hback, satisfied, houtputs,
            Option.some.injEq, exists_eq_left', not_false_eq_true, true_and, forall_const]
          rw [or_assoc]

/-- A node is ready when all sources of its forward edges are done and one of these
edges is satisfied, or when it has no incoming edge at all. -/
theorem is_node_ready_iff {ctx : RunContext} {counts : String → Nat} (hcounts : CountsBounded ctx counts)
    (s : RunState) (node_id : String) :
    is_node_ready ctx s counts node_id = true ↔
      (∀ edge ∈ ctx.graph.edges, edge.to_node ≠ node_id) ∨
      (∀ edge ∈ ctx.graph.edges, edge.to_node = node_id → edge.id ∉ find_back_edges ctx.graph →
        edge.from_node ∈ s.completed ∨ edge.from_node ∈ s.failed) ∧
      ∃ edge ∈ ctx.graph.edges, edge.to_node = node_id ∧ satisfied ctx s edge := by
  unfold is_node_ready
  cases hincoming : build_incoming_edges ctx.graph node_id with
  | nil =>
    have hnone : ∀ edge ∈ ctx.graph.edges, edge.to_node ≠ node_id := by
      intro edge hedge hto
      have hmem := mem_build_incoming_edges.mpr ⟨hedge, hto⟩
      rw [hincoming] at hmem
      cases hmem
    simp only [true_iff]
    exact Or.inl hnone
  | cons head rest =>
    have hmem : ∀ edge, edge ∈ head :: rest ↔ edge ∈ ctx.graph.edges ∧ edge.to_node = node_id := by
      intro edge
      rw [← hincoming, mem_build_incoming_edges]
    have hhead := (hmem head).mp (List.mem_cons_self ..)
    simp only [is_node_ready_loop_iff hcounts, hmem, Bool.false_eq_true, false_or]
    constructor
    · rintro ⟨hall, edge, ⟨hedge, hto⟩, hsatisfied⟩
      exact Or.inr ⟨fun e he hto => hall e ⟨he, hto⟩, edge, hedge, hto, hsatisfied⟩
    · rintro (hnone | ⟨hall, edge, hedge, hto, hsatisfied⟩)
      · exact absurd hhead.2 (hnone head hhead.1)
      · exact ⟨fun e he => hall e he.1 he.2, edge, ⟨hedge, hto⟩, hsatisfied⟩

/-- The sources of a ready node's forward edges are done. -/
theorem source_done_of_ready {ctx : RunContext} {counts : String → Nat} (hcounts : CountsBounded ctx counts)
    {s : RunState} {node_id : String} (hready : is_node_ready ctx s counts node_id = true) {edge : Edge}
    (hedge : edge ∈ ctx.graph.edges) (hto : edge.to_node = node_id)
    (hforward : edge.id ∉ find_back_edges ctx.graph) :
    edge.from_node ∈ s.completed ∨ edge.from_node ∈ s.failed := by
  cases (is_node_ready_iff hcounts s node_id).mp hready with
  | inl hnone => exact absurd hto (hnone edge hedge)
  | inr hready => exact hready.1 edge hedge hto hforward

end flow_engine.executor
