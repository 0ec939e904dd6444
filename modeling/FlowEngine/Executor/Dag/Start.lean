import FlowEngine.Executor.Dag.Refinement

namespace flow_engine.executor

open dataflow (Activated Legal found keys)

/-- No two edges have the same source and the same target. -/
def NoParallelEdges (graph : GraphDef) : Prop :=
  (graph.edges.map fun edge => (edge.from_node, edge.to_node)).Nodup

section Ended

variable {ctx : RunContext} {ends : WorkEnds} {order : List (String × NodeEnd)} {x : String} {r : NodeEnd}
  {s : RunState} (h : Ended ctx ends order x r s)
include h

theorem Ended.fresh : x ∉ keys order := (dataflow.legal_snoc.mp h.legal).2.1

theorem Ended.found_self : found (order ++ [(x, r)]) x = some r := dataflow.found_snoc_self h.fresh

theorem Ended.over_iff (u : String) : u ∈ s.completed ∨ u ∈ s.failed ↔ u ∈ keys (order ++ [(x, r)]) :=
  executor.over_iff h.legal h.completed h.failed u

/-- A target of the ended node has not been activated. -/
theorem Ended.target_not_activated {v : String} (hv : x ∈ sources ctx v) (w : Work) :
    ¬ Activated (net ctx) order v w :=
  fun hact => h.fresh (hact.sources_mem x hv)

variable (hacyclic : digraph.Acyclic (GraphEdge ctx.graph))
include hacyclic

theorem Ended.target_not_ended {v : String} (hv : x ∈ sources ctx v) : v ∉ keys (order ++ [(x, r)]) := by
  intro hmem
  rw [dataflow.keys_append, List.mem_append] at hmem
  cases hmem with
  | inl hold => exact h.fresh ((dataflow.legal_snoc.mp h.legal).1.source_mem hv hold)
  | inr hself =>
    have hvx : v = x := by simpa using hself
    exact hacyclic x (.single (mem_sources.mp (hvx ▸ hv)))

/-- A target of the ended node is in no phase. -/
theorem Ended.target_untouched {v : String} (hv : x ∈ sources ctx v) :
    v ∉ s.completed ∧ v ∉ s.failed ∧ v ∉ s.running_set ∧ s.fan_out_states v = none := by
  have hnot := h.target_not_ended hacyclic hv
  refine ⟨fun hmem => hnot ((h.over_iff v).mp (Or.inl hmem)),
    fun hmem => hnot ((h.over_iff v).mp (Or.inr hmem)), ?_, ?_⟩
  · intro hmem
    obtain ⟨_, inputs, hact⟩ := (h.running v).mp hmem
    exact h.target_not_activated hv _ hact
  · by_contra hne
    obtain ⟨_, items, hact⟩ := (h.fanning v).mp hne
    exact h.target_not_activated hv _ hact

/-- What the ended node activates is added to the activated nodes that have not ended, for
each kind of work. -/
theorem Ended.activated_kind {nodes : List ReadyNode}
    (hnodes : ∀ v w, ⟨v, w⟩ ∈ nodes.map (ready_activation ctx s) ↔ x ∈ sources ctx v ∧
      (∀ u ∈ sources ctx v, u = x ∨ u ∈ keys order) ∧ wake ctx (found (order ++ [(x, r)])) x v = some w)
    (kind : Work → Prop) (n : String) :
    (n ∉ keys (order ++ [(x, r)]) ∧ ∃ w, kind w ∧ Activated (net ctx) order n w) ∨
        (∃ ready ∈ nodes, ready.node_id = n ∧ kind (ready_activation ctx s ready).work) ↔
      n ∉ keys (order ++ [(x, r)]) ∧ ∃ w, kind w ∧ Activated (net ctx) (order ++ [(x, r)]) n w := by
  have hsnoc : ∀ w, Activated (net ctx) (order ++ [(x, r)]) n w ↔
      Activated (net ctx) order n w ∨ ⟨n, w⟩ ∈ nodes.map (ready_activation ctx s) := by
    intro w
    rw [hnodes]
    exact dataflow.activated_snoc
  constructor
  · rintro (⟨hnot, w, hkind, hact⟩ | ⟨ready, hready, rfl, hkind⟩)
    · exact ⟨hnot, w, hkind, hact.append⟩
    · have hmem : ⟨ready.node_id, (ready_activation ctx s ready).work⟩ ∈ nodes.map (ready_activation ctx s) :=
        List.mem_map.mpr ⟨ready, hready, rfl⟩
      exact ⟨h.target_not_ended hacyclic ((hnodes _ _).mp hmem).1, _, hkind, (hsnoc _).mpr (Or.inr hmem)⟩
  · rintro ⟨hnot, w, hkind, hact⟩
    cases (hsnoc _).mp hact with
    | inl hold => exact Or.inl ⟨hnot, w, hkind, hold⟩
    | inr hnew =>
      obtain ⟨ready, hready, heq⟩ := List.mem_map.mp hnew
      refine Or.inr ⟨ready, hready, congrArg Activation.node_id heq, ?_⟩
      rw [congrArg Activation.work heq]
      exact hkind

/-- Starting the nodes the ended one was the last source of makes its end part of
the order. -/
theorem Ended.started {nodes : List ReadyNode} (hspawnable : ∀ ready ∈ nodes, spawnable ctx ready.node_id = true)
    (hfirst : ∀ ready ∈ nodes, ready.is_cycle = false) (hnodup : (nodes.map ReadyNode.node_id).Nodup)
    (hnodes : ∀ v w, ⟨v, w⟩ ∈ nodes.map (ready_activation ctx s) ↔ x ∈ sources ctx v ∧
      (∀ u ∈ sources ctx v, u = x ∨ u ∈ keys order) ∧ wake ctx (found (order ++ [(x, r)])) x v = some w)
    (hcounts : ∀ edge ∈ ctx.graph.edges, edge.from_node ∉ keys (order ++ [(x, r)]) →
      s.edge_traversal_counts edge.id = 0) :
    Refines ctx ends (order ++ [(x, r)]) (spawn_ready_nodes ctx nodes s) := by
  have hspawned := spawned_all (s := s) hspawnable hfirst
  constructor
  · exact h.legal
  · rw [hspawned.completed]
    exact h.completed
  · rw [hspawned.failed]
    exact h.failed
  · rw [hspawned.node_outputs]
    exact h.outputs
  · intro v w
    rw [hspawned.activations, List.mem_append, h.activated, hnodes]
    exact dataflow.activated_snoc.symm
  · rw [hspawned.activations, List.map_append, List.nodup_append]
    refine ⟨h.once, ?_, ?_⟩
    · rw [List.map_map]
      exact hnodup
    · intro v hv v' hv' heq
      obtain ⟨⟨_, w⟩, hold, rfl⟩ := List.mem_map.mp hv
      obtain ⟨⟨_, w'⟩, hnew, rfl⟩ := List.mem_map.mp hv'
      obtain rfl : _ = _ := heq
      exact h.target_not_activated ((hnodes _ _).mp hnew).1 w ((h.activated _ _).mp hold)
  · intro n
    have hkind := h.activated_kind hacyclic hnodes (fun w => ∃ inputs, w = .plain inputs) n
    have hwork : ∀ ready, (∃ inputs, (ready_activation ctx s ready).work = .plain inputs) ↔
        ready.fan_out_items = none := by
      intro ready
      cases hitems : ready.fan_out_items <;> simp [ready_activation, hitems]
    simp only [hwork, existsAndEq, true_and] at hkind
    rw [hspawned.running, h.running]
    exact hkind
  · intro n
    have hkind := h.activated_kind hacyclic hnodes (fun w => ∃ items, w = .fan_out items) n
    have hwork : ∀ ready, (∃ items, (ready_activation ctx s ready).work = .fan_out items) ↔
        ready.fan_out_items ≠ none := by
      intro ready
      cases hitems : ready.fan_out_items <;> simp [ready_activation, hitems]
    simp only [hwork, existsAndEq, true_and] at hkind
    rw [hspawned.fanning, h.fanning]
    exact hkind
  · rw [hspawned.counts]
    exact hcounts

end Ended

section Batches

variable {ctx : RunContext} {ends : WorkEnds} {order : List (String × NodeEnd)} {x : String} {s : RunState}

theorem passing_edge_spec {value : Value} {v : String} {edge : Edge}
    (h : passing_edge ctx value x v = some edge) :
    edge ∈ ctx.graph.edges ∧ edge.from_node = x ∧ edge.to_node = v := by
  have hmem := List.mem_of_find?_eq_some h
  have hcondition := List.find?_some h
  simp only [Bool.and_eq_true, decide_eq_true_eq] at hcondition
  obtain ⟨hedge, hfrom⟩ := mem_build_outgoing_edges.mp hmem
  exact ⟨hedge, hfrom, hcondition.1.1⟩

/-- The first passed edge to a node is the passing edge, when none of them was passed
before. -/
theorem find_passed_eq (haccepted : Accepted ctx) {value : Value} (hzero : ∀ edge ∈ ctx.graph.edges,
    edge.from_node = x → s.edge_traversal_counts edge.id = 0) (v : String) :
    (passed ctx s x value).find? (fun edge => edge.to_node = v) = passing_edge ctx value x v := by
  have hnodup : ((build_outgoing_edges ctx.graph x).map Edge.id).Nodup := by
    rw [build_outgoing_edges, file_edges_apply]
    exact haccepted.valid.edge_ids_nodup.sublist (List.filter_sublist.map _)
  unfold passed passing_edge
  rw [passed_edges_eq_filter hnodup, List.find?_filter, ← List.head?_filter, ← List.head?_filter]
  refine congrArg List.head? (List.filter_congr ?_)
  intro edge hedge
  obtain ⟨hmem, hfrom⟩ := mem_build_outgoing_edges.mp hedge
  rw [hzero edge hmem hfrom]
  cases decide (edge.to_node = v) <;> simp

/-- A node's edges leave the traversal counts of other nodes' edges alone. -/
theorem passed_counts_other (haccepted : Accepted ctx) (value : Value) (counts : String → Nat) {edge : Edge}
    (hedge : edge ∈ ctx.graph.edges) (hfrom : edge.from_node ≠ x) :
    (passed ctx s x value).foldl count_pass counts edge.id = counts edge.id := by
  have hnone : (passed ctx s x value).countP (fun e => e.id = edge.id) = 0 := by
    rw [List.countP_eq_zero]
    intro e he
    obtain ⟨hmem, hx⟩ := mem_build_outgoing_edges.mp (mem_passed_edges he).1
    simp only [decide_eq_true_eq]
    intro hid
    exact hfrom (List.inj_on_of_nodup_map haccepted.valid.edge_ids_nodup hmem hedge hid ▸ hx)
  rw [foldl_count_pass, hnone, Nat.add_zero]

theorem Ended.startable_iff (hacyclic : digraph.Acyclic (GraphEdge ctx.graph)) {value : Value} {from_fan_in : Bool}
    (h : Ended ctx ends order x (.done value from_fan_in) s) (hcounts : CountsBounded ctx s.edge_traversal_counts)
    {edge : Edge} (hedge : edge ∈ ctx.graph.edges) (hfrom : edge.from_node = x)
    (hcondition : evaluate_edge_condition ctx edge value = true) :
    startable ctx s edge.to_node = true ↔ ∀ u ∈ sources ctx edge.to_node, u = x ∨ u ∈ keys order := by
  have hsource : x ∈ sources ctx edge.to_node := mem_sources.mpr ⟨edge, hedge, hfrom, rfl⟩
  obtain ⟨hcompleted, hfailed, hrunning, hfan⟩ := h.target_untouched hacyclic hsource
  have hflight : in_flight s edge.to_node = false := by
    rw [in_flight_eq_false_iff]
    exact ⟨by simp [is_fan_out_running, hfan], hrunning⟩
  have hover : ∀ u, u ∈ s.completed ∨ u ∈ s.failed ↔ u = x ∨ u ∈ keys order := by
    intro u
    rw [h.over_iff]
    simp [dataflow.keys_append, or_comm]
  have hsatisfied : satisfied ctx s edge := by
    refine ⟨by simp [find_back_edges_eq_empty hacyclic], ?_, value, ?_, hcondition⟩
    · rw [hfrom, h.completed]
      exact ⟨_, _, h.found_self⟩
    · rw [hfrom, h.outputs, end_outputs, h.found_self]
  simp only [startable, hflight, hcompleted, hfailed, not_false_eq_true, decide_true, decide_false,
    Bool.not_false, Bool.true_and, Bool.false_or]
  rw [is_node_ready_iff hcounts]
  constructor
  · rintro (hnone | ⟨hall, _⟩)
    · exact absurd rfl (hnone edge hedge)
    · intro u hu
      obtain ⟨e, he, rfl, hto⟩ := mem_sources.mp hu
      exact (hover _).mp (hall e he hto (by simp [find_back_edges_eq_empty hacyclic]))
  · intro hall
    refine Or.inr ⟨?_, edge, hedge, rfl, hsatisfied⟩
    intro e he hto _
    exact (hover _).mpr (hall _ (mem_sources.mpr ⟨e, he, rfl, hto⟩))

/-- The edges that start their target are the passing edges to the nodes the done one
was the last source of. -/
theorem Ended.mem_starting_edges_iff (haccepted : Accepted ctx) (hacyclic : digraph.Acyclic (GraphEdge ctx.graph))
    {value : Value} {from_fan_in : Bool} (h : Ended ctx ends order x (.done value from_fan_in) s)
    (hcounts : CountsBounded ctx s.edge_traversal_counts) (hzero : ∀ edge ∈ ctx.graph.edges,
      edge.from_node ∉ keys order → s.edge_traversal_counts edge.id = 0) {edge : Edge} :
    edge ∈ starting_edges ctx s x value ↔ passing_edge ctx value x edge.to_node = some edge ∧
      ∀ u ∈ sources ctx edge.to_node, u = x ∨ u ∈ keys order := by
  have hown : ∀ edge ∈ ctx.graph.edges, edge.from_node = x → s.edge_traversal_counts edge.id = 0 :=
    fun edge hedge hfrom => hzero edge hedge (hfrom ▸ h.fresh)
  unfold starting_edges
  rw [List.mem_filter, mem_first_targets, find_passed_eq haccepted hown]
  simp only [Finset.notMem_empty, not_false_eq_true, true_and]
  apply and_congr_right
  intro hpassing
  obtain ⟨hedge, hfrom, _⟩ := passing_edge_spec hpassing
  have hcondition := List.find?_some hpassing
  simp only [decide_true, Bool.true_and, Bool.and_eq_true] at hcondition
  exact h.startable_iff hacyclic hcounts hedge hfrom hcondition.1

/-- The work that an edge of a done node brings to its target. -/
def edge_work (ctx : RunContext) (found : String → Option NodeEnd) (value : Value) (from_fan_in : Bool) (edge : Edge)
    (target : String) : Work :=
  match fan_out_items value edge from_fan_in with
  | some items => .fan_out items
  | none => join_work ctx found target

/-- What a done node's edges start is what its end activates. -/
theorem Ended.ready_activations (haccepted : Accepted ctx) (hacyclic : digraph.Acyclic (GraphEdge ctx.graph))
    {value : Value} {from_fan_in : Bool} (h : Ended ctx ends order x (.done value from_fan_in) s)
    (hcounts : CountsBounded ctx s.edge_traversal_counts) (hzero : ∀ edge ∈ ctx.graph.edges,
      edge.from_node ∉ keys order → s.edge_traversal_counts edge.id = 0) (v : String) (w : Work) :
    ⟨v, w⟩ ∈ ((starting_edges ctx s x value).map (ready_node s value from_fan_in)).map (ready_activation ctx s) ↔
      x ∈ sources ctx v ∧ (∀ u ∈ sources ctx v, u = x ∨ u ∈ keys order) ∧
        wake ctx (found (order ++ [(x, .done value from_fan_in)])) x v = some w := by
  have hactivation : ∀ edge, ready_activation ctx s (ready_node s value from_fan_in edge) =
      ⟨edge.to_node, edge_work ctx (found (order ++ [(x, .done value from_fan_in)])) value from_fan_in edge edge.to_node⟩ := by
    intro edge
    unfold ready_activation ready_node edge_work join_work
    exact h.outputs ▸ rfl
  have hwake : wake ctx (found (order ++ [(x, .done value from_fan_in)])) x v =
      (passing_edge ctx value x v).map fun edge =>
        edge_work ctx (found (order ++ [(x, .done value from_fan_in)])) value from_fan_in edge v := by
    unfold wake
    rw [h.found_self]
    cases hpassing : passing_edge ctx value x v with
    | none => simp [hpassing]
    | some edge => cases hitems : fan_out_items value edge from_fan_in <;> simp [hpassing, hitems, edge_work]
  rw [hwake, List.map_map, List.mem_map]
  constructor
  · rintro ⟨edge, hedge, heq⟩
    obtain ⟨hpassing, hall⟩ := (h.mem_starting_edges_iff haccepted hacyclic hcounts hzero).mp hedge
    obtain ⟨hmem, hfrom, _⟩ := passing_edge_spec hpassing
    rw [Function.comp_apply, hactivation] at heq
    obtain ⟨rfl, rfl⟩ := Activation.mk.inj heq
    exact ⟨mem_sources.mpr ⟨edge, hmem, hfrom, rfl⟩, hall, by rw [hpassing]; rfl⟩
  · rintro ⟨_, hall, hwork⟩
    obtain ⟨edge, hpassing, rfl⟩ := Option.map_eq_some_iff.mp hwork
    obtain ⟨_, _, rfl⟩ := passing_edge_spec hpassing
    exact ⟨edge, (h.mem_starting_edges_iff haccepted hacyclic hcounts hzero).mpr ⟨hpassing, hall⟩, hactivation edge⟩

/-- After the edges of a done node were evaluated, its end is part of the order. -/
theorem Ended.evaluated_downstream (haccepted : Accepted ctx) (hacyclic : digraph.Acyclic (GraphEdge ctx.graph))
    {value : Value} {from_fan_in : Bool} (h : Ended ctx ends order x (.done value from_fan_in) s)
    (hcounts : CountsBounded ctx s.edge_traversal_counts) (hzero : ∀ edge ∈ ctx.graph.edges,
      edge.from_node ∉ keys order → s.edge_traversal_counts edge.id = 0) :
    Refines ctx ends (order ++ [(x, .done value from_fan_in)]) (evaluate_downstream ctx s x value from_fan_in) := by
  rw [evaluate_downstream_eq hcounts]
  apply Ended.started
  · exact ⟨h.legal, h.completed, h.failed, h.outputs, h.activated, h.once, h.running, h.fanning⟩
  · exact hacyclic
  · exact ready_nodes_spawnable haccepted s x value from_fan_in
  · intro ready hready
    obtain ⟨edge, hedge, rfl⟩ := List.mem_map.mp hready
    obtain ⟨hmem, hfrom, _⟩ := mem_starting_edges hedge
    obtain ⟨hcompleted, _⟩ := h.target_untouched hacyclic (mem_sources.mpr ⟨edge, hmem, hfrom, rfl⟩)
    exact decide_eq_false hcompleted
  · exact ready_nodes_nodup ctx s x value from_fan_in
  · exact h.ready_activations haccepted hacyclic hcounts hzero
  · intro edge hedge hfrom
    rw [dataflow.keys_append, List.mem_append, not_or] at hfrom
    have hother : edge.from_node ≠ x := by simpa using hfrom.2
    exact (passed_counts_other haccepted value s.edge_traversal_counts hedge hother).trans
      (hzero edge hedge hfrom.1)

section Failure

variable (hacyclic : digraph.Acyclic (GraphEdge ctx.graph)) (h : Ended ctx ends order x .failed s)
include hacyclic h

/-- The failure path finds the nodes the failed one was the last source of and another
source of which is done. -/
theorem Ended.mem_find_ready_iff {v : String} : v ∈ find_ready_after_failure ctx s x ↔ x ∈ sources ctx v ∧
    (∀ u ∈ sources ctx v, u = x ∨ u ∈ keys order) ∧
    (sources ctx v).any (is_done (found (order ++ [(x, .failed)]))) = true := by
  have hover : ∀ u, u ∈ s.completed ∨ u ∈ s.failed ↔ u = x ∨ u ∈ keys order := by
    intro u
    rw [h.over_iff]
    simp [dataflow.keys_append, or_comm]
  have hdone : ∀ u, is_done (found (order ++ [(x, .failed)])) u = true ↔ u ∈ s.completed := by
    intro u
    rw [h.completed]
    unfold is_done
    cases found (order ++ [(x, .failed)]) u with
    | none => simp
    | some end_of_u => cases end_of_u <;> simp
  rw [mem_find_ready_after_failure, List.any_eq_true]
  simp only [hdone]
  constructor
  · rintro ⟨⟨edge, hedge, hfrom, hto⟩, _, _, _, hall, e, he, heto, hecompleted⟩
    refine ⟨mem_sources.mpr ⟨edge, hedge, hfrom, hto⟩, ?_, e.from_node,
      mem_sources.mpr ⟨e, he, rfl, heto⟩, hecompleted⟩
    intro u hu
    obtain ⟨e', he', rfl, hto'⟩ := mem_sources.mp hu
    exact (hover _).mp (hall e' he' hto')
  · rintro ⟨hsource, hall, u, hu, hcompleted⟩
    obtain ⟨hnot_completed, hnot_failed, hnot_running, _⟩ := h.target_untouched hacyclic hsource
    obtain ⟨edge, hedge, hfrom, hto⟩ := mem_sources.mp hsource
    obtain ⟨e, he, hefrom, heto⟩ := mem_sources.mp hu
    refine ⟨⟨edge, hedge, hfrom, hto⟩, hnot_completed, hnot_failed, hnot_running, ?_,
      e, he, heto, hefrom ▸ hcompleted⟩
    intro e' he' hto'
    exact (hover _).mpr (hall _ (mem_sources.mpr ⟨e', he', rfl, hto'⟩))

omit h hacyclic in
theorem find_ready_nodup (hparallel : NoParallelEdges ctx.graph) (s : RunState) (x : String) :
    (find_ready_after_failure ctx s x).Nodup := by
  refine (find_ready_nodup_iff (List.Nodup.of_map _ hparallel)).mpr ?_
  intro target _ first hfirst second hsecond hedge hedge'
  exact List.inj_on_of_nodup_map hparallel hfirst hsecond
    (Prod.ext (hedge.1.trans hedge'.1.symm) (hedge.2.trans hedge'.2.symm))

theorem Ended.failure_path_quiet (hparallel : NoParallelEdges ctx.graph) : FailurePathQuiet ctx s x := by
  constructor
  · exact find_ready_nodup hparallel s x
  · intro target htarget
    obtain ⟨_, _, _, hfan⟩ := h.target_untouched hacyclic ((h.mem_find_ready_iff hacyclic).mp htarget).1
    simp [is_fan_out_running, hfan]

end Failure

/-- After the failure path was taken, the failed node's end is part of the order. -/
theorem Ended.proceeded (haccepted : Accepted ctx) (hacyclic : digraph.Acyclic (GraphEdge ctx.graph))
    (hparallel : NoParallelEdges ctx.graph) (h : Ended ctx ends order x .failed (fail_node s x))
    (hzero : ∀ edge ∈ ctx.graph.edges, edge.from_node ∉ keys order → s.edge_traversal_counts edge.id = 0) :
    Refines ctx ends (order ++ [(x, .failed)]) (proceed_after_failure ctx s x) := by
  rw [proceed_after_failure_eq]
  have hactivation : ready_activation ctx (fail_node s x) ∘ (fun target => (⟨target, none, false⟩ : ReadyNode)) =
      fun target => ⟨target, join_work ctx (found (order ++ [(x, .failed)])) target⟩ := by
    funext target
    unfold join_work
    rw [← h.outputs]
    rfl
  apply Ended.started h hacyclic
  · exact failure_nodes_spawnable haccepted (fail_node s x) x
  · intro ready hready
    obtain ⟨target, _, rfl⟩ := List.mem_map.mp hready
    rfl
  · rw [List.map_map]
    exact (List.map_id' _).symm ▸ find_ready_nodup hparallel (fail_node s x) x
  · intro v w
    rw [List.map_map, hactivation, List.mem_map]
    unfold wake
    rw [h.found_self]
    simp only [h.mem_find_ready_iff hacyclic, Option.ite_none_right_eq_some, Option.some.injEq]
    constructor
    · rintro ⟨target, ⟨hsource, hall, hany⟩, heq⟩
      obtain ⟨rfl, rfl⟩ := Activation.mk.inj heq
      exact ⟨hsource, hall, hany, rfl⟩
    · rintro ⟨hsource, hall, hany, rfl⟩
      exact ⟨v, ⟨hsource, hall, hany⟩, rfl⟩
  · intro edge hedge hfrom
    rw [dataflow.keys_append, List.mem_append, not_or] at hfrom
    exact hzero edge hedge hfrom.1

end Batches

end flow_engine.executor
