import FlowEngine.Executor.Dag.Independence
import FlowEngine.Lib.Dataflow.Agreement

namespace flow_engine.executor

open dataflow (Activated Legal keys Last Possible)

/-- Runs start a node with several sources in the same way, as the same fan-out or as a
single task on the same inputs: no two runs start it differently, however far they got,
and of two complete runs both start it or neither does. -/
def FanOutIndependent (ctx : RunContext) (eval : String → Value → Value) : Prop :=
  ∀ v, (∃ x ∈ sources ctx v, ∃ y ∈ sources ctx v, x ≠ y) → ∀ cs s cs' s', FunctionalRun ctx eval cs s →
    FunctionalRun ctx eval cs' s' →
      (∀ work work', (⟨v, work⟩ : Activation) ∈ s.activations → ⟨v, work'⟩ ∈ s'.activations → work = work') ∧
      (s.running = [] → s'.running = [] →
        ∀ work, (⟨v, work⟩ : Activation) ∈ s.activations ↔ ⟨v, work⟩ ∈ s'.activations)

/-- What the first edge between two nodes offers to fan out over, when the source ended
in a given way. -/
def offered_items (ctx : RunContext) (source target : String) : NodeEnd → Option (List Value)
  | .failed => none
  | .done outputs from_fan_in =>
    ((build_outgoing_edges ctx.graph source).find? fun edge => edge.to_node = target).bind fun edge =>
      fan_out_items outputs edge from_fan_in

/-- Whatever ends the nodes upstream of a join can come to, those of its sources that can
finish last offer it the same items. Where they offer none, the outputs of its sources
make the same inputs. -/
def SourcesOfferAlike (ctx : RunContext) (eval : String → Value → Value) : Prop :=
  ∀ v, (∃ x ∈ sources ctx v, ∃ y ∈ sources ctx v, x ≠ y) → ∀ ends ends' : String → NodeEnd,
    Possible (net ctx) (Computes eval) ends v → Possible (net ctx) (Computes eval) ends' v →
      ∀ x y, Last (net ctx) x v → Last (net ctx) y v →
        offered_items ctx x v (ends x) = offered_items ctx y v (ends' y) ∧
        (offered_items ctx x v (ends x) = none →
          resolve_inputs ctx.graph (fun u => (ends u).output) v =
            resolve_inputs ctx.graph (fun u => (ends' u).output) v)

section Decide

variable {ctx : RunContext} {eval : String → Value → Value}

/-- The sources of a node have come to possible ends, so they are done. -/
theorem possible_done {ends : String → NodeEnd} {v : String} (h : Possible (net ctx) (Computes eval) ends v) {u : String}
    (hu : u ∈ sources ctx v) : ∃ outputs from_fan_in, ends u = .done outputs from_fan_in := by
  obtain ⟨w, _, hends⟩ := h u (.single hu)
  exact hends.done

theorem join_work_of_possible {ends : String → NodeEnd} {v : String}
    (h : Possible (net ctx) (Computes eval) ends v) : join_work ctx (fun u => some (ends u)) v =
      .plain (resolve_inputs ctx.graph (fun u => (ends u).output) v) := by
  unfold join_work
  congr 1
  apply resolve_inputs_congr
  intro edge hedge
  obtain ⟨outputs, from_fan_in, hdone⟩ := possible_done h (List.mem_map_of_mem hedge)
  simp [end_outputs, NodeEnd.output, hdone]

/-- Without conditions a source always wakes, and decides by the items it offers. -/
theorem wake_of_possible (hconditions : ∀ edge ∈ ctx.graph.edges, edge.condition = none)
    (hlimit : 1 ≤ ctx.max_traversals) {ends : String → NodeEnd} {x v : String}
    (h : Possible (net ctx) (Computes eval) ends v) (hx : x ∈ sources ctx v) :
    wake ctx (fun u => some (ends u)) x v = some
      (match offered_items ctx x v (ends x) with
      | some items => .fan_out items
      | none => .plain (resolve_inputs ctx.graph (fun u => (ends u).output) v)) := by
  have hpositive : 0 < ctx.max_traversals := hlimit
  have hsame : ∀ outputs, passing_edge ctx outputs x v =
      (build_outgoing_edges ctx.graph x).find? fun edge => edge.to_node = v := by
    intro outputs
    unfold passing_edge
    rw [← List.head?_filter, ← List.head?_filter]
    refine congrArg List.head? (List.filter_congr ?_)
    intro edge hedge
    simp [evaluate_edge_condition, hconditions edge (mem_build_outgoing_edges.mp hedge).1, hpositive]
  obtain ⟨edge, hedge, hfrom, hto⟩ := mem_sources.mp hx
  have hsome : ((build_outgoing_edges ctx.graph x).find? fun edge => edge.to_node = v).isSome := by
    rw [List.find?_isSome]
    exact ⟨edge, mem_build_outgoing_edges.mpr ⟨hedge, hfrom⟩, decide_eq_true hto⟩
  obtain ⟨first, hfirst⟩ := Option.isSome_iff_exists.mp hsome
  obtain ⟨outputs, from_fan_in, hdone⟩ := possible_done h hx
  unfold wake
  rw [join_work_of_possible h]
  simp only [hdone, hsame, hfirst, offered_items, Option.bind_some]
  cases fan_out_items outputs first from_fan_in <;> rfl

/-- The joins are decided exactly when their sources offer alike. -/
theorem decided_iff_offers (hconditions : ∀ edge ∈ ctx.graph.edges, edge.condition = none)
    (hlimit : 1 ≤ ctx.max_traversals) :
    (∀ v, dataflow.Join (net ctx) v → dataflow.Decided (net ctx) (Computes eval) v) ↔ SourcesOfferAlike ctx eval := by
  apply forall₂_congr
  intro v _
  apply forall₄_congr
  intro ends ends' hpossible hpossible'
  apply forall₄_congr
  intro x y hx hy
  rw [net_wake, wake_of_possible hconditions hlimit hpossible hx.1, wake_of_possible hconditions hlimit hpossible' hy.1]
  cases offered_items ctx x v (ends x) <;> cases offered_items ctx y v (ends' y) <;> simp

end Decide

section Runs

variable {ctx : RunContext} {eval : String → Value → Value} {order : List (String × NodeEnd)}

/-- Where no edge may be passed only entry nodes are started. -/
theorem sources_eq_nil_of_no_traversals (hlegal : Legal (net ctx) (Computes eval) order)
    (hlimit : ctx.max_traversals = 0) {v : String} {w : Work} (hactive : Activated (net ctx) order v w) :
    sources ctx v = [] := by
  rcases activated_cases hactive with
    ⟨hnil, _⟩ | ⟨x, outputs, _, edge, _, _, _, hpassing, _⟩ | ⟨x, hx, hsource, hfailed, _⟩
  · exact hnil
  · have hnone : passing_edge ctx outputs x v = none := by
      rw [passing_edge, List.find?_eq_none]
      simp [hlimit]
    rw [hnone] at hpassing
    cases hpassing
  · obtain ⟨_, r, _, hfound, hends⟩ := hlegal.activated (hx.sources_mem x hsource)
    obtain ⟨_, _, rfl⟩ := hends.done
    rw [hfailed] at hfound
    cases hfound

/-- A complete run without conditions starts every node. -/
theorem Tracks.all_started (haccepted : Accepted ctx) (hacyclic : digraph.Acyclic (GraphEdge ctx.graph))
    (hconditions : ∀ edge ∈ ctx.graph.edges, edge.condition = none) (hlimit : 1 ≤ ctx.max_traversals)
    {cs : List Completion} {s : RunState} (h : Tracks ctx eval order cs s) (hempty : s.running = []) {n : String}
    (hnode : n ∈ ctx.graph.nodes.map NodeInstance.instance_id) : ∃ work, (⟨n, work⟩ : Activation) ∈ s.activations := by
  have hmax := h.maximal haccepted hempty
  have hactivated : ∀ n, (∀ u ∈ sources ctx n, u ∈ keys order) → n ∈ ctx.graph.nodes.map NodeInstance.instance_id →
      ∃ work, Activated (net ctx) order n work := by
    intro n hsources hnode
    by_cases hnil : sources ctx n = []
    · exact ⟨_, Or.inl ⟨hnil, if_pos hnode⟩⟩
    · obtain ⟨x, hx⟩ : ∃ x, dataflow.Closes (net ctx) order x n := dataflow.exists_closes hnil hsources
      obtain ⟨ends, hpossible, hwake⟩ := h.refines.legal.exists_possible hx
      rw [net_wake, wake_of_possible hconditions hlimit hpossible hx.1] at hwake
      exact ⟨_, Or.inr ⟨x, hx, hwake⟩⟩
  have hended : n ∈ keys order := by
    induction n using (source_wellFounded hacyclic).induction with
    | h n ih =>
      have hsources : ∀ u ∈ sources ctx n, u ∈ keys order := by
        intro u hu
        obtain ⟨edge, hedge, rfl, _⟩ := mem_sources.mp hu
        exact ih _ hu (haccepted.valid.from_node_mem edge hedge)
      obtain ⟨work, hactive⟩ := hactivated n hsources hnode
      exact hmax n work hactive
  obtain ⟨work, _, hactive, _⟩ := h.refines.legal.activated hended
  exact ⟨work, (h.refines.activated n work).mpr hactive⟩

end Runs

/-- On an acyclic graph without conditions the fan-out of joins does not depend on timing
exactly when no edge may be passed or the sources of every join offer alike. -/
theorem fan_out_independent_iff {ctx : RunContext} (haccepted : Accepted ctx)
    (hacyclic : digraph.Acyclic (GraphEdge ctx.graph))
    (hconditions : ∀ edge ∈ ctx.graph.edges, edge.condition = none) (eval : String → Value → Value) :
    FanOutIndependent ctx eval ↔ ctx.max_traversals = 0 ∨ SourcesOfferAlike ctx eval := by
  by_cases hzero : ctx.max_traversals = 0
  · simp only [hzero, true_or, iff_true]
    rintro v ⟨x, hx, _⟩ cs s cs' s' hrun hrun'
    have hnever : ∀ cs s, FunctionalRun ctx eval cs s → ∀ work, (⟨v, work⟩ : Activation) ∉ s.activations := by
      intro cs s hrun work hmem
      obtain ⟨order, h⟩ := FunctionalRun.tracks haccepted hacyclic hrun
      have hnil := sources_eq_nil_of_no_traversals h.refines.legal hzero ((h.refines.activated _ _).mp hmem)
      simp [hnil] at hx
    exact ⟨fun work _ hmem _ => absurd hmem (hnever cs s hrun work),
      fun _ _ work => iff_of_false (hnever cs s hrun work) (hnever cs' s' hrun' work)⟩
  · have hlimit : 1 ≤ ctx.max_traversals := Nat.one_le_iff_ne_zero.mpr hzero
    have hwakes : ∀ ends v x, Possible (net ctx) (Computes eval) ends v → Last (net ctx) x v →
        ((net ctx).wake (fun u => some (ends u)) x v).isSome := by
      intro ends v x hpossible hlast
      rw [net_wake, wake_of_possible hconditions hlimit hpossible hlast.1]
      rfl
    simp only [hzero, false_or]
    rw [← decided_iff_offers hconditions hlimit,
      ← dataflow.joins_agree_iff_decided (source_wellFounded hacyclic) _ (net_nodes haccepted) hwakes]
    apply forall₂_congr
    intro v hjoin
    constructor
    · intro h first second hfirst hsecond w w' hact hact'
      obtain ⟨cs, s, htracks, _⟩ := exists_tracks haccepted hacyclic hfirst
      obtain ⟨cs', s', htracks', _⟩ := exists_tracks haccepted hacyclic hsecond
      exact (h cs s cs' s' htracks.run htracks'.run).1 w w' ((htracks.refines.activated v w).mpr hact)
        ((htracks'.refines.activated v w').mpr hact')
    · intro h cs s cs' s' hrun hrun'
      obtain ⟨order, htracks⟩ := FunctionalRun.tracks haccepted hacyclic hrun
      obtain ⟨order', htracks'⟩ := FunctionalRun.tracks haccepted hacyclic hrun'
      have hsame : ∀ work work', (⟨v, work⟩ : Activation) ∈ s.activations → ⟨v, work'⟩ ∈ s'.activations → work = work' := by
        intro work work' hmem hmem'
        exact h order order' htracks.refines.legal htracks'.refines.legal work work'
          ((htracks.refines.activated v work).mp hmem) ((htracks'.refines.activated v work').mp hmem')
      refine ⟨hsame, fun hempty hempty' work => ?_⟩
      obtain ⟨x, hx, _⟩ := hjoin
      obtain ⟨edge, hedge, _, hto⟩ := mem_sources.mp hx
      have hnode : v ∈ ctx.graph.nodes.map NodeInstance.instance_id := hto ▸ haccepted.valid.to_node_mem edge hedge
      obtain ⟨first, hfirst⟩ := htracks.all_started haccepted hacyclic hconditions hlimit hempty hnode
      obtain ⟨second, hsecond⟩ := htracks'.all_started haccepted hacyclic hconditions hlimit hempty' hnode
      constructor
      · intro hmem
        exact hsame work second hmem hsecond ▸ hsecond
      · intro hmem
        exact hsame first work hfirst hmem ▸ hfirst

/-- A source that computes its end without arrays offers nothing. -/
theorem offered_items_eq_none {ctx : RunContext} {eval : String → Value → Value}
    (harrays : ∀ n inputs, SendsNoArray ctx n (eval n inputs)) {x : String} {work : Work} {r : NodeEnd}
    (hends : Computes eval x work r) (v : String) : offered_items ctx x v r = none := by
  cases hfind : (build_outgoing_edges ctx.graph x).find? fun edge => edge.to_node = v with
  | none => cases hends <;> simp [offered_items, hfind]
  | some edge =>
    obtain ⟨hedge, hfrom⟩ := mem_build_outgoing_edges.mp (List.mem_of_find?_eq_some hfind)
    cases hends with
    | plain => simp [offered_items, hfind, fan_out_items_eq_none (harrays x _) hedge hfrom]
    | fan_in _ _ _ _ => simp [offered_items, hfind, fan_out_items]

/-- Where all handlers output a truth value, so does every possible end. -/
theorem approving_end {ctx : RunContext} (hconditions : ∀ edge ∈ ctx.graph.edges, edge.condition = none)
    (hlimit : 1 ≤ ctx.max_traversals) {ends : String → NodeEnd} {v : String}
    (hpossible : Possible (net ctx) (Computes approving) ends v) {u : String}
    (hu : Relation.TransGen (dataflow.Source (net ctx)) u v) : ends u = .done (.bool true) false := by
  obtain ⟨work, hgiven, hends⟩ := hpossible u hu
  have hplain : ∃ inputs, work = .plain inputs := by
    rcases hgiven with ⟨_, hroot⟩ | ⟨x, hlast, hwake⟩
    · simp only [net, Option.ite_none_right_eq_some, Option.some.injEq] at hroot
      exact ⟨_, hroot.2.symm⟩
    · have hsource : dataflow.Source (net ctx) x u := hlast.1
      obtain ⟨_, _, hends_x⟩ := hpossible x (.head hsource hu)
      rw [net_wake, wake_of_possible hconditions hlimit (hpossible.ancestor hu) hlast.1,
        offered_items_eq_none (approving_sends_no_array ctx) hends_x] at hwake
      exact ⟨_, (Option.some.inj hwake).symm⟩
  obtain ⟨inputs, rfl⟩ := hplain
  generalize ends u = r at hends
  cases hends
  rfl

theorem fan_out_independent_iff_sample : FanOutIndependent diamond_sample approving := by
  have haccepted : Accepted diamond_sample := sample_accepted 1 (by decide +kernel)
  have hforward : ∀ edge ∈ diamond_sample.graph.edges,
      ["A", "B", "C", "D"].idxOf edge.from_node < ["A", "B", "C", "D"].idxOf edge.to_node := by decide +kernel
  have hconditions : ∀ edge ∈ diamond_sample.graph.edges, edge.condition = none := by decide +kernel
  apply (fan_out_independent_iff haccepted (sample_acyclic 1 hforward) hconditions approving).mpr
  right
  intro v _ ends ends' hpossible hpossible' x y hx hy
  have hends : ∀ u ∈ sources diamond_sample v, ends u = .done (.bool true) false := fun u hu =>
    approving_end hconditions (le_refl 1) hpossible (.single hu)
  have hends' : ∀ u ∈ sources diamond_sample v, ends' u = .done (.bool true) false := fun u hu =>
    approving_end hconditions (le_refl 1) hpossible' (.single hu)
  have hnone : ∀ x, offered_items diamond_sample x v (.done (.bool true) false) = none := by
    intro x
    have hcomputes : Computes approving x (.plain .null) (.done (.bool true) false) := .plain
    exact offered_items_eq_none (approving_sends_no_array diamond_sample) hcomputes v
  rw [hends x hx.1, hends' y hy.1, hnone, hnone]
  refine ⟨rfl, fun _ => resolve_inputs_congr fun edge hedge => ?_⟩
  rw [hends _ (List.mem_map_of_mem hedge), hends' _ (List.mem_map_of_mem hedge)]

/-- A join of an array and a single value. -/
def mixed_join_sample : RunContext :=
  sample_context ["A", "B", "T"] [sample_edge "at" "A" "T" none, sample_edge "bt" "B" "T" none] 1

/-- The first source outputs an array. -/
def listing (node_id : String) (_ : Value) : Value := if node_id = "A" then .array [.null, .null] else .null

theorem listing_small (ctx : RunContext) (n : String) (inputs : Value) : SmallArrays ctx n (listing n inputs) := by
  intro edge _ _ items hitems
  unfold listing at hitems
  split at hitems
  · cases hitems
    decide
  · cases hitems

/-- Whether the join is fanned out depends on which source finishes last. -/
theorem fan_out_at_join_depends_on_timing : Accepted mixed_join_sample ∧
    digraph.Acyclic (GraphEdge mixed_join_sample.graph) ∧
    (∀ edge ∈ mixed_join_sample.graph.edges, edge.condition = none) ∧
    (∀ n inputs, SmallArrays mixed_join_sample n (listing n inputs)) ∧
    ¬ FanOutIndependent mixed_join_sample listing := by
  have hforward : ∀ edge ∈ mixed_join_sample.graph.edges,
      ["A", "B", "T"].idxOf edge.from_node < ["A", "B", "T"].idxOf edge.to_node := by decide +kernel
  refine ⟨sample_accepted 1 (by decide +kernel), sample_acyclic 1 hforward, by decide +kernel,
    listing_small mixed_join_sample, ?_⟩
  intro h
  have hplain : ((replayed_nodes mixed_join_sample listing [⟨0, 0⟩, ⟨1, 0⟩, ⟨2, 0⟩]).map
      fun activations => activations.map fun activation => (activation.node_id, activation.work.is_fan_out)) =
        some [("A", false), ("B", false), ("T", false)] := by decide +kernel
  have hfanned : ((replayed_nodes mixed_join_sample listing [⟨1, 0⟩, ⟨0, 0⟩, ⟨2, 1⟩, ⟨2, 0⟩]).map
      fun activations => activations.map fun activation => (activation.node_id, activation.work.is_fan_out)) =
        some [("A", false), ("B", false), ("T", true)] := by decide +kernel
  obtain ⟨first, hfirst, hnodes⟩ := Option.map_eq_some_iff.mp hplain
  obtain ⟨second, hsecond, hnodes'⟩ := Option.map_eq_some_iff.mp hfanned
  obtain ⟨cs, s, hrun, hempty, rfl⟩ := run_of_replayed_nodes hfirst
  obtain ⟨cs', s', hrun', hempty', rfl⟩ := run_of_replayed_nodes hsecond
  have hmem : ("T", true) ∈ s'.activations.map fun activation => (activation.node_id, activation.work.is_fan_out) := by
    simp [hnodes']
  obtain ⟨⟨v, work⟩, hactivation, hnode⟩ := List.mem_map.mp hmem
  obtain ⟨rfl, hwork⟩ := Prod.mk.inj hnode
  have hsources : ∃ x ∈ sources mixed_join_sample "T", ∃ y ∈ sources mixed_join_sample "T", x ≠ y := by
    decide +kernel
  have hagree := ((h "T" hsources cs s cs' s' hrun hrun').2 hempty hempty' work).mpr hactivation
  have hother : ("T", true) ∈ s.activations.map fun activation => (activation.node_id, activation.work.is_fan_out) :=
    List.mem_map.mpr ⟨_, hagree, by rw [hwork]⟩
  simp [hnodes] at hother

end flow_engine.executor
