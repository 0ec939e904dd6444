import FlowEngine.Executor.Dag.Timing

namespace flow_engine.executor

open dataflow (Activated Legal found keys May Last UniformAt)

/-- Any two complete runs execute the same nodes on the same inputs and end alike. -/
def TimingIndependent (ctx : RunContext) (eval : String → Value → Value) : Prop :=
  ∀ cs s cs' s', FunctionalRun ctx eval cs s → FunctionalRun ctx eval cs' s' → s.running = [] → s'.running = [] →
    (∀ activation, activation ∈ s.activations ↔ activation ∈ s'.activations) ∧
      s.node_outputs = s'.node_outputs ∧ final_status ctx s false = final_status ctx s' false

/-- An edge between two nodes has a condition that holds on the output. -/
def passes_edge (ctx : RunContext) (outputs : Value) (source target : String) : Bool :=
  (build_outgoing_edges ctx.graph source).any fun edge =>
    decide (edge.to_node = target) && evaluate_edge_condition ctx edge outputs

/-- Whatever works the sources of a node can be given, those of them that can finish
last all have an edge to it whose condition holds, or none has. -/
def SourcesPassAlike (ctx : RunContext) (eval : String → Value → Value) : Prop :=
  ∀ (v : String) (works : String → Work), (∀ u ∈ sources ctx v, May (net ctx) (node_end eval) u (works u)) →
    ∀ x y, Last (net ctx) x v → Last (net ctx) y v →
      passes_edge ctx (work_output eval x (works x)) x v = passes_edge ctx (work_output eval y (works y)) y v

section Decide

variable {ctx : RunContext} {eval : String → Value → Value}

theorem passing_edge_isSome (hlimit : 1 ≤ ctx.max_traversals) (outputs : Value) (x v : String) :
    (passing_edge ctx outputs x v).isSome = passes_edge ctx outputs x v := by
  have hpositive : 0 < ctx.max_traversals := hlimit
  rw [Bool.eq_iff_iff, passing_edge, List.find?_isSome, passes_edge, List.any_eq_true]
  simp [hpositive]

/-- Without arrays a source decides by whether it passes an edge. -/
theorem wake_passes_edge (harrays : ∀ n inputs, SendsNoArray ctx n (eval n inputs)) (hlimit : 1 ≤ ctx.max_traversals)
    (works : String → Work) (x v : String) :
    wake ctx (fun u => some (node_end eval u (works u))) x v =
      if passes_edge ctx (work_output eval x (works x)) x v then
        some (join_work ctx (fun u => some (node_end eval u (works u))) v)
      else none := by
  rw [← passing_edge_isSome hlimit]
  unfold wake node_end
  cases hpassing : passing_edge ctx (work_output eval x (works x)) x v with
  | none => simp [hpassing]
  | some edge =>
    obtain ⟨hedge, hfrom, _⟩ := passing_edge_spec hpassing
    have hitems : fan_out_items (work_output eval x (works x)) edge (works x).is_fan_out = none := by
      cases works x with
      | plain inputs => exact fan_out_items_eq_none (harrays x inputs) hedge hfrom _
      | fan_out items => rfl
    simp [hpassing, hitems]

theorem uniform_iff_passes_edge (harrays : ∀ n inputs, SendsNoArray ctx n (eval n inputs))
    (hlimit : 1 ≤ ctx.max_traversals) :
    (∀ v, UniformAt (net ctx) (node_end eval) v) ↔ SourcesPassAlike ctx eval := by
  unfold SourcesPassAlike
  apply forall_congr'
  intro v
  apply forall₂_congr
  intro works _
  apply forall₄_congr
  intro x y _ _
  rw [net_wake, wake_passes_edge harrays hlimit, wake_passes_edge harrays hlimit]
  cases passes_edge ctx (work_output eval x (works x)) x v <;>
    cases passes_edge ctx (work_output eval y (works y)) y v <;> simp

end Decide

theorem net_nodes {ctx : RunContext} (haccepted : Accepted ctx) (order : List (String × NodeEnd)) (v : String)
    (w : Work) (hactive : Activated (net ctx) order v w) :
    v ∈ (ctx.graph.nodes.map NodeInstance.instance_id).toFinset :=
  List.mem_toFinset.mpr (activated_mem_nodes haccepted hactive)

/-- On an acyclic graph without arrays the runs do not depend on timing exactly when the
sources of every node pass alike. -/
theorem timing_independent_iff {ctx : RunContext} (haccepted : Accepted ctx)
    (hacyclic : digraph.Acyclic (GraphEdge ctx.graph)) (hlimit : 1 ≤ ctx.max_traversals)
    {eval : String → Value → Value} (harrays : ∀ n inputs, SendsNoArray ctx n (eval n inputs)) :
    TimingIndependent ctx eval ↔ SourcesPassAlike ctx eval := by
  rw [← uniform_iff_passes_edge harrays hlimit,
    ← dataflow.confluent_iff_uniform (source_wellFounded hacyclic) _ (net_nodes haccepted)]
  constructor
  · intro h v
    apply (agree_iff_confluentAt harrays haccepted hacyclic v).mp
    intro cs s cs' s' hrun hrun' hempty hempty' w
    exact (h cs s cs' s' hrun hrun' hempty hempty').1 ⟨v, w⟩
  · intro h cs s cs' s' hrun hrun' hempty hempty'
    have hagree : ∀ activation, activation ∈ s.activations ↔ activation ∈ s'.activations := by
      rintro ⟨v, w⟩
      exact (agree_iff_confluentAt harrays haccepted hacyclic v).mpr (h v) cs s cs' s' hrun hrun' hempty hempty' w
    exact ⟨hagree, same_result_of_agree harrays haccepted hacyclic hrun hrun' hempty hempty' hagree⟩

/-- A source without conditions passes its edges. -/
theorem passes_edge_of_source {ctx : RunContext} (hconditions : ∀ edge ∈ ctx.graph.edges, edge.condition = none)
    (outputs : Value) {x v : String} (hx : x ∈ sources ctx v) : passes_edge ctx outputs x v = true := by
  obtain ⟨edge, hedge, hfrom, hto⟩ := mem_sources.mp hx
  rw [passes_edge, List.any_eq_true]
  exact ⟨edge, mem_build_outgoing_edges.mpr ⟨hedge, hfrom⟩,
    by simp [hto, evaluate_edge_condition, hconditions edge hedge]⟩

/-- The handlers that output a truth value. -/
def approving (_ : String) (_ : Value) : Value := .bool true

theorem approving_sends_no_array (ctx : RunContext) (n : String) (inputs : Value) :
    SendsNoArray ctx n (approving n inputs) := by
  intro edge _ _ item items hvalue
  cases hvalue

theorem timing_independent_iff_sample : TimingIndependent diamond_sample approving := by
  have haccepted : Accepted diamond_sample := sample_accepted 1 (by decide +kernel)
  have hforward : ∀ edge ∈ diamond_sample.graph.edges,
      ["A", "B", "C", "D"].idxOf edge.from_node < ["A", "B", "C", "D"].idxOf edge.to_node := by decide +kernel
  have hconditions : ∀ edge ∈ diamond_sample.graph.edges, edge.condition = none := by decide +kernel
  apply (timing_independent_iff haccepted (sample_acyclic 1 hforward) (le_refl 1)
    (approving_sends_no_array diamond_sample)).mpr
  intro v works _ x y hx hy
  rw [passes_edge_of_source hconditions _ hx.1, passes_edge_of_source hconditions _ hy.1]

/-- A join of an unconditional and a conditional edge. -/
def conditional_sample : RunContext :=
  sample_context ["A", "B", "T"] [sample_edge "at" "A" "T" none, sample_edge "bt" "B" "T" (some "approved == true")] 1

/-- The second source does not approve. -/
def rejecting (_ : String) (_ : Value) : Value := .object [("approved", .bool false)]

theorem rejecting_sends_no_array (ctx : RunContext) (n : String) (inputs : Value)
    (hport : ∀ edge ∈ ctx.graph.edges, edge.from_port = "out") : SendsNoArray ctx n (rejecting n inputs) := by
  intro edge hedge _ item items hvalue
  rw [hport edge hedge] at hvalue
  cases hvalue

/-- The nodes a sample runs when the named tasks finish one after the other, if no task
is left. -/
def replayed_nodes (ctx : RunContext) (eval : String → Value → Value) (ids : List TaskId) : Option (List Activation) :=
  (replay ctx (fun task => .Success (eval task.node_id task.inputs)) (initial_state ctx) ids).bind fun run =>
    if run.2.running.isEmpty then some run.2.activations else none

theorem run_of_replayed_nodes {ctx : RunContext} {eval : String → Value → Value} {ids : List TaskId}
    {activations : List Activation} (h : replayed_nodes ctx eval ids = some activations) :
    ∃ cs s, FunctionalRun ctx eval cs s ∧ s.running = [] ∧ s.activations = activations := by
  obtain ⟨⟨cs, s⟩, hreplay, hrun⟩ := Option.bind_eq_some_iff.mp h
  simp only [Option.ite_none_right_eq_some, Option.some.injEq, List.isEmpty_iff] at hrun
  exact ⟨cs, s, run_of_replay hreplay, hrun.1, hrun.2⟩

/-- Whether the join runs depends on which source finishes last. -/
theorem conditional_join_depends_on_timing : Accepted conditional_sample ∧
    digraph.Acyclic (GraphEdge conditional_sample.graph) ∧ 1 ≤ conditional_sample.max_traversals ∧
    (∀ n inputs, SendsNoArray conditional_sample n (rejecting n inputs)) ∧
    ¬ TimingIndependent conditional_sample rejecting := by
  have hforward : ∀ edge ∈ conditional_sample.graph.edges,
      ["A", "B", "T"].idxOf edge.from_node < ["A", "B", "T"].idxOf edge.to_node := by decide +kernel
  have hport : ∀ edge ∈ conditional_sample.graph.edges, edge.from_port = "out" := by decide +kernel
  refine ⟨sample_accepted 1 (by decide +kernel), sample_acyclic 1 hforward, le_refl 1,
    fun n inputs => rejecting_sends_no_array _ n inputs hport, ?_⟩
  intro h
  have hskipped : ((replayed_nodes conditional_sample rejecting [⟨0, 0⟩, ⟨1, 0⟩]).map
      fun activations => activations.map Activation.node_id) = some ["A", "B"] := by decide +kernel
  have hstarted : ((replayed_nodes conditional_sample rejecting [⟨1, 0⟩, ⟨0, 0⟩, ⟨2, 0⟩]).map
      fun activations => activations.map Activation.node_id) = some ["A", "B", "T"] := by decide +kernel
  obtain ⟨first, hfirst, hnodes⟩ := Option.map_eq_some_iff.mp hskipped
  obtain ⟨second, hsecond, hnodes'⟩ := Option.map_eq_some_iff.mp hstarted
  obtain ⟨cs, s, hrun, hempty, rfl⟩ := run_of_replayed_nodes hfirst
  obtain ⟨cs', s', hrun', hempty', rfl⟩ := run_of_replayed_nodes hsecond
  have hagree := (h cs s cs' s' hrun hrun' hempty hempty').1
  have hmem : "T" ∈ s'.activations.map Activation.node_id := by simp [hnodes']
  obtain ⟨activation, hactivation, hnode⟩ := List.mem_map.mp hmem
  have hother : "T" ∈ s.activations.map Activation.node_id :=
    List.mem_map.mpr ⟨activation, (hagree activation).mpr hactivation, hnode⟩
  simp [hnodes] at hother

end flow_engine.executor
