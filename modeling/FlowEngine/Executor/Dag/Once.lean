import FlowEngine.Executor.Dag.Steps

namespace flow_engine.executor

open dataflow (Activated Legal found keys)

section Activated

variable {ctx : RunContext} {order : List (String × NodeEnd)} {v : String} {w : Work}

/-- Where a node with sources gets its work from: a done source's edge, or another done
source when the last one failed. -/
theorem activated_cases (h : Activated (net ctx) order v w) :
    (sources ctx v = [] ∧ v ∈ ctx.graph.nodes.map NodeInstance.instance_id ∧ w = .plain ctx.inputs) ∨
    (∃ x outputs from_fan_in edge, dataflow.Closes (net ctx) order x v ∧ x ∈ sources ctx v ∧
      found order x = some (.done outputs from_fan_in) ∧ passing_edge ctx outputs x v = some edge ∧
      w = match fan_out_items outputs edge from_fan_in with
        | some items => .fan_out items
        | none => join_work ctx (found order) v) ∨
    (∃ x, dataflow.Closes (net ctx) order x v ∧ x ∈ sources ctx v ∧ found order x = some .failed ∧
      (∃ u ∈ sources ctx v, is_done (found order) u = true) ∧ w = join_work ctx (found order) v) := by
  rcases h with ⟨hnil, hroot⟩ | ⟨x, hx, hwake⟩
  · simp only [net] at hroot
    split at hroot
    · rename_i hnode
      exact Or.inl ⟨hnil, hnode, (Option.some.inj hroot).symm⟩
    · cases hroot
  · have hsource : x ∈ sources ctx v := hx.1
    change wake ctx (found order) x v = some w at hwake
    unfold wake at hwake
    cases hfound : found order x with
    | none => simp [hfound] at hwake
    | some end_of_x =>
      cases end_of_x with
      | failed =>
        simp only [hfound, Option.ite_none_right_eq_some, Option.some.injEq] at hwake
        exact Or.inr (Or.inr ⟨x, hx, hsource, hfound, List.any_eq_true.mp hwake.1, hwake.2.symm⟩)
      | done outputs from_fan_in =>
        cases hpassing : passing_edge ctx outputs x v with
        | none => simp [hfound, hpassing] at hwake
        | some edge =>
          refine Or.inr (Or.inl ⟨x, outputs, from_fan_in, edge, hx, hsource, hfound, hpassing, ?_⟩)
          cases hitems : fan_out_items outputs edge from_fan_in <;>
            simp only [hfound, hpassing, hitems, Option.some.injEq] at hwake <;> exact hwake.symm

/-- Only nodes of the graph are activated. -/
theorem activated_mem_nodes (haccepted : Accepted ctx) (h : Activated (net ctx) order v w) :
    v ∈ ctx.graph.nodes.map NodeInstance.instance_id := by
  have htarget : ∀ x, x ∈ sources ctx v → v ∈ ctx.graph.nodes.map NodeInstance.instance_id := by
    intro x hx
    obtain ⟨edge, hedge, _, rfl⟩ := mem_sources.mp hx
    exact haccepted.valid.to_node_mem edge hedge
  rcases activated_cases h with ⟨_, hnode, _⟩ | ⟨x, _, _, _, _, hsource, _⟩ | ⟨x, _, hsource, _⟩
  · exact hnode
  · exact htarget x hsource
  · exact htarget x hsource

end Activated

/-- No node is activated twice, none before its sources are over and one of them is
done, and every node is in one phase at most. -/
structure OnceAndNeverEarly (ctx : RunContext) (s : RunState) : Prop where
  once : (s.activations.map Activation.node_id).Nodup
  sources_over : ∀ activation ∈ s.activations, ∀ edge ∈ ctx.graph.edges, edge.to_node = activation.node_id →
    edge.from_node ∈ s.completed ∨ edge.from_node ∈ s.failed
  source_done : ∀ activation ∈ s.activations, activation.node_id ∉ entry_nodes ctx →
    ∃ edge ∈ ctx.graph.edges, edge.to_node = activation.node_id ∧ edge.from_node ∈ s.completed
  completed_not_failed : ∀ n ∈ s.completed, n ∉ s.failed
  running_not_over : ∀ n ∈ s.running_set, n ∉ s.completed ∧ n ∉ s.failed
  fanning_not_over : ∀ n, s.fan_out_states n ≠ none → n ∉ s.completed ∧ n ∉ s.failed
  running_not_fanning : ∀ n ∈ s.running_set, s.fan_out_states n = none

section Refined

variable {ctx : RunContext} {ends : WorkEnds} {order : List (String × NodeEnd)} {s : RunState}
  (h : Refines ctx ends order s)
include h

theorem Refines.over_iff (u : String) : u ∈ s.completed ∨ u ∈ s.failed ↔ u ∈ keys order :=
  executor.over_iff h.legal h.completed h.failed u

theorem Refines.once_and_never_early (hacyclic : digraph.Acyclic (GraphEdge ctx.graph)) : OnceAndNeverEarly ctx s := by
  have hover : ∀ n, n ∉ keys order → n ∉ s.completed ∧ n ∉ s.failed := fun n hnot =>
    ⟨fun hmem => hnot ((h.over_iff n).mp (Or.inl hmem)), fun hmem => hnot ((h.over_iff n).mp (Or.inr hmem))⟩
  have hdone : ∀ u, is_done (found order) u = true → u ∈ s.completed := by
    intro u hu
    unfold is_done at hu
    rw [h.completed]
    cases hfound : found order u with
    | none => simp [hfound] at hu
    | some end_of_u =>
      cases end_of_u with
      | failed => simp [hfound] at hu
      | done outputs from_fan_in => exact ⟨outputs, from_fan_in, rfl⟩
  constructor
  · exact h.once
  · intro activation hmem edge hedge hto
    have hactive := (h.activated _ _).mp hmem
    exact (h.over_iff _).mpr (hactive.sources_mem _ (mem_sources.mpr ⟨edge, hedge, rfl, hto⟩))
  · intro activation hmem hentry
    have hsource : ∃ u ∈ sources ctx activation.node_id, u ∈ s.completed := by
      rcases activated_cases ((h.activated _ _).mp hmem) with
        ⟨hnil, hnode, _⟩ | ⟨x, outputs, from_fan_in, _, _, hsource, hfound, _⟩ | ⟨_, _, _, _, ⟨u, hu, hdone_u⟩, _⟩
      · exact absurd ((mem_entry_nodes_of_acyclic hacyclic rfl).mpr ⟨hnode, sources_eq_nil_iff.mp hnil⟩) hentry
      · exact ⟨x, hsource, (h.completed x).mpr ⟨outputs, from_fan_in, hfound⟩⟩
      · exact ⟨u, hu, hdone u hdone_u⟩
    obtain ⟨u, hu, hcompleted⟩ := hsource
    obtain ⟨edge, hedge, rfl, hto⟩ := mem_sources.mp hu
    exact ⟨edge, hedge, hto, hcompleted⟩
  · intro n hcompleted hfailed
    obtain ⟨outputs, from_fan_in, hfound⟩ := (h.completed n).mp hcompleted
    rw [(h.failed n).mp hfailed] at hfound
    cases hfound
  · exact fun n hrunning => hover n ((h.running n).mp hrunning).1
  · exact fun n hfanning => hover n ((h.fanning n).mp hfanning).1
  · exact fun n hrunning => h.not_fanning hrunning

end Refined

/-- The handlers whose outputs hold short arrays. -/
def short_handlers (ctx : RunContext) : Handlers := fun node_id _ outcome =>
  ∀ outputs, outcome = .Success outputs → SmallArrays ctx node_id outputs

/-- Where outputs hold short arrays, a run without parallel edges is an order of the network. -/
theorem run_refines_short {ctx : RunContext} (haccepted : Accepted ctx)
    (hacyclic : digraph.Acyclic (GraphEdge ctx.graph)) (hparallel : NoParallelEdges ctx.graph)
    {may : Task → NodeOutcome → Prop}
    (hsmall : ∀ task outputs, may task (.Success outputs) → SmallArrays ctx task.node_id outputs)
    {cs : List Completion} {s : RunState} (hrun : RunOf ctx may cs s) :
    (∃ order, Refines ctx (Ends (short_handlers ctx)) order s) ∧ Phases s := by
  have hshort : RunOf ctx (short_handlers ctx).of_task cs s := by
    refine hrun.mono ?_
    rintro s c ⟨task, hfind, outcome, records, hjoined, hmay⟩
    refine ⟨task, hfind, outcome, records, hjoined, ?_⟩
    rintro outputs rfl
    exact hsmall task outputs hmay
  exact run_refines haccepted hacyclic (Or.inl hparallel) (fun _ _ outputs hmay => hmay outputs rfl) hshort

/-- On an acyclic graph without parallel edges no node is activated twice or early,
whatever fails. -/
theorem dag_activates_once {ctx : RunContext} (haccepted : Accepted ctx)
    (hacyclic : digraph.Acyclic (GraphEdge ctx.graph)) (hparallel : NoParallelEdges ctx.graph)
    {may : Task → NodeOutcome → Prop}
    (hsmall : ∀ task outputs, may task (.Success outputs) → SmallArrays ctx task.node_id outputs)
    {cs : List Completion} {s : RunState} (hrun : RunOf ctx may cs s) : OnceAndNeverEarly ctx s := by
  obtain ⟨⟨order, h⟩, _⟩ := run_refines_short haccepted hacyclic hparallel hsmall hrun
  exact h.once_and_never_early hacyclic

/-- A fork whose branches meet again; the first branch fails. -/
def failing_fork_sample : RunContext :=
  sample_context ["A", "B", "C", "D"] [sample_edge "ab" "A" "B" none, sample_edge "ac" "A" "C" none,
    sample_edge "bd" "B" "D" none, sample_edge "cd" "C" "D" none] 1

def failing_fork_handler (task : Task) : NodeOutcome :=
  if task.node_id = "B" then .Failed "broken" else .Success .null

theorem dag_activates_once_sample : ∃ cs s,
    RunOf failing_fork_sample (fun task outcome => outcome = failing_fork_handler task) cs s ∧
      s.activations.map Activation.node_id = ["A", "B", "C", "D"] ∧ OnceAndNeverEarly failing_fork_sample s := by
  have haccepted : Accepted failing_fork_sample := sample_accepted 1 (by decide +kernel)
  have hacyclic := sample_acyclic 1 (show ∀ edge ∈ failing_fork_sample.graph.edges,
    ["A", "B", "C", "D"].idxOf edge.from_node < ["A", "B", "C", "D"].idxOf edge.to_node by decide +kernel)
  have hparallel : NoParallelEdges failing_fork_sample.graph := by
    unfold NoParallelEdges
    decide +kernel
  have hsmall : ∀ task outputs, .Success outputs = failing_fork_handler task →
      SmallArrays failing_fork_sample task.node_id outputs := by
    intro task outputs houtputs edge _ _ items hitems
    unfold failing_fork_handler at houtputs
    split at houtputs
    · cases houtputs
    · cases houtputs
      cases hitems
  have hreplay : ((replay failing_fork_sample failing_fork_handler (initial_state failing_fork_sample)
      [⟨0, 0⟩, ⟨2, 0⟩, ⟨1, 0⟩]).map fun run => run.2.activations.map Activation.node_id) =
        some ["A", "B", "C", "D"] := by decide +kernel
  obtain ⟨⟨cs, s⟩, hrun, hnodes⟩ := Option.map_eq_some_iff.mp hreplay
  have hrun := run_of_replay hrun
  exact ⟨cs, s, hrun, hnodes, dag_activates_once haccepted hacyclic hparallel hsmall hrun⟩

end flow_engine.executor
