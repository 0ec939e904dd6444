import FlowEngine.Executor.Dag.Branches

namespace flow_engine.executor

/-- The node of the graph was not started in the run. -/
def NeverStarted (ctx : RunContext) (s : RunState) (node_id : String) : Prop :=
  node_id ∈ ctx.graph.nodes.map NodeInstance.instance_id ∧ node_id ∉ started s

/-- The status tells a finished run from a stuck one: untaken branches leave it
completed, and it is failed only if an edge was passed to a node that never started. -/
structure SeparatesStuck (ctx : RunContext) (s : RunState) (status : RunStatus) : Prop where
  completed_of_untaken : (∀ edge ∈ ctx.graph.edges, NeverStarted ctx s edge.to_node →
    Evaluated s edge false ∨ NeverStarted ctx s edge.from_node) → status = .Completed
  stuck_of_failed : status = .Failed →
    ∃ edge ∈ ctx.graph.edges, NeverStarted ctx s edge.to_node ∧ Evaluated s edge true

/-- Every node has completed, or one that has not is blocked: it is the target of an edge
whose source completed with an output that passes it. -/
def CompleteOrBlocked (ctx : RunContext) (s : RunState) : Prop :=
  (∀ node ∈ ctx.graph.nodes, node.instance_id ∈ s.completed) ∨
  ∃ edge ∈ ctx.graph.edges, edge.to_node ∉ s.completed ∧ edge.from_node ∈ s.completed ∧
    ∃ outputs, s.node_outputs edge.from_node = some outputs ∧
      evaluate_edge_condition ctx edge outputs = true ∧ 0 < ctx.max_traversals

theorem all_reachable_done_iff {ctx : RunContext} {s : RunState} : all_reachable_done ctx s = true ↔
    ∀ node ∈ ctx.graph.nodes, node.instance_id ∈ s.completed ∨ node.instance_id ∈ s.failed := by
  simp [all_reachable_done]

section Ended

variable {ctx : RunContext} {s : RunState} (htracked : Tracked ctx s) (hphases : Phases s)
  (hended : s.running = [])
include htracked hphases hended

theorem never_started_iff {n : String} (hnode : n ∈ ctx.graph.nodes.map NodeInstance.instance_id) :
    NeverStarted ctx s n ↔ n ∉ s.completed := by
  rw [NeverStarted, htracked.mem_started_iff hended hphases]
  exact and_iff_right hnode

/-- A run whose tasks all succeeded is completed when every node of the graph is, and
failed otherwise. -/
theorem final_status_eq : final_status ctx s false =
    if ∀ node ∈ ctx.graph.nodes, node.instance_id ∈ s.completed then .Completed else .Failed := by
  have hsubset : s.completed ⊆ (ctx.graph.nodes.map NodeInstance.instance_id).toFinset := by
    intro n hn
    exact List.mem_toFinset.mpr (htracked.started_nodes n (htracked.completed_started n hn))
  have hdone : all_reachable_done ctx s = true ↔ ∀ node ∈ ctx.graph.nodes, node.instance_id ∈ s.completed := by
    simp [all_reachable_done_iff, htracked.failed_empty]
  unfold final_status
  simp only [Bool.false_eq_true, if_false, htracked.failed_empty, Finset.card_empty, Nat.add_zero, if_true,
    hphases.running_set_empty hended, true_and]
  by_cases hall : ∀ node ∈ ctx.graph.nodes, node.instance_id ∈ s.completed
  · rw [if_pos hall, if_neg]
    exact fun hstuck => hstuck.2 (hdone.mpr hall)
  · rw [if_neg hall, if_pos]
    refine ⟨Finset.card_lt_card ⟨hsubset, ?_⟩, fun htrue => hall (hdone.mp htrue)⟩
    intro hsuperset
    exact hall fun node hnode => hsuperset (List.mem_toFinset.mpr (List.mem_map_of_mem hnode))

end Ended

/-- An edge of a run on an acyclic graph was passed when its source completed with an
output that passes it, and evaluated to false when its source completed otherwise. -/
theorem Branched.evaluated_true_iff {ctx : RunContext} {s : RunState} (h : Branched ctx s) {edge : Edge}
    (hedge : edge ∈ ctx.graph.edges) : Evaluated s edge true ↔ edge.from_node ∈ s.completed ∧
      ∃ outputs, s.node_outputs edge.from_node = some outputs ∧
        evaluate_edge_condition ctx edge outputs = true ∧ 0 < ctx.max_traversals := by
  rw [h.recorded edge hedge]
  simp [passes_first]

/-- An edge is not evaluated both ways. -/
theorem Branched.evaluated_once {ctx : RunContext} {s : RunState} (h : Branched ctx s) {edge : Edge}
    (hedge : edge ∈ ctx.graph.edges) (htrue : Evaluated s edge true) : ¬ Evaluated s edge false := by
  intro hfalse
  obtain ⟨_, outputs, houtputs, hpasses⟩ := (h.recorded edge hedge true).mp htrue
  obtain ⟨_, outputs', houtputs', hpasses'⟩ := (h.recorded edge hedge false).mp hfalse
  rw [houtputs] at houtputs'
  cases houtputs'
  rw [hpasses] at hpasses'
  cases hpasses'

/-- On an acyclic graph whose tasks succeed, the status tells a finished run from a stuck
one exactly if every node has completed or one is blocked: a branch that was not taken
makes it fail. -/
theorem final_status_separates_iff {ctx : RunContext} (haccepted : Accepted ctx)
    (hacyclic : digraph.Acyclic (GraphEdge ctx.graph)) {cs : List Completion} {s : RunState}
    (hrun : RunOf ctx TaskSucceeds cs s) (hended : s.running = []) :
    SeparatesStuck ctx s (final_status ctx s false) ↔ CompleteOrBlocked ctx s := by
  have htracked := run_tracked haccepted hrun
  have hphases := run_phases_of_success haccepted hrun
  have hbranched := run_branched haccepted hacyclic hrun
  have hnever : ∀ n, n ∈ ctx.graph.nodes.map NodeInstance.instance_id → (NeverStarted ctx s n ↔ n ∉ s.completed) :=
    fun n hnode => never_started_iff htracked hphases hended hnode
  rw [final_status_eq htracked hphases hended]
  by_cases hall : ∀ node ∈ ctx.graph.nodes, node.instance_id ∈ s.completed
  · rw [if_pos hall]
    exact iff_of_true ⟨fun _ => rfl, fun hfailed => by cases hfailed⟩ (Or.inl hall)
  · rw [if_neg hall]
    constructor
    · intro hseparates
      obtain ⟨edge, hedge, htarget, hpassed⟩ := hseparates.stuck_of_failed rfl
      obtain ⟨hsource, houtputs⟩ := (hbranched.evaluated_true_iff hedge).mp hpassed
      have hopen := (hnever _ (haccepted.valid.to_node_mem edge hedge)).mp htarget
      exact Or.inr ⟨edge, hedge, hopen, hsource, houtputs⟩
    · rintro (hdone | ⟨edge, hedge, hopen, hsource, houtputs⟩)
      · exact absurd hdone hall
      · have htarget := (hnever _ (haccepted.valid.to_node_mem edge hedge)).mpr hopen
        have hpassed := (hbranched.evaluated_true_iff hedge).mpr ⟨hsource, houtputs⟩
        refine ⟨fun huntaken => ?_, fun _ => ⟨edge, hedge, htarget, hpassed⟩⟩
        cases huntaken edge hedge htarget with
        | inl hfalse => exact absurd hfalse (hbranched.evaluated_once hedge hpassed)
        | inr hnot_started =>
          have hfrom := (hnever _ (haccepted.valid.from_node_mem edge hedge)).mp hnot_started
          exact absurd hsource hfrom

/-- The handler of every node reports the same reason. -/
def tool_calls_handler (_task : Task) : NodeOutcome := .Success (.object [("finish_reason", .string "tool_calls")])

theorem replay_succeeds {ctx : RunContext} {start s : RunState} {ids : List TaskId} {cs : List Completion}
    (h : replay ctx tool_calls_handler start ids = some (cs, s)) :
    transition.Run (next_state ctx) (Finishes TaskSucceeds) start cs s := by
  refine (run_of_replay h).mono ?_
  rintro s c ⟨task, hfind, outcome, records, hjoined, rfl⟩
  exact ⟨task, hfind, _, records, hjoined, _, rfl⟩

/-- A branch whose second arm meets the untaken one in a join. -/
def blocked_sample : RunContext :=
  sample_context ["A", "B", "C", "D"] [sample_edge "ab" "A" "B" (some "finish_reason == \"tool_calls\""),
    sample_edge "ac" "A" "C" (some "finish_reason == \"stop\""), sample_edge "bd" "B" "D" none,
    sample_edge "cd" "C" "D" none] 50

theorem final_status_separates_iff_sample : ∃ cs s, RunOf blocked_sample TaskSucceeds cs s ∧ s.running = [] ∧
    SeparatesStuck blocked_sample s (final_status blocked_sample s false) := by
  have haccepted : Accepted blocked_sample := sample_accepted 50 (by decide +kernel)
  have hacyclic := sample_acyclic 50 (show ∀ edge ∈ blocked_sample.graph.edges,
    ["A", "B", "C", "D"].idxOf edge.from_node < ["A", "B", "C", "D"].idxOf edge.to_node by decide +kernel)
  have hreplay : ((replay blocked_sample tool_calls_handler (initial_state blocked_sample)
      [⟨0, 0⟩, ⟨1, 0⟩]).map fun run => (run.2.running.isEmpty, run.2.completed, (run.2.node_outputs "B").isSome)) =
        some (true, {"A", "B"}, true) := by decide +kernel
  obtain ⟨⟨cs, s⟩, hrun, hread⟩ := Option.map_eq_some_iff.mp hreplay
  simp only [Prod.mk.injEq, List.isEmpty_iff] at hread
  obtain ⟨hended, hcompleted, hsome⟩ := hread
  obtain ⟨outputs, houtputs⟩ := Option.isSome_iff_exists.mp hsome
  have hreached : RunOf blocked_sample TaskSucceeds cs s := replay_succeeds hrun
  refine ⟨cs, s, hreached, hended, (final_status_separates_iff haccepted hacyclic hreached hended).mpr ?_⟩
  refine Or.inr ⟨sample_edge "bd" "B" "D" none, by simp [blocked_sample, sample_context], ?_, ?_, outputs, houtputs,
    rfl, by decide⟩
  · rw [hcompleted]
    decide
  · rw [hcompleted]
    decide

/-- A branch with two arms. -/
def branching_sample : RunContext :=
  sample_context ["A", "B", "C"] [sample_edge "e1" "A" "B" (some "finish_reason == \"tool_calls\""),
    sample_edge "e2" "A" "C" (some "finish_reason == \"stop\"")] 50

/-- A run that took one arm of the branch, with nothing left to do, is failed. -/
theorem untaken_branch_fails_run : Accepted branching_sample ∧ digraph.Acyclic (GraphEdge branching_sample.graph) ∧
    ∃ cs s, RunOf branching_sample TaskSucceeds cs s ∧ s.running = [] ∧
      (∀ edge ∈ branching_sample.graph.edges, NeverStarted branching_sample s edge.to_node →
        Evaluated s edge false) ∧
      final_status branching_sample s false = .Failed ∧
      ¬ SeparatesStuck branching_sample s (final_status branching_sample s false) := by
  have haccepted : Accepted branching_sample := sample_accepted 50 (by decide +kernel)
  have hacyclic : digraph.Acyclic (GraphEdge branching_sample.graph) :=
    sample_acyclic 50 (show ∀ edge ∈ branching_sample.graph.edges,
      ["A", "B", "C"].idxOf edge.from_node < ["A", "B", "C"].idxOf edge.to_node by decide +kernel)
  have hreplay : ((replay branching_sample tool_calls_handler (initial_state branching_sample)
      [⟨0, 0⟩, ⟨1, 0⟩]).map fun run => (run.2.running.isEmpty, started run.2,
        (run.2.node_outputs "A").map fun outputs => branching_sample.graph.edges.map fun edge =>
          passes_first branching_sample edge outputs, final_status branching_sample run.2 false)) =
        some (true, ["A", "B"], some [true, false], .Failed) := by decide +kernel
  obtain ⟨⟨cs, s⟩, hrun, hread⟩ := Option.map_eq_some_iff.mp hreplay
  simp only [Prod.mk.injEq, List.isEmpty_iff] at hread
  obtain ⟨hended, hstarted, hpasses, hstatus⟩ := hread
  obtain ⟨outputs, houtputs, hresults⟩ := Option.map_eq_some_iff.mp hpasses
  have hreached : RunOf branching_sample TaskSucceeds cs s := replay_succeeds hrun
  have hcompleted : "A" ∈ s.completed := by
    rw [← (run_tracked haccepted hreached).mem_started_iff hended (run_phases_of_success haccepted hreached)]
    simp [hstarted]
  have huntaken : ∀ edge ∈ branching_sample.graph.edges, NeverStarted branching_sample s edge.to_node →
      Evaluated s edge false := by
    intro edge hedge hnever
    have hnot := hnever.2
    rw [hstarted] at hnot
    rw [(run_branched haccepted hacyclic hreached).recorded edge hedge]
    simp only [branching_sample, sample_context, List.mem_cons, List.not_mem_nil, or_false] at hedge
    rcases hedge with rfl | rfl
    · simp [sample_edge] at hnot
    · have hfalse : passes_first branching_sample
          (sample_edge "e2" "A" "C" (some "finish_reason == \"stop\"")) outputs = false := by
        simp only [branching_sample, sample_context, List.map_cons, List.map_nil, List.cons.injEq] at hresults
        exact hresults.2.1
      exact ⟨hcompleted, outputs, houtputs, hfalse⟩
  refine ⟨haccepted, hacyclic, cs, s, hreached, hended, huntaken, hstatus, ?_⟩
  intro hseparates
  have hdone := hseparates.completed_of_untaken fun edge hedge hnever => Or.inl (huntaken edge hedge hnever)
  rw [hstatus] at hdone
  cases hdone

end flow_engine.executor
