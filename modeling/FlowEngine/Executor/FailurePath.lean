import FlowEngine.Executor.Phases
import FlowEngine.Executor.Ready
import FlowEngine.Executor.Runs

namespace flow_engine.executor

/-- The target of an edge of the failed node that is neither over nor running as a plain node. -/
structure OpenTarget (ctx : RunContext) (s : RunState) (failed_node target : String) : Prop where
  edge : ∃ edge ∈ ctx.graph.edges, edge.from_node = failed_node ∧ edge.to_node = target
  not_completed : target ∉ s.completed
  not_failed : target ∉ s.failed
  not_running : target ∉ s.running_set

/-- The failure path finds each node once, and those the success path would start: open targets
that are not fanning out and that `is_node_ready` accepts. -/
structure FindsReadyNodes (ctx : RunContext) (s : RunState) (failed_node : String) : Prop where
  nodup : (find_ready_after_failure ctx s failed_node).Nodup
  mem_iff : ∀ target, target ∈ find_ready_after_failure ctx s failed_node ↔
    OpenTarget ctx s failed_node target ∧ is_fan_out_running s target = false ∧
      is_node_ready ctx s s.edge_traversal_counts target = true

/-- What the failure path looks at: all sources of the target are over, back-edges or not, and
one of them has completed. -/
structure SourcesOver (ctx : RunContext) (s : RunState) (target : String) : Prop where
  all : ∀ edge ∈ ctx.graph.edges, edge.to_node = target → edge.from_node ∈ s.completed ∨ edge.from_node ∈ s.failed
  one : ∃ edge ∈ ctx.graph.edges, edge.to_node = target ∧ edge.from_node ∈ s.completed

/-- What `is_node_ready` looks at: the sources of forward edges are over, and a forward edge from
a completed one is satisfied. -/
structure ForwardReady (ctx : RunContext) (s : RunState) (target : String) : Prop where
  all : ∀ edge ∈ ctx.graph.edges, edge.to_node = target → edge.id ∉ find_back_edges ctx.graph →
    edge.from_node ∈ s.completed ∨ edge.from_node ∈ s.failed
  one : ∃ edge ∈ ctx.graph.edges, edge.to_node = target ∧ satisfied ctx s edge

/-- Where the two tests of an open target coincide: if all its sources are over and one has
completed, then it is not fanning out, one edge leads to it from the failed node, and one of its
forward edges is satisfied; and where it is ready and not fanning out, no back-edge into it
comes from a node that is not over. -/
structure TestsCoincide (ctx : RunContext) (s : RunState) (failed_node target : String) : Prop where
  not_fanning_out : SourcesOver ctx s target → is_fan_out_running s target = false
  one_edge : SourcesOver ctx s target → ∀ first ∈ ctx.graph.edges, ∀ second ∈ ctx.graph.edges,
    first.from_node = failed_node ∧ first.to_node = target → second.from_node = failed_node ∧ second.to_node = target →
      first = second
  passing : SourcesOver ctx s target → ∃ edge ∈ ctx.graph.edges, edge.to_node = target ∧ satisfied ctx s edge
  back_edges : ForwardReady ctx s target → is_fan_out_running s target = false → ∀ edge ∈ ctx.graph.edges,
    edge.to_node = target → edge.id ∈ find_back_edges ctx.graph → edge.from_node ∈ s.completed ∨ edge.from_node ∈ s.failed

variable {ctx : RunContext} {s : RunState} {failed_node target : String}

theorem mem_find_ready_iff_over : target ∈ find_ready_after_failure ctx s failed_node ↔
    OpenTarget ctx s failed_node target ∧ SourcesOver ctx s target := by
  rw [mem_find_ready_after_failure]
  constructor
  · rintro ⟨hedge, hcompleted, hfailed, hrunning, hall, hone⟩
    exact ⟨⟨hedge, hcompleted, hfailed, hrunning⟩, hall, hone⟩
  · rintro ⟨⟨hedge, hcompleted, hfailed, hrunning⟩, hall, hone⟩
    exact ⟨hedge, hcompleted, hfailed, hrunning, hall, hone⟩

theorem OpenTarget.ready_iff (h : OpenTarget ctx s failed_node target) (hcounts : CountsBounded ctx s.edge_traversal_counts) :
    is_node_ready ctx s s.edge_traversal_counts target = true ↔ ForwardReady ctx s target := by
  obtain ⟨edge, hedge, _, hto⟩ := h.edge
  rw [is_node_ready_iff hcounts]
  constructor
  · rintro (hnone | ⟨hall, hone⟩)
    · exact absurd hto (hnone edge hedge)
    · exact ⟨hall, hone⟩
  · exact fun hready => .inr ⟨hready.all, hready.one⟩

/-- The two tests of a failed node's targets agree in a state exactly if they coincide on each. -/
theorem findsReadyNodes_iff (hedges : ctx.graph.edges.Nodup) (hcounts : CountsBounded ctx s.edge_traversal_counts) :
    FindsReadyNodes ctx s failed_node ↔
      ∀ target, OpenTarget ctx s failed_node target → TestsCoincide ctx s failed_node target := by
  constructor
  · rintro ⟨hnodup, hmem⟩ target hopen
    have hfound : SourcesOver ctx s target → target ∈ find_ready_after_failure ctx s failed_node :=
      fun hover => mem_find_ready_iff_over.mpr ⟨hopen, hover⟩
    constructor
    · exact fun hover => ((hmem target).mp (hfound hover)).2.1
    · exact fun hover => (find_ready_nodup_iff hedges).mp hnodup target (hfound hover)
    · exact fun hover => ((hopen.ready_iff hcounts).mp ((hmem target).mp (hfound hover)).2.2).one
    · intro hready hfan edge hedge hto _
      have hin := (hmem target).mpr ⟨hopen, hfan, (hopen.ready_iff hcounts).mpr hready⟩
      exact (mem_find_ready_iff_over.mp hin).2.all edge hedge hto
  · intro hcoincide
    constructor
    · rw [find_ready_nodup_iff hedges]
      intro target htarget
      obtain ⟨hopen, hover⟩ := mem_find_ready_iff_over.mp htarget
      exact (hcoincide target hopen).one_edge hover
    · intro target
      rw [mem_find_ready_iff_over]
      refine and_congr_right fun hopen => ?_
      have h := hcoincide target hopen
      rw [hopen.ready_iff hcounts]
      constructor
      · exact fun hover => ⟨h.not_fanning_out hover, fun edge hedge hto _ => hover.all edge hedge hto, h.passing hover⟩
      · rintro ⟨hfan, hready⟩
        constructor
        · intro edge hedge hto
          by_cases hback : edge.id ∈ find_back_edges ctx.graph
          · exact h.back_edges hready hfan edge hedge hto hback
          · exact hready.all edge hedge hto hback
        · obtain ⟨edge, hedge, hto, _, hcompleted, _⟩ := hready.one
          exact ⟨edge, hedge, hto, hcompleted⟩

/-- A plain node has just failed: in a reached state its task was joined with a failure, and the
failure is accounted for. -/
inductive JustFailed (ctx : RunContext) (failed_node : String) : RunState → Prop where
  | intro {cs : List Completion} {before : RunState} {c : Completion} {task : Task} {error : String}
      {records : List LlmInvocationRecord}
      (hrun : transition.Run (next_state ctx) (fun _ _ => True) (initial_state ctx) cs before)
      (hfind : before.running.find? (fun task => task.id = c.task) = some task)
      (hjoined : c.joined = .returned (.Failed error) records)
      (hplain : task.fan_out_index = none ∧ task.node_id = failed_node) :
      JustFailed ctx failed_node (fail_node (joined ctx before c task) failed_node)

/-- When a plain node has just failed, the failure path finds what the success path would
exactly if the two tests coincide on each open target of the node. -/
theorem failure_path_ready_iff (haccepted : Accepted ctx) (hfailed : JustFailed ctx failed_node s) :
    FindsReadyNodes ctx s failed_node ↔
      ∀ target, OpenTarget ctx s failed_node target → TestsCoincide ctx s failed_node target := by
  obtain @⟨_, before, c, task, _, _, hrun, _, _, _⟩ := hfailed
  -- Joining a task and accounting for its failure leave the traversal counts alone.
  have hcounts : CountsBounded ctx before.edge_traversal_counts := run_countsBounded hrun
  exact findsReadyNodes_iff (List.Nodup.of_map _ haccepted.valid.edge_ids_nodup) hcounts

/-- Two entry nodes before a node. -/
def failing_join_sample : RunContext :=
  sample_context ["A", "B", "T"] [sample_edge "at" "A" "T" none, sample_edge "bt" "B" "T" none] 50

/-- Two edges from one of them, and a condition on the edge from the other. -/
def parallel_join_sample : RunContext :=
  sample_context ["A", "B", "T"] [sample_edge "at" "A" "T" none, sample_edge "at2" "A" "T" none,
    sample_edge "bt" "B" "T" (some "finish_reason == \"stop\"")] 50

/-- The second entry node completes. -/
def other_completes : Completion := ⟨⟨1, 0⟩, .returned (.Success (.object [("finish_reason", .string "tool_calls")])) []⟩

/-- The first one fails. -/
def first_fails : Completion := ⟨⟨0, 0⟩, .returned (.Failed "boom") []⟩

/-- What is known of the state in which the first node has failed after the second completed. -/
def after_failure (ctx : RunContext) : Option RunState := do
  let before ← next_state ctx (initial_state ctx) other_completes
  let task ← before.running.find? fun task => task.id = first_fails.task
  if task.fan_out_index = none ∧ task.node_id = "A" then some (fail_node (joined ctx before first_fails task) "A") else none

theorem just_failed (h : after_failure ctx = some s) : JustFailed ctx "A" s := by
  obtain ⟨before, hbefore, hrest⟩ := Option.bind_eq_some_iff.mp h
  obtain ⟨task, htask, hrest⟩ := Option.bind_eq_some_iff.mp hrest
  split at hrest
  · rename_i hplain
    cases hrest
    exact .intro (transition.Run.nil.snoc trivial hbefore) htask rfl hplain
  · cases hrest

theorem failure_path_ready_iff_sample : ∃ s, JustFailed failing_join_sample "A" s ∧
    find_ready_after_failure failing_join_sample s "A" = ["T"] ∧ FindsReadyNodes failing_join_sample s "A" := by
  have hread : (after_failure failing_join_sample).map (fun s => (find_ready_after_failure failing_join_sample s "A",
      s.completed, (s.node_outputs "B").isSome, is_fan_out_running s "T")) = some (["T"], {"B"}, true, false) := by
    decide +kernel
  obtain ⟨s, hs, hread⟩ := Option.map_eq_some_iff.mp hread
  simp only [Prod.mk.injEq] at hread
  obtain ⟨hfound, hcompleted, hsome, hfan⟩ := hread
  have hfailed := just_failed hs
  obtain ⟨outputs, houtputs⟩ := Option.isSome_iff_exists.mp hsome
  refine ⟨s, hfailed, hfound, (failure_path_ready_iff (sample_accepted 50 (by decide +kernel)) hfailed).mpr ?_⟩
  intro target hopen
  obtain ⟨edge, hedge, hfrom, hto⟩ := hopen.edge
  have htargets : ∀ edge ∈ failing_join_sample.graph.edges, edge.to_node = "T" := by decide
  rw [htargets edge hedge] at hto
  subst hto
  have hback : ∀ edge ∈ failing_join_sample.graph.edges, edge.id ∉ find_back_edges failing_join_sample.graph := by
    decide +kernel
  constructor
  · exact fun _ => hfan
  · intro _ first hfirst second hsecond hleads hleads'
    have hone : ∀ first ∈ failing_join_sample.graph.edges, ∀ second ∈ failing_join_sample.graph.edges,
        first.from_node = "A" → second.from_node = "A" → first = second := by decide
    exact hone first hfirst second hsecond hleads.1 hleads'.1
  · intro _
    have hbt : sample_edge "bt" "B" "T" none ∈ failing_join_sample.graph.edges := by decide
    refine ⟨_, hbt, rfl, hback _ hbt, ?_, outputs, houtputs, rfl⟩
    rw [hcompleted]
    exact Finset.mem_singleton_self _
  · exact fun _ _ edge hedge _ hin => absurd hin (hback edge hedge)

/-- A node whose only completed source does not send it is found, and found twice. -/
theorem failure_path_starts_twice : Accepted parallel_join_sample ∧ ∃ s, JustFailed parallel_join_sample "A" s ∧
    find_ready_after_failure parallel_join_sample s "A" = ["T", "T"] ∧
    is_node_ready parallel_join_sample s s.edge_traversal_counts "T" = false ∧
    ¬ FindsReadyNodes parallel_join_sample s "A" := by
  have hread : (after_failure parallel_join_sample).map (fun s => (find_ready_after_failure parallel_join_sample s "A",
      is_node_ready parallel_join_sample s s.edge_traversal_counts "T")) = some (["T", "T"], false) := by
    decide +kernel
  obtain ⟨s, hs, hread⟩ := Option.map_eq_some_iff.mp hread
  obtain ⟨hfound, hready⟩ := Prod.mk.inj hread
  refine ⟨sample_accepted 50 (by decide +kernel), s, just_failed hs, hfound, hready, fun hfinds => ?_⟩
  have hnodup := hfinds.nodup
  rw [hfound] at hnodup
  exact absurd hnodup (by decide)

end flow_engine.executor
