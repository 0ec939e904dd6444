import FlowEngine.Executor.Started

namespace flow_engine.executor

/-- The books of a run at rest: nothing is marked as running, every started node has ended,
only nodes of the graph that ended so have failed, and a panic was processed like an error. -/
structure Quiescent (ctx : RunContext) (cs : List Completion) (s : RunState) : Prop where
  running_set_empty : s.running_set = ∅
  no_fan_out : ∀ n, s.fan_out_states n = none
  accounted : ∀ n ∈ started s, n ∈ s.completed ∨ n ∈ s.failed
  failed_own : ∀ n ∈ s.failed, n ∈ ctx.graph.nodes.map NodeInstance.instance_id ∧ (n, .failed) ∈ node_ends ctx cs
  panics_like_errors : ∀ before c after reached, cs = before ++ c :: after →
    transition.Run (next_state ctx) (fun _ _ => True) (initial_state ctx) before reached →
      ∀ error, c.joined = .panicked error → ∀ message,
        next_state ctx reached c = next_state ctx reached { c with joined := .returned (.Failed message) [] }

/-- A panic under the node's own id is an error without LLM records. -/
theorem next_state_panic {ctx : RunContext} {s : RunState} {c : Completion} {error : String}
    (hjoined : c.joined = .panicked error) (hnamed : PanicsNamed s c) (message : String) :
    next_state ctx s c = next_state ctx s { c with joined := .returned (.Failed message) [] } := by
  unfold next_state
  cases hfind : s.running.find? fun task => task.id = c.task with
  | none => rfl
  | some task =>
    obtain ⟨hindex, hnode⟩ := hnamed error hjoined task hfind
    simp [process_result, settle, collect_llm_records, node_result, hjoined, hindex, hnode]

/-- A run whose panics are all under the node's own id is at rest when no task is left. -/
theorem quiescent_of_panics_named {ctx : RunContext} (haccepted : Accepted ctx) {cs : List Completion} {s : RunState}
    (hrun : transition.Run (next_state ctx) PanicsNamed (initial_state ctx) cs s) (hended : s.running = []) :
    Quiescent ctx cs s := by
  have h := run_settling haccepted hrun
  have hempty : s.running_set = ∅ := by
    rw [Finset.eq_empty_iff_forall_notMem]
    intro n hn
    obtain ⟨task, htask, _⟩ := h.plain_running n hn
    rw [hended] at htask
    cases htask
  have hclosed := no_open_fan_out hended h.fan_outs
  refine ⟨hempty, hclosed, ?_, ?_, ?_⟩
  · intro n hn
    rcases h.started_settling n hn with hcompleted | hfailed | hrunning | hfan
    · exact Or.inl hcompleted
    · exact Or.inr hfailed
    · rw [hempty] at hrunning
      exact absurd hrunning (Finset.notMem_empty n)
    · exact absurd (hclosed n) hfan
  · intro n hn
    obtain ⟨hstarted, hfailed⟩ := h.failed_ended n hn
    exact ⟨h.started_nodes n hstarted, hfailed⟩
  · rintro before c after reached rfl hreached error hjoined message
    obtain ⟨middle, _, hmiddle, hnamed, _⟩ := hrun.split
    rw [← hmiddle.unique hreached]
    exact next_state_panic hjoined hnamed message

/-- One node, and its task panics. -/
def panicking_sample (node_id : String) : RunContext := sample_context [node_id] [] 50

def panicking : List Completion := [⟨⟨0, 0⟩, .panicked "boom"⟩]

theorem quiescent_of_panics_named_sample : ∃ s, s.running = [] ∧ s.failed = {"unknown"} ∧
    Quiescent (panicking_sample "unknown") panicking s := by
  have hstep : (next_state (panicking_sample "unknown") (initial_state (panicking_sample "unknown"))
      ⟨⟨0, 0⟩, .panicked "boom"⟩).map (fun s => (s.running.isEmpty, s.failed)) = some (true, {"unknown"}) := by
    decide +kernel
  obtain ⟨s, hnext, hread⟩ := Option.map_eq_some_iff.mp hstep
  obtain ⟨hended, hfailed⟩ := Prod.mk.inj hread
  have hnamed : ∀ task ∈ (initial_state (panicking_sample "unknown")).running,
      task.fan_out_index = none ∧ task.node_id = "unknown" := by decide +kernel
  have hrun : transition.Run (next_state (panicking_sample "unknown")) PanicsNamed
      (initial_state (panicking_sample "unknown")) panicking s :=
    transition.Run.nil.snoc (fun _ _ task hfind => hnamed task (List.mem_of_find?_eq_some hfind)) hnext
  exact ⟨s, List.isEmpty_iff.mp hended, hfailed,
    quiescent_of_panics_named (sample_accepted 50 (by decide +kernel)) hrun (List.isEmpty_iff.mp hended)⟩

/-- A panicked node stays marked as running, and another one is failed. -/
theorem panicked_node_not_settled : Accepted (panicking_sample "A") ∧ ∃ s,
    transition.Run (next_state (panicking_sample "A")) (fun _ _ => True) (initial_state (panicking_sample "A"))
      panicking s ∧ s.running = [] ∧ s.running_set = {"A"} ∧ s.failed = {"unknown"} ∧
      ¬ Quiescent (panicking_sample "A") panicking s := by
  have hfold : (panicking.foldlM (next_state (panicking_sample "A")) (initial_state (panicking_sample "A"))).map
      (fun s => (s.running.isEmpty, s.running_set, s.failed)) = some (true, {"A"}, {"unknown"}) := by
    decide +kernel
  obtain ⟨s, hrun, hread⟩ := Option.map_eq_some_iff.mp hfold
  simp only [Prod.mk.injEq, List.isEmpty_iff] at hread
  obtain ⟨hended, hrunning, hfailed⟩ := hread
  refine ⟨sample_accepted 50 (by decide +kernel), s, transition.run_of_foldlM hrun, hended, hrunning, hfailed, ?_⟩
  intro hquiescent
  rw [hquiescent.running_set_empty] at hrunning
  exact absurd hrunning (by decide)

end flow_engine.executor
