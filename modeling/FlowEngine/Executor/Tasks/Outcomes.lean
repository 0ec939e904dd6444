import FlowEngine.Executor.Tasks.Causality

namespace flow_engine.executor

/-- The joined task is the single task of the node, and it failed. -/
def FailedAlone (node_id : String) (j : Task × JoinResult) : Prop :=
  j.1.node_id = node_id ∧ j.1.fan_out_index = none ∧ ∃ error records, j.2 = .returned (.Failed error) records

/-- The sets of ended nodes come from the joined tasks: the failed ones from single tasks
that failed. -/
structure Accounted (joins : List (Task × JoinResult)) (s : RunState) : Prop where
  failed_iff : ∀ n, n ∈ s.failed ↔ ∃ j ∈ joins, FailedAlone n j
  completed : ∀ n ∈ s.completed, ∃ j ∈ joins, j.1.node_id = n

section Loop

variable {ctx : RunContext} {s next : RunState} {c : Completion}

theorem spawn_ready_nodes_ended (nodes : List ReadyNode) (s : RunState) :
    (spawn_ready_nodes ctx nodes s).failed = s.failed ∧ (spawn_ready_nodes ctx nodes s).completed ⊆ s.completed := by
  induction nodes generalizing s with
  | nil => exact ⟨rfl, fun _ hn => hn⟩
  | cons ready rest ih =>
    obtain ⟨hfailed, hcompleted⟩ := ih (spawn_ready_node ctx s ready)
    rw [spawn_ready_node_failed] at hfailed
    rw [spawn_ready_node_completed] at hcompleted
    exact ⟨hfailed, fun n hn => reopen_completed_subset s ready (hcompleted hn)⟩

theorem evaluate_downstream_ended (hcounts : CountsBounded ctx s.edge_traversal_counts) (node_id : String)
    (outputs : Value) (from_fan_in : Bool) :
    (evaluate_downstream ctx s node_id outputs from_fan_in).failed = s.failed ∧
      (evaluate_downstream ctx s node_id outputs from_fan_in).completed ⊆ s.completed := by
  rw [evaluate_downstream_eq hcounts]
  exact spawn_ready_nodes_ended _ _

theorem proceed_after_failure_ended (ctx : RunContext) (s : RunState) (node_id : String) :
    (proceed_after_failure ctx s node_id).failed = insert node_id s.failed ∧
      (proceed_after_failure ctx s node_id).completed ⊆ s.completed := by
  rw [proceed_after_failure_eq]
  exact spawn_ready_nodes_ended _ _

/-- A step fails the node of a single task that failed, and completes at most the node of
the joined task. -/
theorem next_state_ended (hcounts : CountsBounded ctx s.edge_traversal_counts) (hstep : next_state ctx s c = some next)
    (hpanic : ∀ error, c.joined ≠ .panicked error) {task : Task}
    (hfind : s.running.find? (fun task => task.id = c.task) = some task) :
    (∀ n, n ∈ next.failed ↔ n ∈ s.failed ∨ FailedAlone n (task, c.joined)) ∧
      ∀ n ∈ next.completed, n ∈ s.completed ∨ task.node_id = n := by
  have hsucceeds : ∀ n outputs records, c.joined = .returned (.Success outputs) records →
      ¬ FailedAlone n (task, c.joined) := by
    rintro n outputs records hjoined ⟨_, _, error, other, hfailed⟩
    cases hjoined.symm.trans hfailed
  have hinstance : ∀ n index, task.fan_out_index = some index → ¬ FailedAlone n (task, c.joined) := by
    rintro n index hindex ⟨_, hsingle, _⟩
    cases hindex.symm.trans hsingle
  obtain ⟨found, hfound, hcase⟩ := next_state_cases hstep
  cases hfound.symm.trans hfind
  cases hcase with
  | plain_success hjoined hindex =>
    obtain ⟨hfailed, hcompleted⟩ := evaluate_downstream_ended
      (show CountsBounded ctx (complete_plain (joined ctx s c task) task.node_id _).edge_traversal_counts from hcounts)
      task.node_id _ false
    refine ⟨fun n => ?_, fun n hn => ?_⟩
    · rw [hfailed]
      exact (or_iff_left (hsucceeds n _ _ hjoined)).symm
    · exact (Finset.mem_insert.mp (hcompleted hn)).symm.imp_right Eq.symm
  | plain_failure hjoined hindex =>
    obtain ⟨hfailed, hcompleted⟩ := proceed_after_failure_ended ctx (joined ctx s c task) task.node_id
    refine ⟨fun n => ?_, fun n hn => Or.inl (hcompleted hn)⟩
    rw [hfailed]
    change n ∈ insert task.node_id s.failed ↔ _
    rw [Finset.mem_insert, or_comm]
    refine or_congr_right ⟨fun heq => ⟨heq.symm, hindex, _, _, hjoined⟩, fun h => h.1.symm⟩
  | panic hjoined => exact absurd hjoined (hpanic _)
  | instance_dropped hjoined hindex hstate =>
    exact ⟨fun n => (or_iff_left (hinstance n _ hindex)).symm, fun n hn => Or.inl hn⟩
  | instance_kept hjoined hindex hstate hbound hmore =>
    exact ⟨fun n => (or_iff_left (hinstance n _ hindex)).symm, fun n hn => Or.inl hn⟩
  | fan_in hjoined hindex hstate hbound hlast =>
    obtain ⟨hfailed, hcompleted⟩ := evaluate_downstream_ended
      (show CountsBounded ctx (complete_fan_in (joined ctx s c task) task.node_id _).edge_traversal_counts from hcounts)
      task.node_id _ true
    refine ⟨fun n => ?_, fun n hn => ?_⟩
    · rw [hfailed]
      exact (or_iff_left (hinstance n _ hindex)).symm
    · exact (Finset.mem_insert.mp (hcompleted hn)).symm.imp_right Eq.symm

theorem Accounted.step {joins : List (Task × JoinResult)} (h : Accounted joins s)
    (hcounts : CountsBounded ctx s.edge_traversal_counts) (hstep : next_state ctx s c = some next)
    (hpanic : ∀ error, c.joined ≠ .panicked error) {task : Task}
    (hfind : s.running.find? (fun task => task.id = c.task) = some task) :
    Accounted (joins ++ [(task, c.joined)]) next := by
  obtain ⟨hfailed, hcompleted⟩ := next_state_ended hcounts hstep hpanic hfind
  constructor
  · intro n
    rw [hfailed, h.failed_iff]
    simp [or_and_right, exists_or]
  · intro n hn
    cases hcompleted n hn with
    | inl hbefore =>
      obtain ⟨j, hj, hnode⟩ := h.completed n hbefore
      exact ⟨j, List.mem_append_left _ hj, hnode⟩
    | inr hnode => exact ⟨_, List.mem_append_right _ (List.mem_singleton_self _), hnode⟩

end Loop

section Live

variable {ctx : RunContext} {behave : Task → Behaviour} {x : Live}

theorem run_accounted (haccepted : Accepted ctx) (hpanic : ∀ task, (behave task).NoPanic) {first_seq : Nat}
    {moves : List Move} (hrun : LiveRun ctx behave first_seq moves x) : Accounted x.joins x.ahead := by
  refine hrun.invariant (P := fun _ x => Accounted x.joins x.ahead) ?_ ?_
  · change Accounted [] (initial_state ctx)
    rw [initial_state_eq fun entry hentry => entry_nodes_spawnable haccepted hentry]
    constructor <;> simp
  · intro moves x move y hreached h _ hstep
    have hin_step := run_in_step hreached
    cases live_step_cases hstep with
    | write hfind hevent => exact h
    | @join task next hbetween hfind hwritten hnext =>
      rw [ahead_eq_loop hbetween] at h
      obtain ⟨outcome, records, hreturned, _⟩ := @script_ending ctx behave task (hpanic task)
      exact h.step (run_countsBounded (hin_step.between hbetween)) hnext
        (fun error heq => by cases hreturned.symm.trans heq) hfind
    | @record next event rest hwithin =>
      rw [Live.ahead, hwithin] at h
      exact h
    | @spawn next hwithin =>
      rw [Live.ahead, hwithin] at h
      exact h
    | draw => exact h

end Live

end flow_engine.executor
