import FlowEngine.Engine.Triggers

namespace flow_engine.engine

open executor (RunContext Execution ExecutionEvent launch execution_step ExecutionRun RunOf)

/-- The runs of the engine are runs of executions, in which the owner sent exactly if
the engine's actions say so. -/
structure Tracked (actions : List EngineAction) (s : EngineState) : Prop where
  runs : ∀ (index : Nat) (r : LaunchedRun), s.runs[index]? = some r → ∃ events, ExecutionRun r.ctx events r.execution ∧
    (.send ∈ events ↔ .run index .send ∈ actions)
  bounded : ∀ index event, .run index event ∈ actions → index < s.runs.length

/-- An action that leaves the runs alone. -/
theorem Tracked.same_runs {actions : List EngineAction} {s next : EngineState} {action : EngineAction}
    (h : Tracked actions s) (hruns : next.runs = s.runs) (haction : ∀ index event, action ≠ .run index event) :
    Tracked (actions ++ [action]) next := by
  have hmem : ∀ index event, .run index event ∈ actions ++ [action] ↔ .run index event ∈ actions := by
    intro index event
    simp [(haction index event).symm]
  constructor
  · intro index r hr
    rw [hruns] at hr
    obtain ⟨events, hrun, hsend⟩ := h.runs index r hr
    exact ⟨events, hrun, hsend.trans (hmem index .send).symm⟩
  · intro index event hrun
    rw [hruns]
    exact h.bounded index event ((hmem index event).mp hrun)

/-- Starting one more run. -/
theorem Tracked.started {actions : List EngineAction} {s next : EngineState} {action : EngineAction}
    (h : Tracked actions s) {by_trigger : Bool} {ctx : RunContext} (hruns : next.runs = s.runs ++ [launched by_trigger ctx])
    (haction : ∀ index event, action ≠ .run index event) : Tracked (actions ++ [action]) next := by
  have hmem : ∀ index event, .run index event ∈ actions ++ [action] ↔ .run index event ∈ actions := by
    intro index event
    simp [(haction index event).symm]
  constructor
  · intro index r hr
    rw [hruns] at hr
    by_cases hold : index < s.runs.length
    · rw [List.getElem?_append_left hold] at hr
      obtain ⟨events, hrun, hsend⟩ := h.runs index r hr
      exact ⟨events, hrun, hsend.trans (hmem index .send).symm⟩
    · rw [List.getElem?_append_right (Nat.le_of_not_lt hold)] at hr
      have hnew : r = launched by_trigger ctx := by
        cases hsub : index - s.runs.length with
        | zero => simpa [hsub] using hr.symm
        | succ m => simp [hsub] at hr
      subst hnew
      refine ⟨[], .nil, ?_⟩
      rw [hmem]
      simp only [List.not_mem_nil, false_iff]
      exact fun hsent => hold (h.bounded index .send hsent)
  · intro index event hrun
    have hlt := h.bounded index event ((hmem index event).mp hrun)
    rw [hruns, List.length_append]
    omega

/-- One run takes a step. -/
theorem Tracked.advanced {actions : List EngineAction} {s next : EngineState} {action : EngineAction}
    (h : Tracked actions s) {index : Nat} {event : ExecutionEvent} (hadvance : advance s index event = some next)
    (hother : ∀ i e, action = .run i e → i = index ∧ e = event)
    (hsend : event = .send → action = .run index .send) : Tracked (actions ++ [action]) next := by
  unfold advance at hadvance
  split at hadvance
  · cases hadvance
  · rename_i r hr
    obtain ⟨execution, hstep, rfl⟩ := Option.map_eq_some_iff.mp hadvance
    have hlt : index < s.runs.length := (List.getElem?_eq_some_iff.mp hr).1
    constructor
    · intro i r' hr'
      by_cases hi : i = index
      · subst hi
        rw [List.getElem?_set_self hlt] at hr'
        cases hr'
        obtain ⟨events, hrun, hsent⟩ := h.runs i r hr
        refine ⟨events ++ [event], hrun.snoc trivial hstep, ?_⟩
        rw [List.mem_append, List.mem_append, hsent, List.mem_singleton, List.mem_singleton]
        apply or_congr_right
        constructor
        · rintro rfl
          exact (hsend rfl).symm
        · intro haction
          exact (hother i .send haction.symm).2
      · rw [List.getElem?_set_ne (Ne.symm hi)] at hr'
        obtain ⟨events, hrun, hsent⟩ := h.runs i r' hr'
        refine ⟨events, hrun, hsent.trans ?_⟩
        rw [List.mem_append, List.mem_singleton]
        exact ⟨Or.inl, fun hmem => hmem.elim id fun haction => absurd (hother i .send haction.symm).1 hi⟩
    · intro i e hmem
      rw [List.length_set]
      cases List.mem_append.mp hmem with
      | inl hold => exact h.bounded i e hold
      | inr hnew => exact (hother i e (List.mem_singleton.mp hnew).symm).1 ▸ hlt

theorem Tracked.step {engine : Engine} {actions : List EngineAction} {s next : EngineState} {action : EngineAction}
    (h : Tracked actions s) (hstep : engine_step engine s action = some next) : Tracked (actions ++ [action]) next := by
  cases action with
  | execute flow_id inputs get_current start =>
    simp only [engine_step] at hstep
    split at hstep
    · cases hstep
      exact h.same_runs rfl (by simp)
    · cases hstep
      exact h.started rfl (by simp)
  | execute_graph graph inputs start =>
    simp only [engine_step] at hstep
    split at hstep
    · cases hstep
      exact h.same_runs rfl (by simp)
    · cases hstep
      exact h.started rfl (by simp)
  | trigger event version get_current start =>
    simp only [engine_step] at hstep
    split at hstep
    · cases hstep
    · split at hstep
      · cases hstep
        exact h.same_runs rfl (by simp)
      · split at hstep
        · cases hstep
          exact h.same_runs rfl (by simp)
        · cases hstep
          exact h.started rfl (by simp)
  | release =>
    simp only [engine_step] at hstep
    split at hstep
    · cases hstep
    · rename_i index _
      have hreleased : Tracked actions { s with holding := none } := ⟨h.runs, h.bounded⟩
      exact hreleased.advanced hstep (by simp) (by simp)
  | run index event =>
    simp only [engine_step] at hstep
    split at hstep
    · cases hstep
    · split at hstep
      · cases hstep
      · exact h.advanced hstep (by simp) (by simp)

theorem run_tracked {engine : Engine} {actions : List EngineAction} {s : EngineState}
    (hrun : EngineRun engine actions s) : Tracked actions s := by
  refine hrun.invariant (P := Tracked) ?_ ?_
  · exact ⟨fun index r hr => by simp [idle] at hr, fun index event hmem => by simp at hmem⟩
  · exact fun _ _ _ _ _ h _ hstep => h.step hstep

/-- However a run was started, it is cancelled only by a message on its handle, and
otherwise ends with no task in flight, exactly if its handle was not dropped before the
last loop head. -/
theorem cancelled_only_if_sent_iff {engine : Engine} {actions : List EngineAction} {s : EngineState}
    (hrun : EngineRun engine actions s) {index : Nat} {r : LaunchedRun} (hr : s.runs[index]? = some r)
    {last : Execution} {status : RunStatus} (hend : execution_step r.ctx r.execution .head = some last)
    (hstatus : last.phase = .finished status) :
    ((status = .Cancelled → .run index .send ∈ actions) ∧
      (.run index .send ∉ actions → r.execution.state.running = [])) ↔ r.execution.cancel ≠ .dropped := by
  obtain ⟨events, hevents, hsend⟩ := (run_tracked hrun).runs index r hr
  rw [← hsend]
  exact executor.ends_honestly_iff hevents hend hstatus

/-- An engine that knows one type of node. -/
def sample_engine : Engine where
  node_registry _ := some ⟨"task", [], []⟩
  max_traversals := 1
  f64 := executor.no_f64

/-- A flow of one node. -/
def sample_version : FlowVersion where
  version_id := "v1"
  graph := (executor.sample_context ["A"] [] 1).graph

/-- A caller starts the flow, keeps its handle, and the one task finishes. -/
def kept_handle : List EngineAction :=
  [.execute "flow" .null (.ok (some sample_version)) ⟨"run", .ok ()⟩, .run 0 .head,
    .run 0 (.join ⟨⟨0, 0⟩, .returned (.Success .null) []⟩)]

/-- The dispatch loop starts the flow for an event and drops the handle. -/
def dropped_handle : List EngineAction :=
  [.trigger ⟨"flow", none, .null, .cron "daily", none⟩ (.ok (some sample_version)) (.ok (some sample_version))
    ⟨"run", .ok ()⟩, .release]

/-- What is left of the first run when it passes its loop head next: the sender, the
number of tasks in flight and the phase after the head. -/
def at_last_head (s : EngineState) : Option (oneshot.Sender × Nat × executor.LoopPhase) :=
  s.runs[0]?.bind fun r => (execution_step r.ctx r.execution .head).map fun last =>
    (r.execution.cancel, r.execution.state.running.length, last.phase)

theorem exists_last_head {engine : Engine} {actions : List EngineAction} {cancel : oneshot.Sender} {tasks : Nat}
    {phase : executor.LoopPhase}
    (h : ((actions.foldlM (engine_step engine) idle).bind at_last_head) = some (cancel, tasks, phase)) :
    ∃ s r last, EngineRun engine actions s ∧ s.runs[0]? = some r ∧ execution_step r.ctx r.execution .head = some last ∧
      r.execution.cancel = cancel ∧ r.execution.state.running.length = tasks ∧ last.phase = phase := by
  obtain ⟨s, hfold, hlast⟩ := Option.bind_eq_some_iff.mp h
  obtain ⟨r, hr, hhead⟩ := Option.bind_eq_some_iff.mp hlast
  obtain ⟨last, hstep, heq⟩ := Option.map_eq_some_iff.mp hhead
  obtain ⟨rfl, rfl, rfl⟩ := heq
  exact ⟨s, r, last, transition.run_of_foldlM hfold, hr, hstep, rfl, rfl, rfl⟩

theorem cancelled_only_if_sent_iff_sample : ∃ s r last, EngineRun sample_engine kept_handle s ∧ s.runs[0]? = some r ∧
    execution_step r.ctx r.execution .head = some last ∧ last.phase = .finished .Completed ∧
    (((RunStatus.Completed = .Cancelled → .run 0 .send ∈ kept_handle) ∧
      (.run 0 .send ∉ kept_handle → r.execution.state.running = [])) ↔ r.execution.cancel ≠ .dropped) := by
  have hhead : ((kept_handle.foldlM (engine_step sample_engine) idle).bind at_last_head) =
      some (.held, 0, .finished .Completed) := by decide +kernel
  obtain ⟨s, r, last, hrun, hr, hstep, _, _, hphase⟩ := exists_last_head hhead
  exact ⟨s, r, last, hrun, hr, hstep, hphase, cancelled_only_if_sent_iff hrun hr hstep hphase⟩

/-- A triggered run whose handle is dropped before its first loop head is cancelled with
its tasks in flight, though nobody sent on its handle. -/
theorem triggered_run_cancelled : ∃ s r last, EngineRun sample_engine dropped_handle s ∧ s.runs[0]? = some r ∧
    execution_step r.ctx r.execution .head = some last ∧ last.phase = .finished .Cancelled ∧
    (∀ index, .run index .send ∉ dropped_handle) ∧ r.execution.state.running.length = 1 := by
  have hhead : ((dropped_handle.foldlM (engine_step sample_engine) idle).bind at_last_head) =
      some (.dropped, 1, .finished .Cancelled) := by decide +kernel
  obtain ⟨s, r, last, hrun, hr, hstep, _, htasks, hphase⟩ := exists_last_head hhead
  exact ⟨s, r, last, hrun, hr, hstep, hphase, by simp [dropped_handle], htasks⟩

end flow_engine.engine
