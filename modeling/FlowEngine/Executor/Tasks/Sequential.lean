import FlowEngine.Executor.Tasks.Records

namespace flow_engine.executor

/-- The joined task ends as its script says. -/
def Scripted (ctx : RunContext) (behave : Task → Behaviour) (s : RunState) (c : Completion) : Prop :=
  ∀ task, s.running.find? (fun task => task.id = c.task) = some task → c.joined = (script ctx behave task).2

/-- Between two iterations, only the named tasks have written. -/
structure OnlyWrote (x : Live) (s : RunState) (ids : List TaskId) : Prop where
  loop : x.loop = s
  between : x.iteration = none
  untouched : ∀ id, id ∉ ids → x.written id = 0
  writers : ∀ entry ∈ x.log, ∀ task, entry.writer = .task task → task.id ∈ ids

section Moves

variable {ctx : RunContext} {behave : Task → Behaviour} {first_seq : Nat} {moves : List Move} {x : Live}

theorem LiveRun.move (hrun : LiveRun ctx behave first_seq moves x) {move : Move} {y : Live}
    (hmove : live_step ctx behave x move = some y) : LiveRun ctx behave first_seq (moves ++ [move]) y :=
  hrun.snoc trivial hmove

/-- A task in flight writes the first part of its script. -/
theorem LiveRun.write_part (hrun : LiveRun ctx behave first_seq moves x) {s : RunState} {ids : List TaskId}
    (h : OnlyWrote x s ids) {task : Task} (hfind : s.running.find? (fun other => other.id = task.id) = some task)
    (hnew : task.id ∉ ids) {k : Nat} (hk : k ≤ (script ctx behave task).1.length) :
    ∃ moves' y, LiveRun ctx behave first_seq moves' y ∧ OnlyWrote y s (ids ++ [task.id]) ∧ y.written task.id = k ∧
      (∀ entry ∈ x.log, entry ∈ y.log) ∧
      ∀ event ∈ (script ctx behave task).1.take k, ∃ entry ∈ y.log, entry.writer = .task task ∧ entry.event = event := by
  induction k with
  | zero =>
    refine ⟨moves, x, hrun, ⟨h.loop, h.between, ?_, ?_⟩, h.untouched _ hnew, fun _ hentry => hentry, by simp⟩
    · exact fun id hid => h.untouched id fun hmem => hid (List.mem_append_left _ hmem)
    · exact fun entry hentry writer hwriter => List.mem_append_left _ (h.writers entry hentry writer hwriter)
  | succ k ih =>
    obtain ⟨moves', y, hreached, hwrote, hwritten, hkept, hevents⟩ := ih (Nat.le_of_succ_le hk)
    have hget : (script ctx behave task).1[k]? = some ((script ctx behave task).1.get ⟨k, hk⟩) := by simp
    have hmove : live_step ctx behave y (.write task.id) = some (y.write task ((script ctx behave task).1.get ⟨k, hk⟩)) := by
      simp only [live_step]
      rw [hwrote.loop, hfind]
      dsimp only
      rw [hwritten, hget]
    refine ⟨_, _, hreached.move hmove, ⟨hwrote.loop, hwrote.between, ?_, ?_⟩, ?_, ?_, ?_⟩
    · intro id hid
      have hne : id ≠ task.id := fun heq => hid (List.mem_append_right _ (List.mem_singleton.mpr heq))
      exact (Function.update_of_ne hne _ _).trans (hwrote.untouched id hid)
    · intro entry hentry writer hwriter
      cases List.mem_append.mp hentry with
      | inl hold => exact hwrote.writers entry hold writer hwriter
      | inr hlast =>
        rw [List.mem_singleton.mp hlast] at hwriter
        cases hwriter
        exact List.mem_append_right _ (List.mem_singleton_self _)
    · exact (Function.update_self _ _ _).trans (congrArg (· + 1) hwritten)
    · exact fun entry hentry => List.mem_append_left _ (hkept entry hentry)
    · intro event hevent
      rw [List.take_add_one, hget, List.mem_append] at hevent
      cases hevent with
      | inl hold =>
        obtain ⟨entry, hentry, hform⟩ := hevents event hold
        exact ⟨entry, List.mem_append_left _ hentry, hform⟩
      | inr hlast =>
        exact ⟨_, List.mem_append_right _ (List.mem_singleton_self _), rfl, Option.some.inj (Option.mem_toList.mp hlast)⟩

/-- The loop records the events of the iteration under way and ends it. -/
theorem LiveRun.finish_iteration {next : RunState} {events : List WriteEvent} {ids : List TaskId}
    (hrun : LiveRun ctx behave first_seq moves x) (hwithin : x.iteration = some ⟨next, events⟩)
    (huntouched : ∀ id, id ∉ ids → x.written id = 0)
    (hwriters : ∀ entry ∈ x.log, ∀ task, entry.writer = .task task → task.id ∈ ids) :
    ∃ moves' y, LiveRun ctx behave first_seq moves' y ∧ OnlyWrote y next ids := by
  induction events generalizing moves x with
  | nil =>
    have hmove : live_step ctx behave x .spawn = some (x.spawn next) := by
      simp only [live_step]
      rw [hwithin]
    exact ⟨_, _, hrun.move hmove, ⟨rfl, rfl, huntouched, hwriters⟩⟩
  | cons event rest ih =>
    have hmove : live_step ctx behave x .record = some (x.record next event rest) := by
      simp only [live_step]
      rw [hwithin]
    refine ih (hrun.move hmove) rfl huntouched ?_
    intro entry hentry task hwriter
    cases List.mem_append.mp hentry with
    | inl hold => exact hwriters entry hold task hwriter
    | inr hlast =>
      rw [List.mem_singleton.mp hlast] at hwriter
      cases hwriter

end Moves

/-- Every run of the loop whose tasks keep to their scripts is the loop's part of an
execution, in which each task writes when it is about to be joined. -/
theorem live_of_run {ctx : RunContext} (haccepted : Accepted ctx) {behave : Task → Behaviour} (first_seq : Nat)
    {cs : List Completion} {s : RunState}
    (hrun : transition.Run (next_state ctx) (Scripted ctx behave) (initial_state ctx) cs s) :
    ∃ moves x, LiveRun ctx behave first_seq moves x ∧ OnlyWrote x s (cs.map Completion.task) := by
  induction hrun with
  | nil => exact ⟨[], initial_live ctx first_seq, .nil, ⟨rfl, rfl, fun _ _ => rfl, fun _ hentry => nomatch hentry⟩⟩
  | @snoc cs s next c hreached hscripted hstep ih =>
    obtain ⟨moves, x, hlive, hwrote⟩ := ih
    obtain ⟨task, hfind, _⟩ := step_effect hstep
    have hid : task.id = c.task := by simpa using List.find?_some hfind
    rw [← hid] at hfind
    have hnew : task.id ∉ cs.map Completion.task :=
      (run_ledger haccepted hreached).not_joined (List.mem_of_find?_eq_some hfind)
    obtain ⟨moves', y, hlive', hwrote', hwritten, _⟩ := hlive.write_part hwrote hfind hnew (Nat.le_refl _)
    have hcompletion : c = ⟨task.id, (script ctx behave task).2⟩ := by
      rw [hid, ← hscripted task (hid ▸ hfind)]
    have hmove : live_step ctx behave y (.join task.id) = some (y.join task (script ctx behave task).2 next) := by
      simp only [live_step]
      rw [hwrote'.between, hwrote'.loop, hfind]
      dsimp only
      rw [if_pos hwritten, ← hcompletion, hstep]
      rfl
    have hids : (cs ++ [c]).map Completion.task = cs.map Completion.task ++ [task.id] := by
      rw [List.map_append, hid]
      rfl
    rw [hids]
    exact (hlive'.move hmove).finish_iteration rfl hwrote'.untouched hwrote'.writers

end flow_engine.executor
