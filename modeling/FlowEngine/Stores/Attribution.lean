import FlowEngine.Executor.Tasks.Sequential
import FlowEngine.Stores.NodeDetail

namespace flow_engine.executor

open reconstruct

section Runs

variable {ctx : RunContext} {behave : Task → Behaviour} {x y : Live}

theorem inTurn_set_seq {log : List (Writer × WriteEvent)} {task : Task} {event : WriteEvent} (n : Nat) :
    InTurn log task (event.set_seq n) ↔ InTurn log task event := by
  cases event <;> rfl

theorem stored_attempts_of_unnumbered (h : Alternating (attempt_log x.log)) {log : List Signed}
    (hlog : log.map Signed.unnumbered = attempt_log x.log) : stored_attempts log = log := by
  refine List.filter_eq_self.mpr fun e he => ?_
  have hattempt := h.attempts e.unnumbered (hlog ▸ List.mem_map_of_mem he)
  unfold Signed.unnumbered at hattempt
  revert hattempt
  cases e.event <;> exact id

theorem attributed_iff_recorded (h : Alternating (attempt_log x.log)) : AttemptsAttributed x ↔
    ∀ log, log.map Signed.unnumbered = attempt_log x.log → ∀ node_id, recorded_attempts node_id log = own_attempts node_id log := by
  constructor
  · intro hattributed log hlog node_id
    have hstored := stored_attempts_of_unnumbered h hlog
    have hsame := (extract_eq_iff log node_id).mp (hattributed log (by rw [Signs, hstored, hlog]) node_id)
    rwa [hstored] at hsame
  · intro hsame signed hsigns node_id
    rw [extract_eq_iff, ← recorded_stored]
    exact hsame _ hsigns node_id

/-- An event with a writer, as a store may hold it. -/
def Signed.of_entry (entry : Writer × WriteEvent) : Signed where
  writer := entry.1
  stamped := {
    event := entry.2.set_seq 0
    timestamp := 0
    duration_ms := if (entry.2.set_seq 0).has_duration then some 0 else none
    in_u64 := by simp
    measured := by cases (entry.2.set_seq 0).has_duration <;> rfl }

theorem unnumbered_of_entry {log : List (Writer × WriteEvent)} (h : ∀ entry ∈ log, entry.2.set_seq 0 = entry.2) :
    (log.map Signed.of_entry).map Signed.unnumbered = log := by
  rw [List.map_map]
  refine (List.map_congr_left fun entry hentry => ?_).trans (List.map_id _)
  have hseq := h entry hentry
  simp only [Function.comp, Signed.unnumbered, Signed.of_entry, Signed.event, hseq]
  rfl

theorem attempt_log_write (task : Task) (event : WriteEvent) : attempt_log (x.write task event).log =
    attempt_log x.log ++ if attempt_event event then [(.task task, event)] else [] := by
  have hlog : attempt_log (x.write task event).log =
      attempt_log x.log ++ attempt_log [⟨x.seq, .task task, event⟩] := attempt_log_append _ _
  rw [hlog]
  cases hattempt : attempt_event event <;> simp [attempt_log, hattempt]

/-- A stored log whose last event is known. -/
theorem unnumbered_snoc {log : List Signed} {before : List (Writer × WriteEvent)} {task : Task} {event : WriteEvent}
    (h : log.map Signed.unnumbered = before ++ [(.task task, event)]) : ∃ first e, log = first ++ [e] ∧
      first.map Signed.unnumbered = before ∧ e.writer = .task task ∧ e.event.set_seq 0 = event := by
  rcases List.eq_nil_or_concat log with rfl | ⟨first, e, rfl⟩
  · simp at h
  · rw [List.concat_eq_append, List.map_append, List.map_singleton] at h
    obtain ⟨hfirst, hlast⟩ := List.append_inj' h rfl
    obtain ⟨hwriter, hevent⟩ := Prod.mk.inj (List.cons.inj hlast).1
    exact ⟨first, e, List.concat_eq_append, hfirst, hwriter, hevent⟩

/-- A task's event keeps the attempts attributed exactly if it ends an attempt in turn. -/
theorem write_attributed_iff {task : Task} {event : WriteEvent} (hbefore : Alternating (attempt_log x.log))
    (hafter : Alternating (attempt_log (x.write task event).log)) (hattributed : AttemptsAttributed x) :
    AttemptsAttributed (x.write task event) ↔ InTurn (attempt_log x.log) task event := by
  rw [attributed_iff_recorded hafter]
  rw [attempt_log_write] at hafter ⊢
  rw [attributed_iff_recorded hbefore] at hattributed
  cases hattempt : attempt_event event with
  | false =>
    rw [if_neg Bool.false_ne_true, List.append_nil]
    refine iff_of_true hattributed ?_
    revert hattempt
    cases event <;> simp [attempt_event, InTurn, ending_index]
  | true =>
    rw [hattempt, if_pos rfl] at hafter
    rw [if_pos rfl]
    have hstep : ∀ log, log.map Signed.unnumbered = attempt_log x.log ++ [(.task task, event)] →
        ((∀ node_id, recorded_attempts node_id log = own_attempts node_id log) ↔ InTurn (attempt_log x.log) task event) := by
      intro log hlog
      obtain ⟨first, e, rfl, hfirst, hwriter, hevent⟩ := unnumbered_snoc hlog
      rw [attributed_snoc_iff (hlog ▸ hafter) hwriter (hattributed first hfirst), hfirst, ← hevent, inTurn_set_seq]
    refine ⟨fun hall => ?_, fun hturn log hlog => (hstep log hlog).mpr hturn⟩
    have hlog := unnumbered_of_entry hafter.unnumbered
    exact (hstep _ hlog).mp (hall _ hlog)

/-- A move has a task write, or it adds no start or end of an attempt. -/
theorem move_writes (h : Transcribed ctx behave x) {move : Move} (hstep : live_step ctx behave x move = some y) :
    (∃ write ∈ next_write ctx behave x move, y = x.write write.1 write.2) ∨
      next_write ctx behave x move = none ∧ attempt_log y.log = attempt_log x.log := by
  cases move with
  | write id =>
    simp only [live_step] at hstep
    split at hstep
    · cases hstep
    · rename_i task hfind
      split at hstep
      · cases hstep
      · rename_i event hevent
        cases hstep
        exact .inl ⟨(task, event), by simp [next_write, hfind, hevent], rfl⟩
  | join id =>
    simp only [live_step] at hstep
    split at hstep
    · split at hstep
      · obtain ⟨_, _, rfl⟩ := Option.map_eq_some_iff.mp hstep
        exact .inr ⟨rfl, rfl⟩
      · cases hstep
    · cases hstep
  | record =>
    simp only [live_step] at hstep
    split at hstep
    · rename_i next event rest hwithin
      cases hstep
      have hnode := h.unwritten _ hwithin event List.mem_cons_self
      have hattempt : attempt_event event = false := by
        revert hnode
        cases event <;> simp [event_node, attempt_event]
      refine .inr ⟨rfl, (attempt_log_append _ _).trans ?_⟩
      simp [attempt_log, hattempt]
    · cases hstep
  | spawn =>
    simp only [live_step] at hstep
    split at hstep
    · cases hstep
      exact .inr ⟨rfl, rfl⟩
    · cases hstep
  | draw =>
    cases hstep
    exact .inr ⟨rfl, rfl⟩

/-- A move keeps the attempts attributed exactly if it ends an attempt in turn. -/
theorem move_attributed_iff (haccepted : Accepted ctx) {first_seq : Nat} {moves : List Move}
    (hrun : LiveRun ctx behave first_seq moves x) {move : Move}
    (hstep : live_step ctx behave x move = some y) (hattributed : AttemptsAttributed x) :
    AttemptsAttributed y ↔ EndsInTurn ctx behave x move := by
  have htranscribed := run_transcribed haccepted hrun
  have hafter := (run_transcribed haccepted (LiveRun.move hrun hstep)).alternating
  unfold EndsInTurn
  obtain ⟨write, hwrite, rfl⟩ | ⟨hnone, hsame⟩ := move_writes htranscribed hstep
  · rw [write_attributed_iff htranscribed.alternating hafter hattributed, Option.mem_def.mp hwrite]
    simp
  · refine iff_of_true ?_ (by simp [hnone])
    unfold AttemptsAttributed Signs
    rw [hsame]
    exact hattributed

/-- The attempts are attributed in every state of an execution exactly if no attempt ends out of
turn. -/
theorem attempts_attributed_iff (haccepted : Accepted ctx) {first_seq : Nat} {moves : List Move}
    (hrun : LiveRun ctx behave first_seq moves x) :
    transition.Throughout (live_step ctx behave) (fun _ _ => True) (initial_live ctx first_seq) AttemptsAttributed moves ↔
      transition.Run (live_step ctx behave) (EndsInTurn ctx behave) (initial_live ctx first_seq) moves x := by
  have hstart : AttemptsAttributed (initial_live ctx first_seq) := by
    rw [attributed_iff_recorded (@run_transcribed ctx behave _ haccepted _ _ .nil).alternating]
    intro log hlog node_id
    rw [List.map_eq_nil_iff.mp hlog]
    rfl
  refine (hrun.throughout_iff_good _ (EndsInTurn ctx behave) hstart ?_).trans ?_
  · intro moves x move y hgood hattributed _ hstep
    exact move_attributed_iff haccepted (hgood.mono fun _ _ _ => trivial) hstep hattributed
  · exact ⟨fun h => h.mono fun _ _ hallowed => hallowed.2, fun h => h.mono fun _ _ hturn => ⟨trivial, hturn⟩⟩

end Runs

instance (log : List (Writer × WriteEvent)) (task : Task) (index : Option (Option Nat)) : Decidable (LastOpen log task index) :=
  inferInstanceAs (Decidable (_ = _))

instance (log : List (Writer × WriteEvent)) (task : Task) (event : WriteEvent) : Decidable (InTurn log task event) :=
  inferInstanceAs (Decidable (∀ index ∈ ending_index event, LastOpen log task index))

instance (ctx : RunContext) (behave : Task → Behaviour) (x : Live) (move : Move) : Decidable (EndsInTurn ctx behave x move) :=
  inferInstanceAs (Decidable (∀ write ∈ next_write ctx behave x move, InTurn (attempt_log x.log) write.1 write.2))

/-- Two instances, the first of which fails before the second one starts. -/
def instances_in_turn : List Move :=
  [.write ⟨0, 0⟩, .write ⟨0, 0⟩, .write ⟨0, 0⟩, .join ⟨0, 0⟩, .record, .spawn, .write ⟨1, 0⟩, .write ⟨1, 0⟩,
    .write ⟨1, 1⟩, .write ⟨1, 1⟩]

/-- Two instances, the first of which fails when the second one has started. -/
def instances_out_of_turn : List Move :=
  [.write ⟨0, 0⟩, .write ⟨0, 0⟩, .write ⟨0, 0⟩, .join ⟨0, 0⟩, .record, .spawn, .write ⟨1, 0⟩, .write ⟨1, 1⟩,
    .write ⟨1, 0⟩, .write ⟨1, 1⟩]

/-- The log as a store may hold it. -/
def signed_log (x : Live) : List Signed := (attempt_log x.log).map Signed.of_entry

/-- The indices of the attempts of a node, which of them have outputs, and their errors. -/
def outlined (detail : Option NodeRunDetail) : List (Option Nat × Bool × Option String) :=
  (detail.elim [] NodeRunDetail.attempts).map fun attempt => (attempt.fan_out_index, attempt.outputs.isSome, attempt.error)

theorem attempts_attributed_iff_sample : ∃ x,
    LiveRun partial_failure_sample partial_failure_behaviour 1 instances_in_turn x ∧
      outlined (own_detail (signed_log x) "S") = [(some 0, false, some "fatal: broken"), (some 1, true, none)] ∧
      transition.Throughout (live_step partial_failure_sample partial_failure_behaviour) (fun _ _ => True)
        (initial_live partial_failure_sample 1) AttemptsAttributed instances_in_turn := by
  have hfold : (instances_in_turn.foldlM (fun x move =>
      if EndsInTurn partial_failure_sample partial_failure_behaviour x move then
        live_step partial_failure_sample partial_failure_behaviour x move
      else none) (initial_live partial_failure_sample 1)).map (fun x => outlined (own_detail (signed_log x) "S")) =
        some [(some 0, false, some "fatal: broken"), (some 1, true, none)] := by
    decide +kernel
  obtain ⟨x, hmoves, hread⟩ := Option.map_eq_some_iff.mp hfold
  have hturns := transition.run_of_foldlM_checked hmoves
  have hrun : LiveRun partial_failure_sample partial_failure_behaviour 1 instances_in_turn x :=
    hturns.mono fun _ _ _ => trivial
  refine ⟨x, hrun, hread, ?_⟩
  exact (attempts_attributed_iff (sample_accepted 50 (by decide +kernel)) hrun).mpr hturns

/-- The error of the first instance is attributed to the second one, whose outputs are lost. -/
theorem failure_attributed_to_other : Accepted partial_failure_sample ∧ (∀ task, (partial_failure_behaviour task).NoPanic) ∧
    ∃ x, LiveRun partial_failure_sample partial_failure_behaviour 1 instances_out_of_turn x ∧ Signs x (signed_log x) ∧
      outlined (own_detail (signed_log x) "S") = [(some 0, false, some "fatal: broken"), (some 1, true, none)] ∧
      outlined (extract_node_detail ((signed_log x).map Signed.stamped) "S") =
        [(some 0, false, none), (some 1, false, some "fatal: broken")] ∧ ¬ AttemptsAttributed x := by
  have hfold : (instances_out_of_turn.foldlM (live_step partial_failure_sample partial_failure_behaviour)
      (initial_live partial_failure_sample 1)).map (fun x => [outlined (own_detail (signed_log x) "S"),
        outlined (extract_node_detail ((signed_log x).map Signed.stamped) "S")]) =
        some [[(some 0, false, some "fatal: broken"), (some 1, true, none)],
          [(some 0, false, none), (some 1, false, some "fatal: broken")]] := by
    decide +kernel
  obtain ⟨x, hmoves, hread⟩ := Option.map_eq_some_iff.mp hfold
  obtain ⟨hown, hrest⟩ := List.cons.inj hread
  have hextracted := (List.cons.inj hrest).1
  have haccepted : Accepted partial_failure_sample := sample_accepted 50 (by decide +kernel)
  have hrun : LiveRun partial_failure_sample partial_failure_behaviour 1 instances_out_of_turn x :=
    transition.run_of_foldlM hmoves
  have halternating := (run_transcribed haccepted hrun).alternating
  have hlog : (signed_log x).map Signed.unnumbered = attempt_log x.log := unnumbered_of_entry halternating.unnumbered
  have hsigns : Signs x (signed_log x) := by
    unfold Signs
    rw [stored_attempts_of_unnumbered halternating hlog, hlog]
  refine ⟨haccepted, partial_failure_no_panic, x, hrun, hsigns, hown, hextracted, fun hattributed => ?_⟩
  rw [hattributed _ hsigns, hown] at hextracted
  exact absurd hextracted (by decide)

end flow_engine.executor
