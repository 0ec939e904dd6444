import FlowEngine.Executor.Tasks.Outcomes
import FlowEngine.Executor.Quiescence
import FlowEngine.Stores.NodeResults

namespace flow_engine.executor

open reconstruct

/-- The run is over: nothing is left to join or to record. -/
structure Live.Over (x : Live) : Prop where
  between : x.iteration = none
  running : x.loop.running = []

/-- The store holds the starts and ends of all attempts, in the order of the log. -/
def Persisted (x : Live) (events : List StampedEvent) : Prop :=
  (events.map StampedEvent.event).filter attempt_event = (x.log.map Entry.numbered).filter attempt_event

/-- The reported status of a node is the one the loop ended with. -/
def StatusAgrees (s : RunState) (results : List NodeRunResult) (node_id : String) : Prop :=
  ∃ status error, reported results node_id = some (status, error) ∧
    (status = "completed" ↔ node_id ∈ s.completed ∧ node_id ∉ s.failed) ∧
    (status = "failed" ↔ node_id ∈ s.failed) ∧ (status = "completed" → error = none)

/-- A single task of the node ended with a failure, according to the log. -/
def SingleFailure (log : List Entry) (node_id : String) : Prop :=
  ∃ entry ∈ log, ∃ task error, entry.writer = .task task ∧ task.node_id = node_id ∧ task.fan_out_index = none ∧
    ending entry.event = some (some error)

/-- No task of the node ended with a failure, or a single task of it did and the node's last
terminal event is a failure. -/
def EndsAlike (log : List Entry) (node_id : String) : Prop :=
  (∀ error, some error ∉ endings (log.map Entry.event) node_id) ∨
    SingleFailure log node_id ∧ ∃ error, (endings (log.map Entry.event) node_id).getLast? = some (some error)

section Numbers

theorem report_numbered (n : String) (report : Option (String × Option String)) (entry : Entry) :
    report_event n report entry.numbered = report_event n report entry.event := by
  unfold Entry.numbered
  cases entry.event with
  | NodeFailed seq run_id node_id error will_retry attempt => cases will_retry <;> rfl
  | _ => rfl

theorem foldl_report_numbered (log : List Entry) (n : String) (report : Option (String × Option String)) :
    (log.map Entry.numbered).foldl (report_event n) report = (log.map Entry.event).foldl (report_event n) report := by
  simp only [List.foldl_map, report_numbered]

end Numbers

section Ended

variable {ctx : RunContext} {behave : Task → Behaviour} {x : Live} {n : String}

theorem mem_endings {events : List WriteEvent} {how : Option String} :
    how ∈ endings events n ↔ ∃ event ∈ events, event_node event = some n ∧ ending event = some how := by
  simp [endings]

/-- The first event of a task is its start. -/
theorem Transcribed.started_first (h : Transcribed ctx behave x) (n : String) :
    StartedFirst (x.log.map Entry.event) n := by
  intro before event after hsplit hnode hending
  obtain ⟨earlier, rest, hlog, hbefore, hrest⟩ := List.map_eq_append_iff.mp hsplit
  obtain ⟨entry, later, rfl, rfl, -⟩ := List.map_eq_cons_iff.mp hrest
  have hentry : entry ∈ x.log := by simp [hlog]
  obtain ⟨task, hwriter, hnode_id⟩ := h.writer_of_node hentry hnode
  obtain ⟨start, others, hscript, hstart⟩ := @script_head ctx behave task
  have hown := h.own task (h.writers entry hentry task hwriter)
  rw [hlog, List.filter_append, List.filter_cons_of_pos (by simp [by_task, hwriter]), hscript] at hown
  have hstart_node : event_node start = some n := by
    rw [← hnode_id]
    exact script_node (by rw [hscript]; exact List.mem_cons_self)
  -- the task's first entry is the start, so it is not the terminal event
  cases hearlier : earlier.filter (by_task task.id) with
  | nil =>
    rw [hearlier] at hown
    cases hwritten : x.written task.id with
    | zero => simp [hwritten] at hown
    | succ k =>
      rw [hwritten] at hown
      simp only [List.nil_append, List.map_cons, List.take_succ_cons, List.cons.injEq] at hown
      rw [hown.1, ending_of_is_start hstart] at hending
      cases hending
  | cons first tail =>
    rw [hearlier] at hown
    cases hwritten : x.written task.id with
    | zero => simp [hwritten] at hown
    | succ k =>
      rw [hwritten] at hown
      simp only [List.cons_append, List.map_cons, List.take_succ_cons, List.cons.injEq] at hown
      have hfirst : first ∈ earlier := (List.mem_filter.mp (hearlier ▸ List.mem_cons_self)).1
      exact ⟨start, hbefore ▸ List.mem_map.mpr ⟨first, hfirst, hown.1⟩, hstart_node, hstart⟩

/-- How a joined task ended is among the ends of its node. -/
theorem Transcribed.ending_logged (h : Transcribed ctx behave x) {j : Task × JoinResult} (hj : j ∈ x.joins)
    (hpanic : ∀ task, (behave task).NoPanic) (hscripted : j.2 = (script ctx behave j.1).2) :
    ∃ outcome records, j.2 = .returned outcome records ∧ ∃ entry ∈ x.log, entry.writer = .task j.1 ∧
      event_node entry.event = some j.1.node_id ∧ ending entry.event = some (outcome_ending outcome) := by
  obtain ⟨outcome, records, hreturned, hending⟩ := @script_ending ctx behave j.1 (hpanic j.1)
  have hmem : outcome_ending outcome ∈ (script ctx behave j.1).1.filterMap ending := by
    rw [hending]
    exact List.mem_singleton_self _
  obtain ⟨event, hevent, hends⟩ := List.mem_filterMap.mp hmem
  obtain ⟨entry, hlog, hwriter, rfl⟩ := h.script_logged hj hevent
  exact ⟨outcome, records, hscripted.trans hreturned, entry, hlog, hwriter, script_node hevent, hends⟩

/-- What a joined task has logged as its end is its outcome. -/
theorem Transcribed.outcome_of_ending (h : Transcribed ctx behave x) (hpanic : ∀ task, (behave task).NoPanic)
    {j : Task × JoinResult} (hscripted : j.2 = (script ctx behave j.1).2) {entry : Entry} (hentry : entry ∈ x.log)
    (hwriter : entry.writer = .task j.1) {how : Option String} (hends : ending entry.event = some how) :
    ∃ outcome records, j.2 = .returned outcome records ∧ how = outcome_ending outcome := by
  obtain ⟨outcome, records, hreturned, hending⟩ := @script_ending ctx behave j.1 (hpanic j.1)
  have hmem : how ∈ (script ctx behave j.1).1.filterMap ending :=
    List.mem_filterMap.mpr ⟨entry.event, h.event_mem_script hentry hwriter, hends⟩
  rw [hending] at hmem
  exact ⟨outcome, records, hscripted.trans hreturned, List.mem_singleton.mp hmem⟩

variable (haccepted : Accepted ctx) (hpanic : ∀ task, (behave task).NoPanic) {first_seq : Nat} {moves : List Move}
  (hrun : LiveRun ctx behave first_seq moves x) (hover : x.Over)
include haccepted hpanic hrun hover

/-- When the run is over the failed nodes are the ones with a single failure in the log. -/
theorem failed_iff_single_failure (n : String) : n ∈ x.loop.failed ↔ SingleFailure x.log n := by
  have htranscribed := run_transcribed haccepted hrun
  have haccounted := run_accounted haccepted hpanic hrun
  rw [ahead_eq_loop hover.between] at haccounted
  rw [haccounted.failed_iff]
  constructor
  · rintro ⟨j, hj, hnode, hindex, error, records, hfailed⟩
    obtain ⟨outcome, records', hreturned, entry, hentry, hwriter, _, hends⟩ :=
      htranscribed.ending_logged hj hpanic (run_joins_scripted hrun j hj)
    cases hfailed.symm.trans hreturned
    exact ⟨entry, hentry, j.1, error, hwriter, hnode, hindex, hends⟩
  · rintro ⟨entry, hentry, task, error, hwriter, hnode, hindex, hends⟩
    have hrecorded := htranscribed.writers entry hentry task hwriter
    have hjoined := (run_in_step hrun).in_flight_or_joined haccepted hrecorded
    rw [ahead_eq_loop hover.between, hover.running] at hjoined
    obtain ⟨j, hj, hid⟩ := hjoined.resolve_left (List.not_mem_nil)
    cases (htranscribed.finished j hj).1.unique hrecorded hid
    obtain ⟨outcome, records, hreturned, how⟩ :=
      htranscribed.outcome_of_ending hpanic (run_joins_scripted hrun j hj) hentry hwriter hends
    cases outcome with
    | Success outputs => cases how
    | Failed error' => exact ⟨j, hj, hnode, hindex, error', records, hreturned⟩

/-- When the run is over every started node has completed or failed. -/
theorem started_ended (hstarted : n ∈ started x.loop) : n ∈ x.loop.completed ∨ n ∈ x.loop.failed := by
  have hloop := run_of_loop_run hpanic (run_joins_scripted hrun) ((run_in_step hrun).between hover.between)
  have hnamed : transition.Run (next_state ctx) PanicsNamed (initial_state ctx) (completions x.joins) x.loop := by
    refine transition.Run.mono ?_ hloop
    rintro s c ⟨task, hfind, outcome, records, hreturned, _⟩ error hpanicked
    cases hreturned.symm.trans hpanicked
  exact (quiescent_of_panics_named haccepted hnamed hover.running).accounted n hstarted

/-- When the run is over every started node has ended in the log. -/
theorem endings_ne_nil (hstarted : n ∈ started x.loop) : endings (x.log.map Entry.event) n ≠ [] := by
  have htranscribed := run_transcribed haccepted hrun
  have haccounted := run_accounted haccepted hpanic hrun
  rw [ahead_eq_loop hover.between] at haccounted
  have hjoined : ∃ j ∈ x.joins, j.1.node_id = n := by
    cases started_ended haccepted hpanic hrun hover hstarted with
    | inl hcompleted => exact haccounted.completed n hcompleted
    | inr hfailed =>
      obtain ⟨j, hj, hnode, _⟩ := (haccounted.failed_iff n).mp hfailed
      exact ⟨j, hj, hnode⟩
  obtain ⟨j, hj, hnode⟩ := hjoined
  obtain ⟨outcome, _, _, entry, hentry, _, hentry_node, hends⟩ :=
    htranscribed.ending_logged hj hpanic (run_joins_scripted hrun j hj)
  exact List.ne_nil_of_mem (mem_endings.mpr ⟨_, List.mem_map_of_mem hentry, hnode ▸ hentry_node, hends⟩)

/-- When the run is over the report of a started node tells its last end and its last error. -/
theorem reported_of_persisted {events : List StampedEvent} (hpersisted : Persisted x events)
    (hstarted : n ∈ started x.loop) : reported (extract_node_results events) n =
      some (status_after (endings (x.log.map Entry.event) n).getLast?,
        ((endings (x.log.map Entry.event) n).filterMap id).getLast?) := by
  have hfirst := (run_transcribed haccepted hrun).started_first n
  rw [reported_eq_foldl, hpersisted, foldl_report_filter, foldl_report_numbered, report_of_started hfirst, if_pos]
  by_contra hnone
  apply endings_ne_nil haccepted hpanic hrun hover hstarted
  apply hfirst.endings_eq_nil
  intro start hmem hnode
  by_contra hstart
  exact hnone ⟨start, hmem, hnode, by simpa using hstart⟩

/-- The report of a started node agrees with the loop exactly where its ends in the log do. -/
theorem status_agrees_iff {events : List StampedEvent} (hpersisted : Persisted x events)
    (hstarted : n ∈ started x.loop) :
    StatusAgrees x.loop (extract_node_results events) n ↔ EndsAlike x.log n := by
  have hreport := reported_of_persisted haccepted hpanic hrun hover hpersisted hstarted
  have hfailed := failed_iff_single_failure haccepted hpanic hrun hover n
  have hended := started_ended haccepted hpanic hrun hover hstarted
  have hsome : SingleFailure x.log n → ∃ error, some error ∈ endings (x.log.map Entry.event) n := by
    rintro ⟨entry, hentry, task, error, hwriter, hnode, _, hends⟩
    refine ⟨error, mem_endings.mpr ⟨_, List.mem_map_of_mem hentry, ?_, hends⟩⟩
    rw [← hnode]
    exact script_node ((run_transcribed haccepted hrun).event_mem_script hentry hwriter)
  have completed_ne_failed : "completed" ≠ "failed" := by decide
  unfold StatusAgrees EndsAlike
  rw [hreport, hfailed]
  rw [hfailed] at hended
  rcases List.eq_nil_or_concat (endings (x.log.map Entry.event) n) with hnil | ⟨before, last, hends⟩
  · exact absurd hnil (endings_ne_nil haccepted hpanic hrun hover hstarted)
  rw [List.concat_eq_append] at hends
  rw [hends] at hsome ⊢
  rw [List.getLast?_concat]
  cases last with
  | none =>
    -- reported as completed: agreement needs that no task has failed
    have herror : ((before ++ [none]).filterMap id).getLast? = none ↔ ∀ error, some error ∉ before ++ [none] := by
      rw [List.getLast?_eq_none_iff, List.filterMap_eq_nil_iff]
      constructor
      · exact fun hall error hmem => nomatch hall _ hmem
      · intro hall how hmem
        cases how with
        | none => rfl
        | some error => exact absurd hmem (hall error)
    constructor
    · rintro ⟨status, error, hsame, _, _, hno_error⟩
      cases hsame
      exact Or.inl (herror.mp (hno_error rfl))
    · intro halike
      have hall : ∀ error, some error ∉ before ++ [none] := by
        rcases halike with hall | ⟨_, error, hlast⟩
        · exact hall
        · cases hlast
      have hsingle : ¬ SingleFailure x.log n := by
        intro hfailure
        obtain ⟨error, hmem⟩ := hsome hfailure
        exact hall error hmem
      refine ⟨_, _, rfl, ?_, ?_, fun _ => herror.mpr hall⟩
      · exact iff_of_true rfl ⟨hended.resolve_right hsingle, hsingle⟩
      · exact iff_of_false completed_ne_failed hsingle
  | some error =>
    -- reported as failed: agreement needs that a single task has failed
    constructor
    · rintro ⟨status, _, hsame, _, hfailed_iff, _⟩
      cases hsame
      exact Or.inr ⟨hfailed_iff.mp rfl, error, rfl⟩
    · intro halike
      have hsingle : SingleFailure x.log n := by
        rcases halike with hall | ⟨hfailure, _⟩
        · exact absurd (List.mem_append_right _ (List.mem_singleton_self _)) (hall error)
        · exact hfailure
      refine ⟨_, _, rfl, ?_, iff_of_true rfl hsingle, fun hstatus => absurd hstatus.symm completed_ne_failed⟩
      exact iff_of_false completed_ne_failed.symm fun h => h.2 hsingle

end Ended

/-- A node that puts out two elements, and a node fanned out over them. -/
def partial_failure_sample : RunContext := sample_context ["A", "S"] [sample_edge "as" "A" "S" none] 50

/-- The first instance fails. -/
def partial_failure_behaviour (task : Task) : Behaviour where
  timeout_ms := 0
  retry := ⟨1, none⟩
  attempts _ := ⟨[],
    if task.node_id = "A" then .ok (.array [.null, .null])
    else if task.fan_out_index = some 0 then .error (.Fatal "broken") else .ok .null⟩

/-- The instance that fails is the last one to end. -/
def partial_failure_moves : List Move :=
  [.write ⟨0, 0⟩, .write ⟨0, 0⟩, .write ⟨0, 0⟩, .join ⟨0, 0⟩, .record, .spawn, .write ⟨1, 0⟩, .write ⟨1, 1⟩,
    .write ⟨1, 1⟩, .write ⟨1, 1⟩, .write ⟨1, 0⟩, .join ⟨1, 1⟩, .spawn, .join ⟨1, 0⟩, .spawn]

/-- The entry as the store holds it, where its number is a `u64`. -/
def stamped (entry : Entry) : Option StampedEvent :=
  if hseq : entry.numbered.seq < 2 ^ 64 then
    some {
      event := entry.numbered
      timestamp := 0
      duration_ms := if entry.numbered.has_duration then some 0 else none
      in_u64 := hseq
      measured := by cases entry.numbered.has_duration <;> rfl }
  else none

def stored (x : Live) : List StampedEvent := x.log.filterMap stamped

theorem persisted_stored {x : Live} (hseq : ∀ entry ∈ x.log, entry.numbered.seq < 2 ^ 64) : Persisted x (stored x) := by
  unfold Persisted stored
  rw [List.map_filterMap]
  congr 1
  rw [← List.filterMap_eq_map]
  apply List.filterMap_congr
  intro entry hentry
  rw [stamped, dif_pos (hseq entry hentry)]
  rfl

theorem partial_failure_no_panic (task : Task) : (partial_failure_behaviour task).NoPanic := by
  intro attempt error
  unfold partial_failure_behaviour
  dsimp only
  split
  · simp
  · split <;> simp

theorem status_agrees_iff_sample : ∃ x, LiveRun partial_failure_sample partial_failure_behaviour 1 partial_failure_moves x ∧
    x.Over ∧ "A" ∈ started x.loop ∧ StatusAgrees x.loop (extract_node_results (stored x)) "A" := by
  have hfold : (partial_failure_moves.foldlM (live_step partial_failure_sample partial_failure_behaviour)
      (initial_live partial_failure_sample 1)).map (fun x => (x.iteration.isNone && x.loop.running.isEmpty &&
        decide ("A" ∈ started x.loop) && x.log.all (fun entry => entry.numbered.seq < 2 ^ 64),
        endings (x.log.map Entry.event) "A")) = some (true, [none]) := by
    decide +kernel
  obtain ⟨x, hmoves, hread⟩ := Option.map_eq_some_iff.mp hfold
  simp only [Prod.mk.injEq, Bool.and_eq_true, Option.isNone_iff_eq_none, List.isEmpty_iff, List.all_eq_true,
    decide_eq_true_eq] at hread
  obtain ⟨⟨⟨⟨hbetween, hrunning⟩, hstarted⟩, hseq⟩, hends⟩ := hread
  have hrun : LiveRun partial_failure_sample partial_failure_behaviour 1 partial_failure_moves x :=
    transition.run_of_foldlM hmoves
  refine ⟨x, hrun, ⟨hbetween, hrunning⟩, hstarted, ?_⟩
  refine (status_agrees_iff (sample_accepted 50 (by decide +kernel)) partial_failure_no_panic hrun
    ⟨hbetween, hrunning⟩ (persisted_stored hseq) hstarted).mpr (Or.inl ?_)
  rw [hends]
  simp

/-- A fan-out with a failed instance completes, and its node is reported as failed where the
failed instance ends last. -/
theorem failed_instance_reported : Accepted partial_failure_sample ∧
    (∀ task, (partial_failure_behaviour task).NoPanic) ∧ ∃ x,
      LiveRun partial_failure_sample partial_failure_behaviour 1 partial_failure_moves x ∧ x.Over ∧
        Persisted x (stored x) ∧ "S" ∈ started x.loop ∧ "S" ∈ x.loop.completed ∧ x.loop.failed = ∅ ∧
        ¬ StatusAgrees x.loop (extract_node_results (stored x)) "S" := by
  have hfold : (partial_failure_moves.foldlM (live_step partial_failure_sample partial_failure_behaviour)
      (initial_live partial_failure_sample 1)).map (fun x => (x.iteration.isNone && x.loop.running.isEmpty &&
        decide ("S" ∈ started x.loop) && decide ("S" ∈ x.loop.completed) && x.loop.failed.card == 0 &&
        x.log.all (fun entry => entry.numbered.seq < 2 ^ 64),
        (reported (extract_node_results (stored x)) "S").map Prod.fst)) = some (true, some "failed") := by
    decide +kernel
  obtain ⟨x, hmoves, hread⟩ := Option.map_eq_some_iff.mp hfold
  simp only [Prod.mk.injEq, Bool.and_eq_true, Option.isNone_iff_eq_none, List.isEmpty_iff, List.all_eq_true,
    decide_eq_true_eq, beq_iff_eq, Finset.card_eq_zero] at hread
  obtain ⟨⟨⟨⟨⟨⟨hbetween, hrunning⟩, hstarted⟩, hcompleted⟩, hfailed⟩, hseq⟩, hreport⟩ := hread
  refine ⟨sample_accepted 50 (by decide +kernel), partial_failure_no_panic, x, transition.run_of_foldlM hmoves,
    ⟨hbetween, hrunning⟩, persisted_stored hseq, hstarted, hcompleted, hfailed, ?_⟩
  rintro ⟨status, error, hreported, _, hfailed_iff, _⟩
  rw [hreported] at hreport
  have hmem := hfailed_iff.mp (Option.some.inj hreport)
  rw [hfailed] at hmem
  exact absurd hmem (Finset.notMem_empty _)

end flow_engine.executor
