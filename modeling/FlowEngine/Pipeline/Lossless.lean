import FlowEngine.Pipeline.Numbering

namespace flow_engine.write_pipeline

/-- A critical event that `write` has sent before the shutdown. -/
def Source.promised (source : Source) : Bool := source.kept && source.early

/-- A promised event is among the entries. -/
def Promises (entries : List Entry) : Prop := ∃ entry ∈ entries, entry.source.promised = true

/-- The store holds the event, redacted. -/
def Stored (p : WritePipeline) (s : PipelineState) (source : Source) : Prop :=
  ∃ entry ∈ s.stored, entry.source = source ∧ Copy p 1 entry

/-- The flush loop is about to lose a promised event: it panics while it has one to read or to
flush, or the second write of its last flush fails. -/
def LosesPromised (p : WritePipeline) (s : PipelineState) : Prop :=
  (Panics p s ∧ Promises (s.batch ++ (s.channels .critical).queue)) ∨
  (∃ redacted, s.pc = .retry redacted .exit ∧ p.fails s.calls = true ∧ Promises redacted)

/-- An action that is no such step of the loop. -/
def KeepsPromised (p : WritePipeline) (s : PipelineState) : PipelineAction → Prop
  | .proceed _ => ¬ LosesPromised p s
  | _ => True

variable {p : WritePipeline} {s next : PipelineState}

@[simp] theorem promises_nil : ¬ Promises [] := by simp [Promises]

@[simp] theorem promises_append {first second : List Entry} :
    Promises (first ++ second) ↔ Promises first ∨ Promises second := by
  simp [Promises, or_and_right, exists_or]

theorem Drained.no_promise (h : Drained s) : ¬ Promises (s.channels .critical).queue := by
  rintro ⟨entry, hmem, hpromised⟩
  simp [Source.promised, h entry hmem] at hpromised

/-- What the loop drops as it ends. -/
theorem Ready.finish_lost (h : Ready p s) (pc : Pc) :
    Promises (s.finish pc).lost ↔ Promises (s.batch ++ (s.channels .critical).queue) := by
  have hadvisory : ¬ Promises (s.channels .advisory).queue := by
    rintro ⟨entry, hmem, hpromised⟩
    simp [Source.promised, Source.kept, (h.conserved.queued .advisory entry hmem).2] at hpromised
  simp [PipelineState.finish, hadvisory]

theorem Ready.flush_and_return_lost (h : Ready p s) (hdrained : Drained s) : ¬ Promises s.flush_and_return.lost := by
  unfold PipelineState.flush_and_return
  split
  · rename_i hempty
    rw [h.finish_lost, promises_append, List.isEmpty_iff.mp hempty]
    exact fun hlost => hlost.elim promises_nil hdrained.no_promise
  · simp [h.lost]

theorem Ready.resume_at_lost (h : Ready p s) (resume : Resume) :
    Promises (s.resume_at resume).lost ↔ resume = .exit ∧ Promises (s.batch ++ (s.channels .critical).queue) := by
  cases resume with
  | adaptive => simp [PipelineState.resume_at, h.lost]
  | head => simp [PipelineState.resume_at, h.lost]
  | exit => simpa [PipelineState.resume_at] using h.finish_lost .returned

/-- A write that has succeeded loses nothing, even the last. -/
theorem Sound.store_lost (h : Sound p s) (hwriting : s.pc.writing = true) (resume : Resume)
    (hdrained : resume = .exit → s.pc.drained = true) (calls : Nat) :
    ¬ Promises ({ s with calls, stored := s.stored ++ s.pc.flushing }.resume_at resume).lost := by
  rw [(h.store hwriting calls).resume_at_lost]
  rintro ⟨hexit, hlost⟩
  simp only [h.writing hwriting, List.nil_append] at hlost
  exact (h.drained (hdrained hexit)).no_promise hlost

/-- Writes that have failed lose what they held, if they were the last. -/
theorem Sound.rebuffer_lost (h : Sound p s) (hwriting : s.pc.writing = true) (resume : Resume)
    (hdrained : resume = .exit → s.pc.drained = true) (calls : Nat) :
    Promises ({ s with
        calls
        batch := s.batch ++ s.pc.flushing.filter (fun (entry : Entry) => entry.event.is_critical) }.resume_at
          resume).lost ↔
      resume = .exit ∧ Promises s.pc.flushing := by
  rw [(h.rebuffer hwriting calls).resume_at_lost]
  refine and_congr_right fun hexit => ?_
  simp only [h.writing hwriting, List.nil_append, promises_append, (h.drained (hdrained hexit)).no_promise, or_false]
  constructor
  · rintro ⟨entry, hmem, hpromised⟩
    exact ⟨entry, (List.mem_filter.mp hmem).1, hpromised⟩
  · rintro ⟨entry, hmem, hpromised⟩
    refine ⟨entry, List.mem_filter.mpr ⟨hmem, ?_⟩, hpromised⟩
    rw [(h.conserved.flushing entry hmem).is_critical]
    simp only [Source.promised, Source.kept, Bool.and_eq_true] at hpromised
    exact hpromised.1.1

theorem losesPromised_retry {redacted : List Entry} {resume : Resume} (hpc : s.pc = .retry redacted resume) :
    LosesPromised p s ↔ resume = .exit ∧ p.fails s.calls = true ∧ Promises redacted := by
  simp only [LosesPromised, Panics, hpc, reduceCtorEq, false_and, exists_false, or_self, false_or, Pc.retry.injEq]
  constructor
  · rintro ⟨_, ⟨rfl, rfl⟩, hfails, hpromises⟩
    exact ⟨rfl, hfails, hpromises⟩
  · rintro ⟨rfl, hfails, hpromises⟩
    exact ⟨redacted, ⟨rfl, rfl⟩, hfails, hpromises⟩

/-- Only a panic and a second write can lose promised events. -/
theorem not_losesPromised (hpanics : ¬ Panics p s) (hretry : ∀ redacted resume, s.pc ≠ .retry redacted resume) :
    ¬ LosesPromised p s := by
  rintro (⟨hpanic, _⟩ | ⟨redacted, hpc, _⟩)
  · exact hpanics hpanic
  · exact hretry redacted _ hpc

/-- A step of the flush loop loses a promised event exactly if it is a losing one. -/
theorem Sound.proceed_lost (h : Sound p s) (hkept : ¬ Promises s.lost) {elapsed : Bool}
    (hstep : write_pipeline.proceed p s elapsed = some next) : Promises next.lost ↔ LosesPromised p s := by
  cases proceed_moves hstep with
  | stays pc hidle hstays hlives =>
    refine iff_of_false hkept (not_losesPromised hlives fun redacted resume hpc => ?_)
    rw [hpc] at hidle
    cases hidle.1
  | signalled hpc | receives _ _ hpc | closes _ hpc | takes _ _ _ _ hpc | passes _ _ _ hpc | retries _ _ hpc =>
    exact iff_of_false hkept (not_losesPromised (by simp [Panics, hpc]) (by simp [hpc]))
  | closes_last lane hpc hopen hpeek hother =>
    have hready := h.ready (by rw [hpc]; rfl)
    have hempty := hready.both_closed hpeek hother
    have hlost := (hready.close hpeek).flush_and_return_lost (by simp [Drained, hempty.1])
    exact iff_of_false hlost (not_losesPromised (by simp [Panics, hpc]) (by simp [hpc]))
  | drained hpc =>
    have hlost := (h.ready (by rw [hpc]; rfl)).flush_and_return_lost (h.drained (by rw [hpc]; rfl))
    exact iff_of_false hlost (not_losesPromised (by simp [Panics, hpc]) (by simp [hpc]))
  | redacts redacted resume hpc hredact =>
    have hsafe : ¬ ∃ entry ∈ s.batch, redact_event p.redactor p.node_meta entry.event = none := by
      rw [← redact_batch_panics, hredact]
      simp
    exact iff_of_false hkept (not_losesPromised (by simp [Panics, hpc, hsafe]) (by simp [hpc]))
  | panics hpanics =>
    have hidle := hpanics.idle
    have hretry : ¬ ∃ redacted, s.pc = .retry redacted .exit ∧ p.fails s.calls = true ∧ Promises redacted := by
      rintro ⟨redacted, hpc, _⟩
      rw [hpc] at hidle
      cases hidle
    rw [(h.ready hidle).finish_lost, LosesPromised, or_iff_left hretry, and_iff_right hpanics]
  | stores resume hwriting hleaving hworks =>
    have hlost := h.store_lost hwriting resume
      (fun hexit => by rw [Pc.drained_of_writing hwriting, hleaving, hexit]; rfl) (s.calls + 1)
    refine iff_of_false hlost ?_
    rintro (⟨hpanics, _⟩ | ⟨_, _, hfails, _⟩)
    · have hidle := hpanics.idle
      simp [Pc.idle, hwriting] at hidle
    · rw [hworks] at hfails
      cases hfails
  | rebuffers redacted resume hpc hfails =>
    have hlost := h.rebuffer_lost (by rw [hpc]; rfl) resume (by rintro rfl; rw [hpc]; rfl) (s.calls + 1)
    rw [losesPromised_retry hpc]
    refine hlost.trans (and_congr_right fun _ => ?_)
    rw [hpc]
    simp [hfails, Pc.flushing]

/-- A step after which nothing promised is lost is one before which nothing was, and that
loses nothing. -/
theorem Sound.step_lost (h : Sound p s) {action : PipelineAction} (hstep : pipeline_step p s action = some next) :
    ¬ Promises next.lost ↔ ¬ Promises s.lost ∧ KeepsPromised p s action := by
  cases action with
  | proceed elapsed =>
    have hover : s.pc.over = false := by
      cases hpc : s.pc <;> first | rfl | simp [pipeline_step, write_pipeline.proceed, hpc] at hstep
    have hkept : ¬ Promises s.lost := by
      rw [h.running hover]
      exact promises_nil
    simp [KeepsPromised, h.proceed_lost hkept hstep, hkept]
  | _ =>
    rw [(pipeline_step_kept hstep fun elapsed => by simp).2]
    simp [KeepsPromised]

/-- Once the loop has ended every promised event is in the store or lost, never both. -/
theorem Sound.all_stored_iff (h : Sound p s) (hnumbered : Numbered s) (hover : s.pc.over = true) :
    (∀ source ∈ s.accepted, source.promised = true → Stored p s source) ↔ ¬ Promises s.lost := by
  have hlaw := h.conserved.law
  have hflushing : s.pc.flushing = [] := by cases hpc : s.pc <;> simp [hpc, Pc.over, Pc.flushing] at hover ⊢
  rw [hflushing, (h.ended hover).1, ((h.ended hover).2 .critical).1] at hlaw
  simp only [List.append_nil, kept_sources_append] at hlaw
  constructor
  · rintro hstored ⟨entry, hmem, hpromised⟩
    have hkept : entry.source.kept = true := by
      simp only [Source.promised, Bool.and_eq_true] at hpromised
      exact hpromised.1
    have hlost : entry.source ∈ kept_sources s.lost := mem_kept_sources.mpr ⟨entry, hmem, rfl, hkept⟩
    have haccepted : entry.source ∈ s.accepted.filter Source.kept := hlaw ▸ List.mem_append_right _ hlost
    obtain ⟨stored, hmem', hsource, _⟩ := hstored _ (List.mem_filter.mp haccepted).1 hpromised
    have hin : entry.source ∈ kept_sources s.stored := mem_kept_sources.mpr ⟨stored, hmem', hsource, hkept⟩
    -- The numbers are distinct, so an event cannot be in two places.
    have hdistinct : (s.accepted.filter Source.kept).Nodup :=
      ((List.nodup_append.mp hnumbered.distinct).2.1.of_map Source.number).filter _
    rw [← hlaw] at hdistinct
    exact List.disjoint_of_nodup_append hdistinct hin hlost
  · intro hnone source hsource hpromised
    have hkept : source.kept = true := by
      simp only [Source.promised, Bool.and_eq_true] at hpromised
      exact hpromised.1
    have hmem : source ∈ kept_sources s.stored ++ kept_sources s.lost :=
      hlaw ▸ List.mem_filter.mpr ⟨hsource, hkept⟩
    cases List.mem_append.mp hmem with
    | inl hstored =>
      obtain ⟨entry, hentry, rfl, _⟩ := mem_kept_sources.mp hstored
      exact ⟨entry, hentry, rfl, h.conserved.stored entry hentry⟩
    | inr hlost =>
      obtain ⟨entry, hentry, rfl, _⟩ := mem_kept_sources.mp hlost
      exact absurd ⟨entry, hentry, hpromised⟩ hnone

theorem run_keeps_promised_iff {actions : List PipelineAction} (hrun : PipelineRun p actions s) :
    ¬ Promises s.lost ↔ transition.Run (pipeline_step p) (KeepsPromised p) (spawn p) actions s := by
  have hgood := hrun.holds_iff_good (fun s => ¬ Promises s.lost) (KeepsPromised p) (by simp [spawn])
    fun _ _ _ _ run _ hstep => (run_sound run).step_lost hstep
  refine hgood.trans ⟨?_, ?_⟩
  · exact transition.Run.mono fun _ _ h => h.2
  · exact transition.Run.mono fun _ _ h => ⟨trivial, h⟩

/-- When the loop has ended, for which `shutdown` waits, every critical event that `write`
had sent before the shutdown is in the store exactly if no step of the run was a losing one. -/
theorem critical_events_stored_iff {actions : List PipelineAction} (hrun : PipelineRun p actions s)
    (hover : s.pc.over = true) :
    (∀ source ∈ s.accepted, source.promised = true → Stored p s source) ↔
      transition.Run (pipeline_step p) (KeepsPromised p) (spawn p) actions s := by
  rw [(run_sound hrun).all_stored_iff (run_numbered hrun) hover]
  exact run_keeps_promised_iff hrun

/-- A pipeline whose store fails in its first two calls. -/
def sample_pipeline : WritePipeline where
  config := ⟨2, 100, fun _ => true⟩
  capacity _ := 1
  redactor := default_redactor
  node_meta _ := none
  fails n := n < 2

/-- A writer sends a critical event. -/
def one_write : List PipelineAction := [.write (.Checkpoint 0 "run" "A" .null), .send 0]

/-- Both failures hit an ordinary flush, and the interval ticks before the shutdown. -/
def failed_early : List PipelineAction :=
  one_write ++ List.replicate 14 (.proceed false) ++ [.proceed true, .proceed false, .proceed false, .shutdown] ++
    List.replicate 5 (.proceed false)

/-- Both failures hit the last flush. -/
def failed_last : List PipelineAction :=
  one_write ++ [.shutdown] ++ List.replicate 9 (.proceed false)

/-- Whether the loop has ended after a shutdown, which of the accepted events are promised,
and how many are stored. -/
def outcome (s : PipelineState) : Bool × List Bool × Nat :=
  (s.pc.over && s.shutdown = .sent, s.accepted.map Source.promised, s.stored.length)

theorem exists_ended {actions : List PipelineAction} {promised : List Bool} {stored : Nat}
    (h : (actions.foldlM (pipeline_step p) (spawn p)).map outcome = some (true, promised, stored)) :
    ∃ s, PipelineRun p actions s ∧ s.pc.over = true ∧ s.shutdown = .sent ∧ s.accepted.map Source.promised = promised ∧
      s.stored.length = stored := by
  obtain ⟨s, hfold, houtcome⟩ := Option.map_eq_some_iff.mp h
  simp only [outcome, Prod.mk.injEq, Bool.and_eq_true, decide_eq_true_eq] at houtcome
  exact ⟨s, transition.run_of_foldlM hfold, houtcome.1.1, houtcome.1.2, houtcome.2.1, houtcome.2.2⟩

theorem critical_events_stored_iff_sample : ∃ s, PipelineRun sample_pipeline failed_early s ∧ s.pc.over = true ∧
    s.stored.length = 1 ∧
    ((∀ source ∈ s.accepted, source.promised = true → Stored sample_pipeline s source) ↔
      transition.Run (pipeline_step sample_pipeline) (KeepsPromised sample_pipeline) (spawn sample_pipeline)
        failed_early s) := by
  have hended : (failed_early.foldlM (pipeline_step sample_pipeline) (spawn sample_pipeline)).map outcome =
      some (true, [true], 1) := by decide +kernel
  obtain ⟨s, hrun, hover, _, _, hstored⟩ := exists_ended hended
  exact ⟨s, hrun, hover, hstored, critical_events_stored_iff hrun hover⟩

/-- A critical event sent before the shutdown is not in the store when `shutdown` returns,
though every later call of the store would have succeeded. -/
theorem last_flush_loses_critical_event : (∀ n, 2 ≤ n → sample_pipeline.fails n = false) ∧
    ∃ s source, PipelineRun sample_pipeline failed_last s ∧ s.pc.over = true ∧ s.shutdown = .sent ∧
      source ∈ s.accepted ∧ source.promised = true ∧ ¬ Stored sample_pipeline s source := by
  have hended : (failed_last.foldlM (pipeline_step sample_pipeline) (spawn sample_pipeline)).map outcome =
      some (true, [true], 0) := by decide +kernel
  obtain ⟨s, hrun, hover, hshutdown, hpromised, hstored⟩ := exists_ended hended
  refine ⟨fun n hn => decide_eq_false (Nat.not_lt.mpr hn), ?_⟩
  obtain ⟨source, haccepted, htrue⟩ := List.map_eq_singleton_iff.mp hpromised
  refine ⟨s, source, hrun, hover, hshutdown, by simp [haccepted], htrue, ?_⟩
  rintro ⟨entry, hmem, _⟩
  simp [List.length_eq_zero_iff.mp hstored] at hmem

end flow_engine.write_pipeline
