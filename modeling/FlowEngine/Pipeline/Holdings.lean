import FlowEngine.Pipeline.Reach

namespace flow_engine.write_pipeline

/-- All that the pipeline holds, or has stored, comes from sources with the property. -/
structure HoldsOnly (P : Source → Prop) (s : PipelineState) : Prop where
  stored : ∀ entry ∈ s.stored, P entry.source
  flushing : ∀ entry ∈ s.pc.flushing, P entry.source
  batch : ∀ entry ∈ s.batch, P entry.source
  queued : ∀ lane, ∀ entry ∈ (s.channels lane).queue, P entry.source

variable {p : WritePipeline} {s next : PipelineState} {P : Source → Prop}

theorem HoldsOnly.mono (h : HoldsOnly P s) {Q : Source → Prop} (hle : ∀ source, P source → Q source) : HoldsOnly Q s := by
  constructor
  · exact fun entry hmem => hle _ (h.stored entry hmem)
  · exact fun entry hmem => hle _ (h.flushing entry hmem)
  · exact fun entry hmem => hle _ (h.batch entry hmem)
  · exact fun lane entry hmem => hle _ (h.queued lane entry hmem)

/-- The loop goes to another place with nothing in hand. -/
theorem HoldsOnly.goto (h : HoldsOnly P s) {pc : Pc} (hidle : pc.idle = true) : HoldsOnly P { s with pc } := by
  refine ⟨h.stored, ?_, h.batch, h.queued⟩
  intro entry hmem
  rw [Pc.idle_flushing hidle] at hmem
  cases hmem

theorem HoldsOnly.finish (h : HoldsOnly P s) {pc : Pc} (hover : pc.over = true) : HoldsOnly P (s.finish pc) := by
  have hflushing : pc.flushing = [] := by cases pc <;> first | rfl | simp [Pc.over] at hover
  constructor
  · exact h.stored
  · intro entry hmem
    simp only [PipelineState.finish, hflushing] at hmem
    cases hmem
  · intro entry hmem
    cases hmem
  · intro lane entry hmem
    cases hmem

theorem HoldsOnly.flush_and_return (h : HoldsOnly P s) : HoldsOnly P s.flush_and_return := by
  unfold PipelineState.flush_and_return
  split
  · exact h.finish rfl
  · exact h.goto rfl

theorem HoldsOnly.resume_at (h : HoldsOnly P s) (resume : Resume) : HoldsOnly P (s.resume_at resume) := by
  cases resume with
  | adaptive => exact h.goto rfl
  | head => exact h.goto rfl
  | exit => exact h.finish rfl

theorem HoldsOnly.receive (h : HoldsOnly P s) {lane : Lane} {entry : Entry}
    (hpeek : (s.channels lane).peek = .message entry) : HoldsOnly P (s.receive lane entry) := by
  have hqueue := mpsc.Channel.peek_message hpeek
  constructor
  · exact h.stored
  · exact h.flushing
  · intro other hmem
    cases List.mem_append.mp hmem with
    | inl hold => exact h.batch other hold
    | inr hnew =>
      rw [List.mem_singleton.mp hnew]
      exact h.queued lane entry (hqueue ▸ List.mem_cons_self)
  · intro other e hmem
    by_cases hlane : other = lane
    · subst hlane
      simp only [PipelineState.receive, Function.update_self] at hmem
      exact h.queued other e (List.mem_of_mem_tail hmem)
    · simp only [PipelineState.receive, Function.update_of_ne hlane] at hmem
      exact h.queued other e hmem

theorem HoldsOnly.close (h : HoldsOnly P s) (channel_open : Lane → Bool) : HoldsOnly P { s with channel_open } :=
  ⟨h.stored, h.flushing, h.batch, h.queued⟩

/-- What is being flushed is stored. -/
theorem HoldsOnly.store (h : HoldsOnly P s) (calls : Nat) :
    HoldsOnly P { s with calls, stored := s.stored ++ s.pc.flushing } := by
  refine ⟨?_, h.flushing, h.batch, h.queued⟩
  intro entry hmem
  cases List.mem_append.mp hmem with
  | inl hold => exact h.stored entry hold
  | inr hnew => exact h.flushing entry hnew

/-- Its critical events go back into the batch. -/
theorem HoldsOnly.rebuffer (h : HoldsOnly P s) (calls : Nat) :
    HoldsOnly P { s with
      calls
      batch := s.batch ++ s.pc.flushing.filter (fun (entry : Entry) => entry.event.is_critical) } := by
  refine ⟨h.stored, h.flushing, ?_, h.queued⟩
  intro entry hmem
  cases List.mem_append.mp hmem with
  | inl hold => exact h.batch entry hold
  | inr hnew => exact h.flushing entry (List.mem_filter.mp hnew).1

theorem HoldsOnly.flush (h : HoldsOnly P s) (hsound : Sound p s) {redacted : List Entry}
    (hredact : s.batch.mapM (redact_entry p) = some redacted) (resume : Resume) :
    HoldsOnly P { s with batch := [], pc := .write redacted resume } := by
  have hsources := (redact_batch hredact hsound.conserved.batch).1
  refine ⟨h.stored, ?_, by simp, h.queued⟩
  intro entry hmem
  have hin : entry.source ∈ s.batch.map Entry.source := hsources ▸ List.mem_map_of_mem hmem
  obtain ⟨old, hold, hsame⟩ := List.mem_map.mp hin
  exact hsame ▸ h.batch old hold

/-- A step of the flush loop brings nothing in. -/
theorem HoldsOnly.proceed (h : HoldsOnly P s) (hsound : Sound p s) {elapsed : Bool}
    (hstep : write_pipeline.proceed p s elapsed = some next) : HoldsOnly P next := by
  cases proceed_moves hstep with
  | stays pc hidle => exact h.goto hidle.2
  | signalled | passes => exact h.goto rfl
  | receives lane entry hpc hopen hpeek => exact (h.receive hpeek).goto rfl
  | closes lane =>
    have hclosed := h.close (Function.update s.channel_open lane false)
    exact hclosed.goto rfl
  | closes_last lane => exact (h.close _).flush_and_return
  | takes lane lanes exiting entry hpc hpeek => exact h.receive hpeek
  | drained => exact h.flush_and_return
  | redacts redacted resume hpc hredact => exact h.flush hsound hredact resume
  | panics => exact h.finish rfl
  | retries redacted resume hpc =>
    have hflushing := h.flushing
    rw [hpc] at hflushing
    exact ⟨h.stored, hflushing, h.batch, h.queued⟩
  | stores resume => exact (h.store _).resume_at resume
  | rebuffers redacted resume => exact (h.rebuffer _).resume_at resume

/-- A channel takes an event. -/
theorem HoldsOnly.accepts (h : HoldsOnly P s) {lane : Lane} {source : Source} (haccepts : Accepts s next lane source)
    (hsource : P source) : HoldsOnly P next := by
  obtain ⟨hpc, hstored, hbatch, _⟩ := haccepts.loop
  refine ⟨hstored ▸ h.stored, hpc ▸ h.flushing, hbatch ▸ h.batch, ?_⟩
  intro other entry hmem
  by_cases hlane : other = lane
  · subst hlane
    rw [haccepts.queue] at hmem
    cases List.mem_append.mp hmem with
    | inl hold => exact h.queued other entry hold
    | inr hnew =>
      rw [List.mem_singleton.mp hnew]
      exact hsource
  · rw [haccepts.others other hlane] at hmem
    exact h.queued other entry hmem

/-- What the channels have accepted stays accepted. -/
theorem accepted_step {action : PipelineAction} (hstep : pipeline_step p s action = some next) :
    s.accepted ⊆ next.accepted := by
  cases pipeline_moves hstep with
  | proceeds elapsed next hproceed =>
    have hwriters := proceed_writers hproceed
    simp only [PipelineState.writers, Prod.mk.injEq] at hwriters
    rw [hwriters.2.2]
    exact List.Subset.refl _
  | sends | tries => exact List.subset_append_left _ _
  | _ => exact List.Subset.refl _

/-- The pipeline holds what its channels have accepted. -/
theorem holds_accepted_step (h : HoldsOnly (· ∈ s.accepted) s) (hsound : Sound p s) {action : PipelineAction}
    (hstep : pipeline_step p s action = some next) : HoldsOnly (· ∈ next.accepted) next := by
  have hkept : HoldsOnly (· ∈ next.accepted) s := h.mono fun _ hmem => accepted_step hstep hmem
  cases pipeline_step_cases hstep with
  | loop elapsed haction hproceed => exact hkept.proceed hsound hproceed
  | accepts lane source haccepts hseq hwaiting hnumber hsenders henters =>
    exact hkept.accepts haccepts (by simp [haccepts.accepted])
  | counts next_seq waiting hnext hseq hwaiting henters | signals shutdown haction hnext hshutdown henters =>
    subst hnext
    exact ⟨hkept.stored, hkept.flushing, hkept.batch, hkept.queued⟩
  | closes lane haction hnext =>
    subst hnext
    refine ⟨hkept.stored, hkept.flushing, hkept.batch, ?_⟩
    intro other entry hmem
    by_cases hlane : other = lane
    · subst hlane
      simp only [Function.update_self, mpsc.Channel.close_senders_queue] at hmem
      exact hkept.queued other entry hmem
    · simp only [Function.update_of_ne hlane] at hmem
      exact hkept.queued other entry hmem

theorem run_holds_accepted {actions : List PipelineAction} (hrun : PipelineRun p actions s) :
    HoldsOnly (· ∈ s.accepted) s := by
  refine hrun.invariant (P := fun _ s => HoldsOnly (· ∈ s.accepted) s) ?_ ?_
  · refine ⟨?_, ?_, ?_, ?_⟩ <;> simp [spawn, Pc.flushing]
  · exact fun _ _ _ _ run h _ hstep => holds_accepted_step h (run_sound run) hstep

end flow_engine.write_pipeline
