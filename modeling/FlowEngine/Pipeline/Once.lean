import FlowEngine.Pipeline.Holdings

namespace flow_engine.write_pipeline

variable {p : WritePipeline} {s next : PipelineState}

/-- What waits in the pipeline is as it was sent, and what has left the batch is redacted once. -/
structure RedactsOnce (p : WritePipeline) (s : PipelineState) : Prop where
  stored : ∀ entry ∈ s.stored, redact_event p.redactor p.node_meta entry.source.event = some entry.event
  flushing : ∀ entry ∈ s.pc.flushing, redact_event p.redactor p.node_meta entry.source.event = some entry.event
  batch : ∀ entry ∈ s.batch, entry.event = entry.source.event
  queued : ∀ lane, ∀ entry ∈ (s.channels lane).queue, entry.event = entry.source.event

theorem RedactsOnce.goto (h : RedactsOnce p s) {pc : Pc} (hidle : pc.idle = true) : RedactsOnce p { s with pc } := by
  refine ⟨h.stored, ?_, h.batch, h.queued⟩
  intro entry hmem
  rw [Pc.idle_flushing hidle] at hmem
  cases hmem

theorem RedactsOnce.finish (h : RedactsOnce p s) {pc : Pc} (hflushing : pc.flushing = []) : RedactsOnce p (s.finish pc) := by
  refine ⟨h.stored, ?_, ?_, ?_⟩
  · intro entry hmem
    rw [PipelineState.finish, hflushing] at hmem
    cases hmem
  · exact fun entry hmem => by cases hmem
  · exact fun lane entry hmem => by cases hmem

theorem RedactsOnce.flush_and_return (h : RedactsOnce p s) : RedactsOnce p s.flush_and_return := by
  unfold PipelineState.flush_and_return
  split
  · exact h.finish rfl
  · exact h.goto rfl

theorem RedactsOnce.receive (h : RedactsOnce p s) {lane : Lane} {entry : Entry}
    (hpeek : (s.channels lane).peek = .message entry) : RedactsOnce p (s.receive lane entry) := by
  have hqueue := mpsc.Channel.peek_message hpeek
  refine ⟨h.stored, h.flushing, ?_, ?_⟩
  · intro other hmem
    cases List.mem_append.mp hmem with
    | inl hold => exact h.batch other hold
    | inr hnew =>
      rw [List.mem_singleton.mp hnew]
      exact h.queued lane entry (hqueue ▸ List.mem_cons_self)
  · intro other e hmem
    by_cases hlane : other = lane
    · subst hlane
      simp only [PipelineState.receive, Function.update_self] at hmem
      exact h.queued other e (List.mem_of_mem_tail hmem)
    · simp only [PipelineState.receive, Function.update_of_ne hlane] at hmem
      exact h.queued other e hmem

/-- A batch as it was sent is redacted for the first time. -/
theorem redact_batch_once {batch redacted : List Entry} (h : batch.mapM (redact_entry p) = some redacted)
    (hraw : ∀ entry ∈ batch, entry.event = entry.source.event) :
    ∀ entry ∈ redacted, redact_event p.redactor p.node_meta entry.source.event = some entry.event := by
  intro entry hmem
  obtain ⟨raw, hraw_mem, hredact⟩ := fallible.mem_forall₂ (fallible.mapM_eq_some_iff.mp h) hmem
  obtain ⟨event, hevent, rfl⟩ := Option.map_eq_some_iff.mp hredact
  rwa [hraw raw hraw_mem] at hevent

/-- Over a store that works the loop redacts nothing again. -/
theorem RedactsOnce.proceed (h : RedactsOnce p s) (hworks : p.fails s.calls = false) {elapsed : Bool}
    (hstep : write_pipeline.proceed p s elapsed = some next) : RedactsOnce p next := by
  cases proceed_moves hstep with
  | stays pc hidle => exact h.goto hidle.2
  | signalled | passes => exact h.goto rfl
  | receives lane entry hpc hopen hpeek => exact (h.receive hpeek).goto rfl
  | closes lane =>
    refine ⟨h.stored, ?_, h.batch, h.queued⟩
    intro entry hmem
    cases hmem
  | closes_last lane =>
    have hclosed : RedactsOnce p { s with channel_open := Function.update s.channel_open lane false } :=
      ⟨h.stored, h.flushing, h.batch, h.queued⟩
    exact hclosed.flush_and_return
  | takes lane lanes exiting entry hpc hpeek => exact h.receive hpeek
  | drained => exact h.flush_and_return
  | redacts redacted resume hpc hredact =>
    refine ⟨h.stored, redact_batch_once hredact h.batch, ?_, h.queued⟩
    intro entry hmem
    cases hmem
  | panics => exact h.finish rfl
  | retries redacted resume hpc hfails =>
    rw [hworks] at hfails
    cases hfails
  | stores resume hwriting hleaving _ =>
    have hstored : RedactsOnce p { s with calls := s.calls + 1, stored := s.stored ++ s.pc.flushing } := by
      refine ⟨?_, h.flushing, h.batch, h.queued⟩
      intro entry hmem
      exact (List.mem_append.mp hmem).elim (h.stored entry) (h.flushing entry)
    cases resume with
    | adaptive | head => exact hstored.goto rfl
    | exit => exact hstored.finish rfl
  | rebuffers redacted resume hpc hfails =>
    rw [hworks] at hfails
    cases hfails

theorem RedactsOnce.step (h : RedactsOnce p s) (hworks : p.fails s.calls = false) {action : PipelineAction}
    (hstep : pipeline_step p s action = some next) : RedactsOnce p next := by
  cases pipeline_step_cases hstep with
  | loop elapsed haction hproceed => exact h.proceed hworks hproceed
  | accepts lane source haccepts =>
    obtain ⟨hpc, hstored, hbatch, _⟩ := haccepts.loop
    refine ⟨hstored ▸ h.stored, hpc ▸ h.flushing, hbatch ▸ h.batch, ?_⟩
    intro other entry hmem
    by_cases hlane : other = lane
    · subst hlane
      rw [haccepts.queue] at hmem
      cases List.mem_append.mp hmem with
      | inl hold => exact h.queued other entry hold
      | inr hnew => rw [List.mem_singleton.mp hnew]
    · rw [haccepts.others other hlane] at hmem
      exact h.queued other entry hmem
  | counts next_seq waiting hnext | signals shutdown haction hnext =>
    subst hnext
    exact ⟨h.stored, h.flushing, h.batch, h.queued⟩
  | closes lane haction hnext =>
    subst hnext
    refine ⟨h.stored, h.flushing, h.batch, ?_⟩
    intro other entry hmem
    by_cases hlane : other = lane
    · subst hlane
      simp only [Function.update_self, mpsc.Channel.close_senders_queue] at hmem
      exact h.queued other entry hmem
    · simp only [Function.update_of_ne hlane] at hmem
      exact h.queued other entry hmem

theorem run_redacts_once (hworks : ∀ call, p.fails call = false) {actions : List PipelineAction}
    (hrun : PipelineRun p actions s) : RedactsOnce p s := by
  refine hrun.invariant (P := fun _ s => RedactsOnce p s) ?_ fun _ _ _ _ _ h _ hstep => h.step (hworks _) hstep
  refine ⟨?_, ?_, ?_, ?_⟩ <;> simp [spawn, Pc.flushing]

/-- A loop that has not panicked has lost no promised event to a store that works. -/
theorem run_keeps_promises (hworks : ∀ call, p.fails call = false) {actions : List PipelineAction}
    (hrun : PipelineRun p actions s) (hpanics : s.pc ≠ .panicked) : ¬ Promises s.lost := by
  refine hrun.invariant (P := fun _ s => s.pc ≠ .panicked → ¬ Promises s.lost) ?_ ?_ hpanics
  · exact fun _ => by simp [spawn]
  intro actions s action next run hkept _ hstep hnext
  refine ((run_sound run).step_lost hstep).mpr ⟨hkept (panicked_step hstep hnext), ?_⟩
  cases action with
  | proceed elapsed =>
    rintro (⟨hpanics, _⟩ | ⟨redacted, _, hfails, _⟩)
    · exact hnext (hpanics.proceed hstep)
    · rw [hworks] at hfails
      cases hfails
  | _ => exact trivial

/-- When the loop has returned, a store that works has the critical events that were sent before the
shutdown, in the order in which they were sent. -/
theorem returned_keeps (hworks : ∀ call, p.fails call = false) {actions : List PipelineAction}
    (hrun : PipelineRun p actions s) (hreturned : s.pc = .returned)
    (hearly : ∀ source ∈ s.accepted, source.kept = true → source.early = true) :
    kept_sources s.stored = s.accepted.filter Source.kept := by
  have hsound := run_sound hrun
  have hkept := run_keeps_promises hworks hrun (by rw [hreturned]; exact fun h => by cases h)
  have hended := hsound.ended (by rw [hreturned]; rfl)
  have hlaw := hsound.conserved.law
  rw [hreturned, hended.1, (hended.2 .critical).1] at hlaw
  simp only [Pc.flushing, List.append_nil, kept_sources_append] at hlaw
  have hlost : kept_sources s.lost = [] := by
    rw [List.eq_nil_iff_forall_not_mem]
    intro source hmem
    obtain ⟨entry, hentry, rfl, hkind⟩ := mem_kept_sources.mp hmem
    have haccepted : entry.source ∈ s.accepted.filter Source.kept := hlaw ▸ List.mem_append_right _ hmem
    refine hkept ⟨entry, hentry, ?_⟩
    rw [Source.promised, hkind, hearly entry.source (List.mem_filter.mp haccepted).1 hkind]
    rfl
  rwa [hlost, List.append_nil] at hlaw

end flow_engine.write_pipeline
