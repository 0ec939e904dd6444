import FlowEngine.Pipeline.Lossless

namespace flow_engine.write_pipeline

/-- A critical event that came through the critical channel. -/
def Entry.kept (entry : Entry) : Bool := entry.event.is_critical && entry.source.lane = .critical

/-- The `seq`s of the critical events of a list, in order. -/
def critical_seqs (entries : List Entry) : List Nat :=
  (entries.filter Entry.kept).map fun entry => entry.event.seq

/-- The `seq`s of the critical events that the critical channel has taken, in order. -/
def PipelineState.sent_seqs (s : PipelineState) : List Nat :=
  (s.accepted.filter Source.kept).map fun source => source.event.seq

variable {p : WritePipeline} {s next : PipelineState}

@[simp] theorem critical_seqs_nil : critical_seqs [] = [] := rfl

@[simp] theorem critical_seqs_append (first second : List Entry) :
    critical_seqs (first ++ second) = critical_seqs first ++ critical_seqs second := by
  simp [critical_seqs]

theorem Copy.seq {least : Nat} {entry : Entry} (h : Copy p least entry) :
    entry.event.seq = entry.source.event.seq := by
  obtain ⟨n, _, hn⟩ := h
  exact (redact_times_frame hn).1

/-- Redaction changes neither which events are critical nor their `seq`s. -/
theorem critical_seqs_eq {entries : List Entry} (hcopies : ∀ entry ∈ entries, Copy p 0 entry) :
    critical_seqs entries = (kept_sources entries).map fun source => source.event.seq := by
  rw [critical_seqs, kept_sources, List.filter_map, List.map_map]
  have hkept : entries.filter Entry.kept = entries.filter (Source.kept ∘ Entry.source) := by
    refine List.filter_congr fun entry hmem => ?_
    simp [Entry.kept, Source.kept, (hcopies entry hmem).is_critical]
  rw [hkept]
  refine List.map_congr_left fun entry hmem => ?_
  exact (hcopies entry (List.mem_filter.mp hmem).1).seq

/-- What the writers have numbered carries its number, as far as the counter reaches. -/
def Labelled (s : PipelineState) : Prop :=
  (∀ label ∈ s.waiting, label.2.seq = label.1 % 2 ^ 64) ∧
    ∀ source ∈ s.accepted, source.event.seq = source.number % 2 ^ 64

theorem Labelled.accept (h : Labelled s) {source : Source} (hseq : source.event.seq = source.number % 2 ^ 64)
    (channels : Lane → mpsc.Channel Entry) : Labelled { s with channels, accepted := s.accepted ++ [source] } := by
  refine ⟨h.1, fun other hmem => ?_⟩
  cases List.mem_append.mp hmem with
  | inl hold => exact h.2 other hold
  | inr hnew =>
    rw [List.mem_singleton.mp hnew]
    exact hseq

theorem Labelled.erase (h : Labelled s) (index : Nat) : Labelled { s with waiting := s.waiting.eraseIdx index } :=
  ⟨fun label hmem => h.1 label (List.mem_of_mem_eraseIdx hmem), h.2⟩

theorem Labelled.step (h : Labelled s) {action : PipelineAction} (hstep : pipeline_step p s action = some next) :
    Labelled next := by
  cases pipeline_moves hstep with
  | proceeds elapsed next hproceed =>
    have hwriters := proceed_writers hproceed
    simp only [PipelineState.writers, Prod.mk.injEq] at hwriters
    obtain ⟨_, hwaiting, haccepted⟩ := hwriters
    rw [Labelled, hwaiting, haccepted]
    exact h
  | writes event =>
    refine ⟨fun label hmem => ?_, h.2⟩
    cases List.mem_append.mp hmem with
    | inl hold => exact h.1 label hold
    | inr hnew =>
      rw [List.mem_singleton.mp hnew]
      exact WriteEvent.seq_set_seq _ event
  | sends index label ch hlabel =>
    exact @Labelled.accept _ (h.erase index) (s.waiting_source label) (h.1 label (List.mem_of_getElem? hlabel)) _
  | gives_up index | abandons index => exact h.erase index
  | tries event =>
    have hnumbered : Labelled { s with next_seq := s.next_seq + 1 } := h
    exact @Labelled.accept _ hnumbered (s.tried_source event) (WriteEvent.seq_set_seq _ event) _
  | _ => exact h

theorem run_labelled {actions : List PipelineAction} (hrun : PipelineRun p actions s) : Labelled s := by
  refine hrun.invariant (P := fun _ s => Labelled s) ?_ fun _ _ _ _ _ h _ hstep => h.step hstep
  exact ⟨by simp [spawn], by simp [spawn]⟩

/-- The law of conservation by `seq`. -/
theorem Sound.critical_seqs (h : Sound p s) :
    critical_seqs s.stored ++ critical_seqs (s.pc.flushing ++ s.batch) ++ critical_seqs (s.channels .critical).queue ++
      (kept_sources s.lost).map (fun source => source.event.seq) = s.sent_seqs := by
  have hconserved := h.conserved
  have hheld : ∀ entry ∈ s.pc.flushing ++ s.batch, Copy p 0 entry := fun entry hmem =>
    (List.mem_append.mp hmem).elim (fun hflushing => (hconserved.flushing entry hflushing).weaken) (hconserved.batch entry)
  rw [critical_seqs_eq (p := p) fun entry hmem => (hconserved.stored entry hmem).weaken, critical_seqs_eq (p := p) hheld,
    critical_seqs_eq (p := p) fun entry hmem => (hconserved.queued .critical entry hmem).1]
  rw [PipelineState.sent_seqs, ← hconserved.law]
  simp only [kept_sources_append, List.map_append, List.append_assoc]

theorem Numbered.sent (h : Numbered s) : ((s.accepted.filter Source.kept).map Source.number).Nodup :=
  (List.nodup_append.mp h.distinct).2.1.sublist (List.filter_sublist.map _)

/-- The critical events sent on the critical channel carry distinct `seq`s until the counter
wraps. -/
theorem sent_seqs_nodup (hnumbered : Numbered s) (hlabelled : Labelled s) (hwraps : s.next_seq ≤ 2 ^ 64) :
    s.sent_seqs.Nodup := by
  have hsame : s.sent_seqs = (s.accepted.filter Source.kept).map Source.number := by
    refine List.map_congr_left fun source hmem => ?_
    have haccepted := (List.mem_filter.mp hmem).1
    have hlt := hnumbered.below source.number (List.mem_append_right _ (List.mem_map_of_mem haccepted))
    rw [hlabelled.2 source haccepted]
    exact Nat.mod_eq_of_lt (by omega)
  rw [hsame]
  exact hnumbered.sent

/-- At every point of a run the critical events of the store, of the batch and of the critical
channel are, in this order, those sent on the critical channel. Once the loop has ended, what
the batch and the channel held then takes their place. -/
theorem critical_events_in_order {actions : List PipelineAction} (hrun : PipelineRun p actions s) :
    (s.pc.over = false →
      critical_seqs s.stored ++ critical_seqs (s.pc.flushing ++ s.batch) ++
        critical_seqs (s.channels .critical).queue = s.sent_seqs) ∧
    (s.pc.over = true →
      critical_seqs s.stored ++ (kept_sources s.lost).map (fun source => source.event.seq) = s.sent_seqs) ∧
    critical_seqs s.stored <+: s.sent_seqs ∧
    ((kept_sources s.stored).map Source.number).Nodup ∧
    (s.next_seq ≤ 2 ^ 64 → (critical_seqs s.stored).Nodup) := by
  have h := run_sound hrun
  have hnumbered := run_numbered hrun
  have hlaw := h.critical_seqs
  have hprefix : critical_seqs s.stored <+: s.sent_seqs := by
    rw [← hlaw, List.append_assoc, List.append_assoc]
    exact List.prefix_append _ _
  refine ⟨fun hover => ?_, fun hover => ?_, hprefix, ?_, fun hwraps => ?_⟩
  · rwa [h.running hover, kept_sources_nil, List.map_nil, List.append_nil] at hlaw
  · have hflushing : s.pc.flushing = [] := by cases hpc : s.pc <;> simp [hpc, Pc.over, Pc.flushing] at hover ⊢
    simpa [hflushing, (h.ended hover).1, ((h.ended hover).2 .critical).1] using hlaw
  · have hnumbers := hnumbered.sent
    rw [← h.conserved.law] at hnumbers
    simp only [kept_sources_append, List.map_append, List.append_assoc] at hnumbers
    exact (List.nodup_append.mp hnumbers).1
  · exact (sent_seqs_nodup hnumbered (run_labelled hrun) hwraps).sublist hprefix.sublist

/-- Both writes of a first event fail, and a second event goes behind it. -/
def rebuffered : List PipelineAction :=
  one_write ++ List.replicate 14 (.proceed false) ++ one_write ++ List.replicate 11 (.proceed false)

/-- Whether the loop is still at work, and the `seq`s of what is stored and of what was sent. -/
def progress (s : PipelineState) : Bool × List Nat × List Nat := (s.pc.over, critical_seqs s.stored, s.sent_seqs)

theorem critical_events_in_order_sample : ∃ s, PipelineRun sample_pipeline rebuffered s ∧
    progress s = (false, [1, 2], [1, 2]) ∧ critical_seqs s.stored <+: s.sent_seqs := by
  have hdone : (rebuffered.foldlM (pipeline_step sample_pipeline) (spawn sample_pipeline)).map progress =
      some (false, [1, 2], [1, 2]) := by decide +kernel
  obtain ⟨s, hfold, hprogress⟩ := Option.map_eq_some_iff.mp hdone
  have hrun := transition.run_of_foldlM hfold
  exact ⟨s, hrun, hprogress, (critical_events_in_order hrun).2.2.1⟩

end flow_engine.write_pipeline
