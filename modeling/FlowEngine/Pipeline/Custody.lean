import FlowEngine.Lib.Fallible
import FlowEngine.Pipeline.State

namespace flow_engine.write_pipeline

/-- A critical event that went through the critical channel. -/
def Source.kept (source : Source) : Bool := source.event.is_critical && source.lane = .critical

/-- The sources of the critical events of a list, in order. -/
def kept_sources (entries : List Entry) : List Source := (entries.map Entry.source).filter Source.kept

@[simp] theorem kept_sources_nil : kept_sources [] = [] := rfl

@[simp] theorem kept_sources_append (first second : List Entry) :
    kept_sources (first ++ second) = kept_sources first ++ kept_sources second := by
  simp [kept_sources]

theorem mem_kept_sources {entries : List Entry} {source : Source} :
    source ∈ kept_sources entries ↔ ∃ entry ∈ entries, entry.source = source ∧ source.kept = true := by
  simp only [kept_sources, List.mem_filter, List.mem_map]
  constructor
  · rintro ⟨⟨entry, hmem, heq⟩, hkept⟩
    exact ⟨entry, hmem, heq, hkept⟩
  · rintro ⟨entry, hmem, heq, hkept⟩
    exact ⟨⟨entry, hmem, heq⟩, hkept⟩

/-- Events of the advisory channel are not counted. -/
theorem kept_sources_advisory {entries : List Entry} (h : ∀ entry ∈ entries, entry.source.lane = .advisory) :
    kept_sources entries = [] := by
  refine List.filter_eq_nil_iff.mpr fun source hsource => ?_
  obtain ⟨entry, hmem, rfl⟩ := List.mem_map.mp hsource
  simp [Source.kept, h entry hmem]

/-- An entry that redaction has passed over at least `least` times. -/
def Copy (p : WritePipeline) (least : Nat) (entry : Entry) : Prop :=
  ∃ n, least ≤ n ∧ redact_times p.redactor p.node_meta n entry.source.event = some entry.event

theorem Copy.weaken {p : WritePipeline} {least : Nat} {entry : Entry} (h : Copy p least entry) : Copy p 0 entry := by
  obtain ⟨n, _, hn⟩ := h
  exact ⟨n, Nat.zero_le n, hn⟩

theorem Copy.is_critical {p : WritePipeline} {least : Nat} {entry : Entry} (h : Copy p least entry) :
    entry.event.is_critical = entry.source.event.is_critical := by
  obtain ⟨n, _, hn⟩ := h
  exact (redact_times_frame hn).2

theorem Copy.redact {p : WritePipeline} {least : Nat} {entry redacted : Entry} (h : Copy p least entry)
    (hredact : redact_entry p entry = some redacted) :
    redacted.source = entry.source ∧ Copy p (least + 1) redacted := by
  obtain ⟨event, hevent, rfl⟩ := Option.map_eq_some_iff.mp hredact
  obtain ⟨n, hleast, hn⟩ := h
  refine ⟨rfl, n + 1, by omega, ?_⟩
  rw [redact_times, hn]
  exact hevent

/-- Redacting a batch redacts each of its events. -/
theorem redact_batch {p : WritePipeline} {batch redacted : List Entry} (h : batch.mapM (redact_entry p) = some redacted)
    (hcopies : ∀ entry ∈ batch, Copy p 0 entry) :
    redacted.map Entry.source = batch.map Entry.source ∧ ∀ entry ∈ redacted, Copy p 1 entry := by
  induction batch generalizing redacted with
  | nil =>
    cases h
    exact ⟨rfl, by simp⟩
  | cons first rest ih =>
    rw [List.mapM_cons] at h
    obtain ⟨first', hfirst, hrest⟩ := Option.bind_eq_some_iff.mp h
    obtain ⟨rest', hrest', hdone⟩ := Option.bind_eq_some_iff.mp hrest
    cases hdone
    obtain ⟨hsource, hcopy⟩ := (hcopies first List.mem_cons_self).redact hfirst
    obtain ⟨hsources, hcopied⟩ := ih hrest' fun entry hmem => hcopies entry (List.mem_cons_of_mem _ hmem)
    constructor
    · rw [List.map_cons, List.map_cons, hsource, hsources]
    · intro entry hmem
      cases List.mem_cons.mp hmem with
      | inl heq => exact heq ▸ hcopy
      | inr hmem => exact hcopied entry hmem

/-- Redacting a batch panics exactly if redacting one of its events does. -/
theorem redact_batch_panics {p : WritePipeline} {batch : List Entry} :
    batch.mapM (redact_entry p) = none ↔ ∃ entry ∈ batch, redact_event p.redactor p.node_meta entry.event = none := by
  rw [fallible.mapM_eq_none_iff]
  simp only [redact_entry, Option.map_eq_none_iff]

/-- Every event that the channels accepted is in one place, in order of acceptance: in the
store, in the batch being flushed, in the batch, in the channel or among the lost. -/
structure Conserved (p : WritePipeline) (stored flushing batch : List Entry) (channels : Lane → mpsc.Channel Entry)
    (lost : List Entry) (accepted : List Source) : Prop where
  law : kept_sources (stored ++ flushing ++ batch ++ (channels .critical).queue ++ lost) = accepted.filter Source.kept
  stored : ∀ entry ∈ stored, Copy p 1 entry
  flushing : ∀ entry ∈ flushing, Copy p 1 entry
  batch : ∀ entry ∈ batch, Copy p 0 entry
  queued : ∀ lane, ∀ entry ∈ (channels lane).queue, Copy p 0 entry ∧ entry.source.lane = lane

namespace Conserved

variable {p : WritePipeline} {stored flushing batch : List Entry} {channels : Lane → mpsc.Channel Entry}
variable {lost : List Entry} {accepted : List Source}

/-- A channel takes a new event. -/
theorem accept (h : Conserved p stored flushing batch channels [] accepted) {source : Source}
    {ch : mpsc.Channel Entry} (hqueue : ch.queue = (channels source.lane).queue ++ [⟨source, source.event⟩]) :
    Conserved p stored flushing batch (Function.update channels source.lane ch) [] (accepted ++ [source]) := by
  constructor
  · have hlaw := h.law
    rw [List.filter_append, ← hlaw]
    cases hlane : source.lane with
    | critical => simp [hlane ▸ hqueue, kept_sources]
    | advisory => simp [Source.kept, hlane]
  · exact h.stored
  · exact h.flushing
  · exact h.batch
  · intro lane entry hmem
    by_cases hlane : lane = source.lane
    · subst hlane
      rw [Function.update_self, hqueue, List.mem_append, List.mem_singleton] at hmem
      cases hmem with
      | inl hold => exact h.queued source.lane entry hold
      | inr hnew =>
        subst hnew
        exact ⟨⟨0, Nat.le_refl 0, rfl⟩, rfl⟩
    · rw [Function.update_of_ne hlane] at hmem
      exact h.queued lane entry hmem

/-- An event moves from its channel into the batch. -/
theorem receive (h : Conserved p stored flushing batch channels lost accepted) {lane : Lane} {entry : Entry}
    (hpeek : (channels lane).peek = .message entry) :
    Conserved p stored flushing (batch ++ [entry]) (Function.update channels lane (channels lane).taken) lost
      accepted := by
  have hqueue := mpsc.Channel.peek_message hpeek
  have hentry := h.queued lane entry (hqueue ▸ List.mem_cons_self)
  constructor
  · rw [← h.law]
    cases lane with
    | critical =>
      rw [Function.update_self, hqueue]
      congr 1
      simp only [List.append_assoc, List.cons_append, List.nil_append]
    | advisory =>
      have hnone : kept_sources [entry] = [] := kept_sources_advisory (by simp [hentry.2])
      rw [Function.update_of_ne (by decide)]
      simp only [kept_sources_append, hnone, List.append_nil]
  · exact h.stored
  · exact h.flushing
  · intro e hmem
    cases List.mem_append.mp hmem with
    | inl hold => exact h.batch e hold
    | inr hnew => exact List.mem_singleton.mp hnew ▸ hentry.1
  · intro other e hmem
    by_cases hlane : other = lane
    · subst hlane
      rw [Function.update_self] at hmem
      exact h.queued other e (List.mem_of_mem_tail hmem)
    · rw [Function.update_of_ne hlane] at hmem
      exact h.queued other e hmem

/-- A flush takes the batch. -/
theorem flush (h : Conserved p stored [] batch channels lost accepted) {redacted : List Entry}
    (hredact : batch.mapM (redact_entry p) = some redacted) :
    Conserved p stored redacted [] channels lost accepted := by
  obtain ⟨hsources, hcopies⟩ := redact_batch hredact h.batch
  constructor
  · rw [← h.law]
    simp [kept_sources, hsources]
  · exact h.stored
  · exact hcopies
  · simp
  · exact h.queued

/-- The store takes what is being flushed. -/
theorem store (h : Conserved p stored flushing [] channels lost accepted) :
    Conserved p (stored ++ flushing) [] [] channels lost accepted := by
  constructor
  · rw [← h.law]
    simp
  · intro entry hmem
    cases List.mem_append.mp hmem with
    | inl hold => exact h.stored entry hold
    | inr hnew => exact h.flushing entry hnew
  · simp
  · simp
  · exact h.queued

/-- The store refuses it twice, and its critical events go back into the batch. -/
theorem rebuffer (h : Conserved p stored flushing [] channels lost accepted) :
    Conserved p stored [] (flushing.filter fun entry => entry.event.is_critical) channels lost accepted := by
  have hkept : kept_sources (flushing.filter fun entry => entry.event.is_critical) = kept_sources flushing := by
    have hcopies := h.flushing
    clear h
    induction flushing with
    | nil => rfl
    | cons first rest ih =>
      have hrest := ih fun entry hmem => hcopies entry (List.mem_cons_of_mem _ hmem)
      have hfirst := (hcopies first List.mem_cons_self).is_critical
      simp only [kept_sources] at hrest ⊢
      cases hcritical : first.event.is_critical with
      | true => simp [hcritical, hrest, List.filter_cons]
      | false =>
        have hnot : first.source.kept = false := by simp [Source.kept, ← hfirst, hcritical]
        simp [hcritical, hrest, hnot]
  constructor
  · rw [← h.law]
    simp [hkept]
  · exact h.stored
  · simp
  · intro entry hmem
    exact (h.flushing entry (List.mem_filter.mp hmem).1).weaken
  · exact h.queued

/-- The task ends and drops what it holds. -/
theorem finish (h : Conserved p stored [] batch channels [] accepted) :
    Conserved p stored [] [] (fun lane => (channels lane).close_receiver)
      (batch ++ (channels .critical).queue ++ (channels .advisory).queue) accepted := by
  have hadvisory : kept_sources (channels .advisory).queue = [] :=
    kept_sources_advisory fun entry hmem => (h.queued .advisory entry hmem).2
  constructor
  · rw [← h.law]
    simp [hadvisory]
  · exact h.stored
  · simp
  · simp
  · intro lane entry hmem
    simp at hmem

end Conserved

end flow_engine.write_pipeline
