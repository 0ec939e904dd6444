import FlowEngine.Pipeline.Holdings
import FlowEngine.Pipeline.Lossless
import FlowEngine.Pipeline.Masking

namespace flow_engine.write_pipeline

variable {p : WritePipeline} {s next : PipelineState}

/-- What redaction accepts it accepts again, however often it has passed over it. -/
theorem Copy.redacts {entry : Entry} (hdefault : p.redactor = default_redactor) (h : Copy p 0 entry)
    (hsource : redact_event p.redactor p.node_meta entry.source.event ≠ none) :
    redact_event p.redactor p.node_meta entry.event ≠ none := by
  obtain ⟨n, _, hn⟩ := h
  cases n with
  | zero =>
    rw [← Option.some.inj hn]
    exact hsource
  | succ n =>
    obtain ⟨before, _, hlast⟩ := Option.bind_eq_some_iff.mp hn
    rw [hdefault] at hlast ⊢
    exact redact_event_again hlast

theorem flush_and_return_lives (s : PipelineState) : s.flush_and_return.pc ≠ .panicked := by
  unfold PipelineState.flush_and_return
  split
  · simp [PipelineState.finish]
  · simp

theorem resume_at_lives (s : PipelineState) (resume : Resume) : (s.resume_at resume).pc ≠ .panicked := by
  cases resume <;> simp [PipelineState.resume_at, PipelineState.finish]

/-- The loop dies only where it panics. -/
theorem proceed_panics {elapsed : Bool} (hstep : proceed p s elapsed = some next) (hpanics : next.pc = .panicked) :
    Panics p s := by
  cases proceed_moves hstep with
  | panics hdies => exact hdies
  | stays pc hidle =>
    simp only at hpanics
    subst hpanics
    cases hidle.2
  | takes lane lanes exiting entry hpc => cases hpc.symm.trans hpanics
  | closes_last | drained => exact (flush_and_return_lives _ hpanics).elim
  | stores | rebuffers => exact (resume_at_lives _ _ hpanics).elim
  | _ => cases hpanics

/-- Where every accepted event can be redacted a loop that can start lives. -/
theorem run_lives (hdefault : p.redactor = default_redactor) (hstarts : p.config.starts = true)
    {actions : List PipelineAction} (hrun : PipelineRun p actions s)
    (hredacts : ∀ source ∈ s.accepted, redact_event p.redactor p.node_meta source.event ≠ none) : s.pc ≠ .panicked := by
  refine hrun.invariant (P := fun _ s => (∀ source ∈ s.accepted,
    redact_event p.redactor p.node_meta source.event ≠ none) → s.pc ≠ .panicked) (by simp [spawn]) ?_ hredacts
  intro actions s action next run hlives _ hstep hnext hpanics
  have hbefore := hlives fun source hmem => hnext source (accepted_step hstep hmem)
  cases pipeline_moves hstep with
  | proceeds elapsed next hproceed =>
    rcases proceed_panics hproceed hpanics with ⟨_, hunstarted⟩ | ⟨_, _, entry, hmem, hnone⟩
    · rw [hstarts] at hunstarted
      cases hunstarted
    have haccepted := accepted_step hstep ((run_holds_accepted run).batch entry hmem)
    exact ((run_sound run).conserved.batch entry hmem).redacts hdefault (hnext _ haccepted) hnone
  | _ => exact hbefore hpanics

/-- The default redactor returns, and hides all that it masks, exactly for strings of fewer
than four bytes, or of more whose last four begin with a character. An event stops the
redaction only by a masked string whose last four bytes do not, and where no accepted event
holds one the loop does not die of its events. -/
theorem redaction_total_iff (p : WritePipeline) (hdefault : p.redactor = default_redactor) :
    (∀ field sensitivity value,
      (∃ out, p.redactor.redact field sensitivity value = some out ∧ (sensitivity = .masked → Hides value out)) ↔
        (sensitivity = .masked → Maskable value)) ∧
    (∀ messages sensitivity, messages.Ordered →
      ((∃ out, p.redactor.redact_llm_messages messages sensitivity = some out ∧
          (sensitivity = .masked → List.Forall₂ Hides (masked_messages messages) (masked_messages out))) ↔
        (sensitivity = .masked → ∀ value ∈ masked_messages messages, Maskable value))) ∧
    (∀ event, redact_event p.redactor p.node_meta event = none ↔
      ∃ masked ∈ masked_values p.node_meta event, Cut masked) ∧
    ∀ actions s, PipelineRun p actions s →
      (∀ source ∈ s.accepted, ∀ masked ∈ masked_values p.node_meta source.event, ¬ Cut masked) → s.pc = .panicked →
        p.config.starts = false := by
  refine ⟨?_, ?_, ?_, ?_⟩
  · rw [hdefault]
    exact fun field _ _ => @redact_hides_iff field _ _
  · rw [hdefault]
    exact fun _ _ hordered => redact_llm_messages_hides_iff hordered
  · rw [hdefault]
    exact fun _ => redact_event_eq_none_iff
  · intro actions s hrun hwhole hpanics
    by_contra hstarts
    refine run_lives hdefault (by simpa using hstarts) hrun ?_ hpanics
    intro source hmem hnone
    rw [hdefault] at hnone
    obtain ⟨masked, hin, hcut⟩ := redact_event_eq_none_iff.mp hnone
    exact hwhole source hmem masked hin hcut

/-- A node that takes a masked key. -/
def key_node_meta (_node_id : String) : Option NodeMeta := some ⟨"call", [⟨"key", .masked⟩], []⟩

def key_pipeline : WritePipeline where
  config := ⟨2, 100, fun _ => true⟩
  capacity _ := 1
  redactor := default_redactor
  node_meta := key_node_meta
  fails _ := false

def key_event (key : String) : WriteEvent := .NodeStarted 0 "run" "A" (.object [("key", .string key)]) none 1

/-- A writer sends the event, and the loop flushes it when it finds its channels empty. -/
def key_run (key : String) (steps : Nat) : List PipelineAction :=
  [.write (key_event key), .send 0] ++ List.replicate steps (.proceed false)

def Pc.dead : Pc → Bool
  | .panicked => true
  | _ => false

/-- Whether the loop has died, and how many events are stored and lost. -/
def casualties (s : PipelineState) : Bool × Nat × Nat := (s.pc.dead, s.stored.length, s.lost.length)

/-- The masked texts of the accepted events. -/
def masked_texts (p : WritePipeline) (s : PipelineState) : List (List (Option String)) :=
  s.accepted.map fun source => (masked_values p.node_meta source.event).map Value.as_str

/-- Where the one event that was accepted has one masked text, that is what is masked. -/
theorem eq_masked_text {text : String} (h : masked_texts p s = [[some text]]) {source : Source}
    (hsource : source ∈ s.accepted) {masked : Value} (hmasked : masked ∈ masked_values p.node_meta source.event) :
    masked = .string text := by
  have hin : (masked_values p.node_meta source.event).map Value.as_str ∈ masked_texts p s := List.mem_map_of_mem hsource
  rw [h, List.mem_singleton] at hin
  have htext : masked.as_str ∈ [some text] := hin ▸ List.mem_map_of_mem hmasked
  cases masked with
  | string own => rw [Option.some.inj (List.mem_singleton.mp htext)]
  | _ => cases List.mem_singleton.mp htext

def key_messages : Value := .array [.object [("content", .string "mysecretkey"), ("role", .string "user")]]

theorem key_messages_ordered : key_messages.Ordered := by
  refine ⟨⟨?_, trivial, trivial, trivial⟩, trivial⟩
  exact List.pairwise_pair.mpr (by decide)

theorem redaction_total_sample :
    (∃ out, DefaultRedactor.redact_llm_messages key_messages .masked = some out ∧
      (Sensitivity.masked = .masked → List.Forall₂ Hides (masked_messages key_messages) (masked_messages out))) ∧
    ∃ s, PipelineRun key_pipeline (key_run "secret" 10) s ∧ s.pc ≠ .panicked ∧ s.stored.length = 1 := by
  refine ⟨((redaction_total_iff key_pipeline rfl).2.1 key_messages .masked key_messages_ordered).mpr ?_, ?_⟩
  · intro _ value hmem
    rw [List.mem_singleton.mp hmem]
    exact .inr ⟨by decide, fun hcut => hcut.2 "mysecre" "tkey" rfl rfl⟩
  · have hran : ((key_run "secret" 10).foldlM (pipeline_step key_pipeline) (spawn key_pipeline)).map
        (fun s => (masked_texts key_pipeline s, s.stored.length)) = some ([[some "secret"]], 1) := by decide +kernel
    obtain ⟨s, hfold, houtcome⟩ := Option.map_eq_some_iff.mp hran
    obtain ⟨htexts, hstored⟩ := Prod.mk.inj houtcome
    have hrun : PipelineRun key_pipeline (key_run "secret" 10) s := transition.run_of_foldlM hfold
    refine ⟨s, hrun, fun hpanics => ?_, hstored⟩
    have hunstarted : key_pipeline.config.starts = false := by
      refine (redaction_total_iff key_pipeline rfl).2.2.2 _ s hrun ?_ hpanics
      intro source hsource masked hmasked hcut
      rw [eq_masked_text htexts hsource hmasked] at hcut
      exact hcut.2 "se" "cret" rfl rfl
    cases hunstarted

/-- A masked string of six bytes, the fourth last of which lies inside a character, stops the
redactor, and the pipeline with it: its event is lost. One of four bytes is shown whole. -/
theorem masked_string_stops_the_pipeline :
    DefaultRedactor.redact "key" .masked (.string "€€") = none ∧
    DefaultRedactor.redact "key" .masked (.string "abcd") = some (.string "****abcd") ∧
    ∃ s, PipelineRun key_pipeline (key_run "€€" 9) s ∧ s.pc = .panicked ∧ s.stored = [] ∧ s.lost.length = 1 := by
  refine ⟨rfl, rfl, ?_⟩
  have hran : ((key_run "€€" 9).foldlM (pipeline_step key_pipeline) (spawn key_pipeline)).map casualties =
      some (true, 0, 1) := by decide +kernel
  obtain ⟨s, hfold, houtcome⟩ := Option.map_eq_some_iff.mp hran
  simp only [casualties, Prod.mk.injEq] at houtcome
  obtain ⟨hdead, hstored, hlost⟩ := houtcome
  refine ⟨s, transition.run_of_foldlM hfold, ?_, List.length_eq_zero_iff.mp hstored, hlost⟩
  cases hpc : s.pc <;> first | rfl | simp [hpc, Pc.dead] at hdead

end flow_engine.write_pipeline
