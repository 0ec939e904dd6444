import FlowEngine.Pipeline.Sound

namespace flow_engine.write_pipeline

variable {p : WritePipeline} {s next : PipelineState}

/-- The source of a waiting event. -/
def PipelineState.waiting_source (s : PipelineState) (label : Nat × WriteEvent) : Source :=
  ⟨label.1, .critical, s.shutdown = .held, label.2⟩

/-- The source of an event that is written without waiting. -/
def PipelineState.tried_source (s : PipelineState) (event : WriteEvent) : Source :=
  ⟨s.next_seq, .advisory, s.shutdown = .held, event.set_seq (s.next_seq % 2 ^ 64)⟩

/-- What an action does. -/
inductive PipelineMove (p : WritePipeline) (s : PipelineState) : PipelineAction → PipelineState → Prop where
  | proceeds (elapsed : Bool) (next : PipelineState) (hproceed : proceed p s elapsed = some next) :
      PipelineMove p s (.proceed elapsed) next
  | writes (event : WriteEvent) (hsenders : (s.channels .critical).senders = true) :
      PipelineMove p s (.write event) (s.write event)
  | sends (index : Nat) (label : Nat × WriteEvent) (ch : mpsc.Channel Entry) (hlabel : s.waiting[index]? = some label)
      (hsend : (s.channels .critical).try_send ⟨s.waiting_source label, label.2⟩ = .ok ch) :
      PipelineMove p s (.send index) { s with
        waiting := s.waiting.eraseIdx index
        channels := Function.update s.channels .critical ch
        accepted := s.accepted ++ [s.waiting_source label] }
  | gives_up (index : Nat) (label : Nat × WriteEvent) (hlabel : s.waiting[index]? = some label)
      (hclosed : (s.channels .critical).receiver = false) :
      PipelineMove p s (.send index) { s with waiting := s.waiting.eraseIdx index }
  | abandons (index : Nat) (hindex : index < s.waiting.length) :
      PipelineMove p s (.abandon index) { s with waiting := s.waiting.eraseIdx index }
  | tries (event : WriteEvent) (ch : mpsc.Channel Entry) (hsenders : (s.channels .advisory).senders = true)
      (hsend : (s.channels .advisory).try_send ⟨s.tried_source event, (s.tried_source event).event⟩ = .ok ch) :
      PipelineMove p s (.try_write event) { s with
        next_seq := s.next_seq + 1
        channels := Function.update s.channels .advisory ch
        accepted := s.accepted ++ [s.tried_source event] }
  | drops (event : WriteEvent) (hsenders : (s.channels .advisory).senders = true)
      (hdropped : (s.channels .advisory).receiver = false ∨
        (s.channels .advisory).capacity ≤ (s.channels .advisory).queue.length) :
      PipelineMove p s (.try_write event) { s with next_seq := s.next_seq + 1 }
  | closes (lane : Lane) (hwaiting : lane = .critical → s.waiting = []) :
      PipelineMove p s (.drop_senders lane)
        { s with channels := Function.update s.channels lane (s.channels lane).close_senders }
  | signals (action : PipelineAction) (shutdown : oneshot.Sender) (haction : action = .shutdown ∨ action = .drop_handle)
      (hshutdown : shutdown ≠ .held) : PipelineMove p s action { s with shutdown }

/-- A channel that takes nothing has no receiver any more, or is full. -/
theorem accept_cases (s : PipelineState) (lane : Lane) (number : Nat) (event : WriteEvent) :
    (∃ ch, (s.channels lane).try_send ⟨⟨number, lane, s.shutdown = .held, event⟩, event⟩ = .ok ch ∧
        s.accept lane number event = .ok { s with
          channels := Function.update s.channels lane ch
          accepted := s.accepted ++ [⟨number, lane, s.shutdown = .held, event⟩] }) ∨
      ((s.channels lane).receiver = false ∧ s.accept lane number event = .error .Closed) ∨
      ((s.channels lane).capacity ≤ (s.channels lane).queue.length ∧ s.accept lane number event = .error .Full) := by
  cases hsend : (s.channels lane).try_send ⟨⟨number, lane, s.shutdown = .held, event⟩, event⟩ with
  | ok ch =>
    refine .inl ⟨ch, rfl, ?_⟩
    rw [PipelineState.accept, hsend]
    rfl
  | error e =>
    refine .inr ?_
    rw [PipelineState.accept, hsend]
    cases mpsc.Channel.try_send_error hsend with
    | inl hclosed => exact .inl ⟨hclosed.2, by rw [hclosed.1]; rfl⟩
    | inr hfull => exact .inr ⟨hfull.2, by rw [hfull.1]; rfl⟩

/-- A `write` that is polled either sends its event or, with the receiver gone, gives up. -/
theorem send_moves {index : Nat} {result : Except WriteHandleError Unit} (h : s.send index = some (next, result)) :
    PipelineMove p s (.send index) next := by
  unfold PipelineState.send at h
  split at h
  · cases h
  · rename_i number event hlabel
    simp only at h
    obtain ⟨ch, hsend, haccept⟩ | ⟨hclosed, haccept⟩ | ⟨_, haccept⟩ :=
      accept_cases { s with waiting := s.waiting.eraseIdx index } .critical number event
    · rw [haccept] at h
      cases h
      exact .sends index (number, event) ch hlabel hsend
    · rw [haccept] at h
      cases h
      exact .gives_up index (number, event) hlabel hclosed
    · rw [haccept] at h
      cases h

theorem try_write_moves (event : WriteEvent) (hsenders : (s.channels .advisory).senders = true) :
    PipelineMove p s (.try_write event) (s.try_write event).1 := by
  unfold PipelineState.try_write
  simp only
  obtain ⟨ch, hsend, haccept⟩ | ⟨hclosed, haccept⟩ | ⟨hfull, haccept⟩ :=
    accept_cases { s with next_seq := s.next_seq + 1 } .advisory s.next_seq (event.set_seq (s.next_seq % 2 ^ 64))
  · rw [haccept]
    exact .tries event ch hsenders hsend
  · rw [haccept]
    exact .drops event hsenders (.inl hclosed)
  · rw [haccept]
    exact .drops event hsenders (.inr hfull)

/-- An action of the pipeline is one of its moves. -/
theorem pipeline_moves {action : PipelineAction} (hstep : pipeline_step p s action = some next) :
    PipelineMove p s action next := by
  cases action with
  | proceed elapsed => exact .proceeds elapsed next hstep
  | write event =>
    simp only [pipeline_step] at hstep
    split at hstep
    · rename_i hsenders
      cases hstep
      exact .writes event hsenders
    · cases hstep
  | send index =>
    obtain ⟨⟨sent, result⟩, hsend, rfl⟩ := Option.map_eq_some_iff.mp hstep
    exact send_moves hsend
  | abandon index =>
    simp only [pipeline_step] at hstep
    split at hstep
    · rename_i hindex
      cases hstep
      exact .abandons index hindex
    · cases hstep
  | try_write event =>
    simp only [pipeline_step] at hstep
    split at hstep
    · rename_i hsenders
      cases hstep
      exact try_write_moves event hsenders
    · cases hstep
  | drop_senders lane =>
    simp only [pipeline_step] at hstep
    split at hstep
    · rename_i hguard
      cases hstep
      refine .closes lane ?_
      rintro rfl
      simpa using hguard
    · cases hstep
  | shutdown =>
    obtain ⟨sender, hsend, rfl⟩ := Option.map_eq_some_iff.mp hstep
    refine .signals .shutdown sender (.inl rfl) ?_
    cases hheld : s.shutdown <;> simp [hheld, oneshot.send] at hsend
    simp [← hsend]
  | drop_handle =>
    obtain ⟨sender, hsend, rfl⟩ := Option.map_eq_some_iff.mp hstep
    refine .signals .drop_handle sender (.inr rfl) ?_
    cases hheld : s.shutdown <;> simp [hheld, oneshot.drop] at hsend
    simp [← hsend]

/-- A channel takes an event. -/
theorem Sound.accept (h : Sound p s) {source : Source} {ch : mpsc.Channel Entry}
    (hearly : source.early = decide (s.shutdown = .held))
    (hsenders : source.lane = .critical → (s.channels .critical).senders = true)
    (hsend : (s.channels source.lane).try_send ⟨source, source.event⟩ = .ok ch) :
    Sound p { s with
      channels := Function.update s.channels source.lane ch
      accepted := s.accepted ++ [source] } := by
  obtain ⟨hreceiver, hqueue, hsame, _⟩ := mpsc.Channel.try_send_ok hsend
  have hover : s.pc.over = false := by
    by_contra hover
    rw [((h.ended (by simpa using hover)).2 source.lane).2] at hreceiver
    cases hreceiver
  have hconserved := h.conserved
  rw [h.running hover] at hconserved
  constructor
  · simp only [h.running hover]
    exact hconserved.accept hqueue
  · exact h.writing
  · exact h.running
  · exact fun hended => absurd hended (by simp [hover])
  · intro hopen
    have hclosed := h.closed hopen
    by_cases hlane : source.lane = .critical
    · rw [hsenders hlane] at hclosed
      cases hclosed.2
    · simpa [Function.update_of_ne (Ne.symm hlane)] using hclosed
  · intro hclosed
    by_cases hlane : source.lane = .critical
    · simp only [hlane, Function.update_self, hsame, hsenders hlane] at hclosed
      cases hclosed
    · exact h.abandoned (by simpa [Function.update_of_ne (Ne.symm hlane)] using hclosed)
  · intro hleaving
    cases h.leaving hleaving with
    | inl hshutdown => exact .inl hshutdown
    | inr hempty =>
      by_cases hlane : source.lane = .critical
      · rw [hsenders hlane] at hempty
        cases hempty.2
      · exact .inr (by simpa [Function.update_of_ne (Ne.symm hlane)] using hempty)
  · intro hdrained entry hmem
    by_cases hlane : source.lane = .critical
    · simp only [hlane, Function.update_self, hqueue, List.mem_append, List.mem_singleton] at hmem
      cases hmem with
      | inl hold => exact h.drained hdrained entry hold
      | inr hnew =>
        -- The new event comes after the signal: otherwise its writer could not be left.
        subst hnew
        cases h.leaving (Pc.leaving_of_drained hdrained) with
        | inl hshutdown => simp [hearly, hshutdown]
        | inr hempty =>
          rw [hsenders hlane] at hempty
          cases hempty.2
    · simp only [Function.update_of_ne (Ne.symm hlane)] at hmem
      exact h.drained hdrained entry hmem

/-- A change of the waiting writers and the counter alone. -/
theorem Sound.waiting (h : Sound p s) (next_seq : Nat) {waiting : List (Nat × WriteEvent)}
    (habandoned : (s.channels .critical).senders = false → waiting = []) :
    Sound p { s with next_seq, waiting } :=
  ⟨h.conserved, h.writing, h.running, h.ended, h.closed, habandoned, h.leaving, h.drained⟩

/-- The shutdown sender is used up. -/
theorem Sound.signal (h : Sound p s) {shutdown : oneshot.Sender} (hsignal : shutdown ≠ .held) :
    Sound p { s with shutdown } :=
  ⟨h.conserved, h.writing, h.running, h.ended, h.closed, h.abandoned, fun _ => .inl hsignal, h.drained⟩

theorem Sound.drop_senders (h : Sound p s) {lane : Lane} (hwaiting : lane = .critical → s.waiting = []) :
    Sound p { s with channels := Function.update s.channels lane (s.channels lane).close_senders } := by
  have hqueue : ∀ other, (Function.update s.channels lane (s.channels lane).close_senders other).queue =
      (s.channels other).queue := by
    intro other
    by_cases hlane : other = lane
    · subst hlane
      rw [Function.update_self, mpsc.Channel.close_senders_queue]
    · rw [Function.update_of_ne hlane]
  have hreceiver : ∀ other, (Function.update s.channels lane (s.channels lane).close_senders other).receiver =
      (s.channels other).receiver := by
    intro other
    by_cases hlane : other = lane
    · subst hlane
      rw [Function.update_self, mpsc.Channel.close_senders_receiver]
    · rw [Function.update_of_ne hlane]
  have hsenders : (s.channels .critical).senders = false →
      (Function.update s.channels lane (s.channels lane).close_senders .critical).senders = false := by
    intro hclosed
    by_cases hlane : Lane.critical = lane
    · subst hlane
      rw [Function.update_self, mpsc.Channel.close_senders_senders]
    · rw [Function.update_of_ne hlane, hclosed]
  have hconserved := h.conserved
  constructor
  · refine ⟨?_, hconserved.stored, hconserved.flushing, hconserved.batch, ?_⟩
    · rw [hqueue]
      exact hconserved.law
    · intro other
      rw [hqueue]
      exact hconserved.queued other
  · exact h.writing
  · exact h.running
  · intro hover
    refine ⟨(h.ended hover).1, fun other => ?_⟩
    rw [hqueue, hreceiver]
    exact (h.ended hover).2 other
  · intro hopen
    rw [hqueue]
    exact ⟨(h.closed hopen).1, hsenders (h.closed hopen).2⟩
  · intro hclosed
    by_cases hlane : lane = .critical
    · exact hwaiting hlane
    · exact h.abandoned (by simpa [Function.update_of_ne (Ne.symm hlane)] using hclosed)
  · intro hleaving
    cases h.leaving hleaving with
    | inl hshutdown => exact .inl hshutdown
    | inr hempty => exact .inr ⟨by rw [hqueue]; exact hempty.1, hsenders hempty.2⟩
  · intro hdrained entry hmem
    rw [hqueue] at hmem
    exact h.drained hdrained entry hmem

/-- One action keeps the invariant. -/
theorem Sound.step (h : Sound p s) {action : PipelineAction} (hstep : pipeline_step p s action = some next) :
    Sound p next := by
  cases pipeline_moves hstep with
  | proceeds elapsed next hproceed => exact h.proceed hproceed
  | writes event hsenders => exact h.waiting (s.next_seq + 1) (by simp [hsenders])
  | sends index label ch hlabel hsend =>
    have hsenders : (s.channels .critical).senders = true := by
      by_contra hclosed
      simp [h.abandoned (by simpa using hclosed)] at hlabel
    have hresumed : Sound p { s with waiting := s.waiting.eraseIdx index } := h.waiting s.next_seq (by simp [hsenders])
    exact @Sound.accept p _ hresumed (s.waiting_source label) ch rfl (fun _ => hsenders) hsend
  | gives_up index | abandons index => exact h.waiting s.next_seq fun hclosed => by simp [h.abandoned hclosed]
  | tries event ch hsenders hsend =>
    have hnumbered : Sound p { s with next_seq := s.next_seq + 1 } := h.waiting (s.next_seq + 1) h.abandoned
    exact @Sound.accept p _ hnumbered (s.tried_source event) ch rfl (fun hlane => by cases hlane) hsend
  | drops event => exact h.waiting (s.next_seq + 1) h.abandoned
  | closes lane hwaiting => exact h.drop_senders hwaiting
  | signals action shutdown haction hshutdown => exact h.signal hshutdown

theorem spawn_sound (p : WritePipeline) : Sound p (spawn p) := by
  constructor
  · refine ⟨rfl, ?_, ?_, ?_, ?_⟩ <;> simp [spawn, Pc.flushing]
  · exact fun _ => rfl
  · exact fun _ => rfl
  · simp [spawn, Pc.over]
  · simp [spawn]
  · exact fun _ => rfl
  · simp [spawn, Pc.leaving]
  · simp [spawn, Pc.drained, Pc.leaving]

/-- The invariant holds after every run. -/
theorem run_sound {actions : List PipelineAction} (hrun : PipelineRun p actions s) : Sound p s :=
  hrun.invariant (P := fun _ s => Sound p s) (spawn_sound p) fun _ _ _ _ _ h _ hstep => h.step hstep

/-- What an action adds to the store: the batch of a call of `write_batch` that succeeds. -/
def PipelineState.storing (p : WritePipeline) (s : PipelineState) : PipelineAction → List Entry
  | .proceed _ => if p.fails s.calls then [] else s.pc.flushing
  | _ => []

theorem flush_and_return_stored (s : PipelineState) : s.flush_and_return.stored = s.stored := by
  unfold PipelineState.flush_and_return
  split <;> rfl

theorem resume_at_stored (s : PipelineState) (resume : Resume) : (s.resume_at resume).stored = s.stored := by
  cases resume <;> rfl

theorem proceed_stored {elapsed : Bool} (hstep : proceed p s elapsed = some next) :
    next.stored = s.stored ++ s.storing p (.proceed elapsed) := by
  have hnothing : s.pc.flushing = [] → s.stored = s.stored ++ s.storing p (.proceed elapsed) := by
    intro hflushing
    simp [PipelineState.storing, hflushing]
  cases proceed_moves hstep with
  | stays pc hidle => exact hnothing (Pc.idle_flushing hidle.1)
  | panics hpanics => exact hnothing (Pc.idle_flushing hpanics.idle)
  | signalled hpc | receives _ _ hpc | closes _ hpc | takes _ _ _ _ hpc | passes _ _ _ hpc | redacts _ _ hpc =>
    exact hnothing (by rw [hpc]; rfl)
  | closes_last _ hpc | drained hpc =>
    rw [flush_and_return_stored]
    exact hnothing (by rw [hpc]; rfl)
  | retries redacted resume hpc hfails => simp [PipelineState.storing, hfails]
  | stores resume hwriting hleaving hworks =>
    rw [resume_at_stored]
    simp [PipelineState.storing, hworks]
  | rebuffers redacted resume hpc hfails =>
    rw [resume_at_stored]
    simp [PipelineState.storing, hfails]

/-- Only the loop stores or loses events. -/
theorem pipeline_step_kept {action : PipelineAction} (hstep : pipeline_step p s action = some next)
    (hwriter : ∀ elapsed, action ≠ .proceed elapsed) : next.stored = s.stored ∧ next.lost = s.lost := by
  cases pipeline_moves hstep with
  | proceeds elapsed => exact absurd rfl (hwriter elapsed)
  | _ => exact ⟨rfl, rfl⟩

theorem pipeline_step_stored {action : PipelineAction} (hstep : pipeline_step p s action = some next) :
    next.stored = s.stored ++ s.storing p action := by
  cases action with
  | proceed elapsed => exact proceed_stored hstep
  | _ =>
    rw [(pipeline_step_kept hstep fun elapsed => by simp).1]
    exact (List.append_nil _).symm

end flow_engine.write_pipeline
