import FlowEngine.Pipeline.Custody

namespace flow_engine.write_pipeline

/-- The batch between redaction and the outcome of its write. -/
def Pc.flushing : Pc → List Entry
  | .write redacted _ | .retry redacted _ => redacted
  | _ => []

def Pc.writing : Pc → Bool
  | .write .. | .retry .. => true
  | _ => false

/-- The loop will end after its next flush. -/
def Pc.leaving : Pc → Bool
  | .drain _ exiting => exiting
  | .flush resume | .write _ resume | .retry _ resume => resume = .exit
  | _ => false

/-- It will, and it looks at the critical channel no more. -/
def Pc.drained : Pc → Bool
  | .drain lanes exiting => exiting && !lanes.contains .critical
  | pc => pc.leaving

/-- The loop is at work and no write is under way. -/
def Pc.idle (pc : Pc) : Bool := !pc.writing && !pc.over

theorem Pc.idle_flushing {pc : Pc} (h : pc.idle = true) : pc.flushing = [] := by
  cases pc <;> first | rfl | simp [Pc.idle, Pc.writing] at h

theorem Pc.leaving_of_drained {pc : Pc} (h : pc.drained = true) : pc.leaving = true := by
  cases pc with
  | drain lanes exiting =>
    simp only [Pc.drained, Bool.and_eq_true] at h
    exact h.1
  | _ => exact h

theorem Pc.drained_of_writing {pc : Pc} (h : pc.writing = true) : pc.drained = pc.leaving := by
  cases pc <;> first | rfl | simp [Pc.writing] at h

/-- The flush loop is about to panic: it cannot start, or it cannot redact its batch. -/
def Panics (p : WritePipeline) (s : PipelineState) : Prop :=
  (s.pc = .start ∧ p.config.starts = false) ∨
  (∃ resume, s.pc = .flush resume ∧ ∃ entry ∈ s.batch, redact_event p.redactor p.node_meta entry.event = none)

/-- What a step of the flush loop does. -/
inductive LoopMove (p : WritePipeline) (s : PipelineState) : PipelineState → Prop where
  | stays (pc : Pc) (hidle : s.pc.idle = true ∧ pc.idle = true) (hstays : s.pc.leaving = false ∧ pc.leaving = false)
      (hlives : ¬ Panics p s) : LoopMove p s { s with pc }
  | signalled (hpc : s.pc = .poll_shutdown) (hshutdown : s.shutdown ≠ .held) :
      LoopMove p s { s with pc := .drain [.critical, .advisory] true }
  | receives (lane : Lane) (entry : Entry) (hpc : s.pc = .poll lane) (hopen : s.channel_open lane = true)
      (hpeek : (s.channels lane).peek = .message entry) :
      LoopMove p s { s.receive lane entry with pc := .drain [lane, lane.other] false }
  | closes (lane : Lane) (hpc : s.pc = .poll lane) (hopen : s.channel_open lane = true)
      (hpeek : (s.channels lane).peek = .disconnected) (hother : s.channel_open lane.other = true) :
      LoopMove p s { s with channel_open := Function.update s.channel_open lane false, pc := .adaptive }
  | closes_last (lane : Lane) (hpc : s.pc = .poll lane) (hopen : s.channel_open lane = true)
      (hpeek : (s.channels lane).peek = .disconnected) (hother : s.channel_open lane.other = false) :
      LoopMove p s { s with channel_open := Function.update s.channel_open lane false }.flush_and_return
  | takes (lane : Lane) (lanes : List Lane) (exiting : Bool) (entry : Entry) (hpc : s.pc = .drain (lane :: lanes) exiting)
      (hpeek : (s.channels lane).peek = .message entry) : LoopMove p s (s.receive lane entry)
  | passes (lane : Lane) (lanes : List Lane) (exiting : Bool) (hpc : s.pc = .drain (lane :: lanes) exiting)
      (hempty : (s.channels lane).queue = []) : LoopMove p s { s with pc := .drain lanes exiting }
  | drained (hpc : s.pc = .drain [] true) : LoopMove p s s.flush_and_return
  | redacts (redacted : List Entry) (resume : Resume) (hpc : s.pc = .flush resume)
      (hredact : s.batch.mapM (redact_entry p) = some redacted) :
      LoopMove p s { s with batch := [], pc := .write redacted resume }
  | panics (hpanics : Panics p s) : LoopMove p s (s.finish .panicked)
  | retries (redacted : List Entry) (resume : Resume) (hpc : s.pc = .write redacted resume)
      (hfails : p.fails s.calls = true) : LoopMove p s { s with calls := s.calls + 1, pc := .retry redacted resume }
  | stores (resume : Resume) (hwriting : s.pc.writing = true) (hleaving : s.pc.leaving = decide (resume = .exit))
      (hworks : p.fails s.calls = false) :
      LoopMove p s ({ s with calls := s.calls + 1, stored := s.stored ++ s.pc.flushing }.resume_at resume)
  | rebuffers (redacted : List Entry) (resume : Resume) (hpc : s.pc = .retry redacted resume)
      (hfails : p.fails s.calls = true) :
      LoopMove p s ({ s with
        calls := s.calls + 1
        batch := s.batch ++ s.pc.flushing.filter (fun (entry : Entry) => entry.event.is_critical) }.resume_at resume)

/-- No early event reaches the critical channel any more. -/
def Leaving (s : PipelineState) : Prop :=
  s.shutdown ≠ .held ∨ ((s.channels .critical).queue = [] ∧ (s.channels .critical).senders = false)

/-- None is in it. -/
def Drained (s : PipelineState) : Prop := ∀ entry ∈ (s.channels .critical).queue, entry.source.early = false

/-- What holds of the writers, the channels and the batch wherever the loop is while no
write is under way. -/
structure Ready (p : WritePipeline) (s : PipelineState) : Prop where
  conserved : Conserved p s.stored [] s.batch s.channels [] s.accepted
  lost : s.lost = []
  closed : s.channel_open .critical = false →
    (s.channels .critical).queue = [] ∧ (s.channels .critical).senders = false
  abandoned : (s.channels .critical).senders = false → s.waiting = []

/-- The invariant of the pipeline. -/
structure Sound (p : WritePipeline) (s : PipelineState) : Prop where
  conserved : Conserved p s.stored s.pc.flushing s.batch s.channels s.lost s.accepted
  writing : s.pc.writing = true → s.batch = []
  running : s.pc.over = false → s.lost = []
  ended : s.pc.over = true → s.batch = [] ∧ ∀ lane, (s.channels lane).queue = [] ∧ (s.channels lane).receiver = false
  closed : s.channel_open .critical = false →
    (s.channels .critical).queue = [] ∧ (s.channels .critical).senders = false
  abandoned : (s.channels .critical).senders = false → s.waiting = []
  leaving : s.pc.leaving = true → Leaving s
  drained : s.pc.drained = true → Drained s

variable {p : WritePipeline} {s next : PipelineState}

theorem Panics.idle (h : Panics p s) : s.pc.idle = true := by
  rcases h with ⟨hpc, _⟩ | ⟨resume, hpc, _⟩ <;> rw [hpc] <;> rfl

/-- Then it panics. -/
theorem Panics.proceed (h : Panics p s) {elapsed : Bool} (hstep : proceed p s elapsed = some next) :
    next.pc = .panicked := by
  rcases h with ⟨hpc, hstarts⟩ | ⟨resume, hpc, hpanics⟩
  · simp only [write_pipeline.proceed, hpc, hstarts] at hstep
    cases hstep
    rfl
  · simp only [write_pipeline.proceed, hpc, redact_batch_panics.mpr hpanics] at hstep
    cases hstep
    rfl

theorem LoopMove.poll_channel {lane : Lane} (hpc : s.pc = .poll lane) {skipped : Pc} (hidle : skipped.idle = true)
    (hstays : skipped.leaving = false) : LoopMove p s (s.poll_channel lane skipped) := by
  have hskip : LoopMove p s { s with pc := skipped } :=
    .stays skipped ⟨by rw [hpc]; rfl, hidle⟩ ⟨by rw [hpc]; rfl, hstays⟩ (by simp [Panics, hpc])
  unfold PipelineState.poll_channel
  split
  · rename_i hopen
    split
    · rename_i entry hpeek
      exact .receives lane entry hpc hopen hpeek
    · rename_i hpeek
      simp only
      split
      · rename_i hother
        exact .closes lane hpc hopen hpeek hother
      · rename_i hother
        exact .closes_last lane hpc hopen hpeek (by simpa using hother)
    · exact hskip
  · exact hskip

theorem LoopMove.drain {lane : Lane} {lanes : List Lane} {exiting : Bool} (hpc : s.pc = .drain (lane :: lanes) exiting)
    {elapsed : Bool} (hstep : proceed p s elapsed = some next) : LoopMove p s next := by
  simp only [proceed, hpc] at hstep
  split at hstep
  · rename_i entry hpeek
    cases hstep
    exact .takes lane lanes exiting entry hpc hpeek
  · rename_i hnone
    cases hstep
    refine .passes lane lanes exiting hpc ?_
    cases hpeek : (s.channels lane).peek with
    | message entry => exact absurd hpeek (hnone entry)
    | empty => exact mpsc.Channel.peek_empty hpeek
    | disconnected => exact (mpsc.Channel.peek_disconnected hpeek).1

theorem LoopMove.store {redacted : List Entry} {resume : Resume}
    (hpc : s.pc = .write redacted resume ∨ s.pc = .retry redacted resume) (hworks : p.fails s.calls = false) :
    LoopMove p s ({ s with calls := s.calls + 1, stored := s.stored ++ redacted }.resume_at resume) := by
  have hflushing : s.pc.flushing = redacted := by rcases hpc with hpc | hpc <;> rw [hpc] <;> rfl
  rw [← hflushing]
  refine .stores resume ?_ ?_ hworks
  · rcases hpc with hpc | hpc <;> rw [hpc] <;> rfl
  · rcases hpc with hpc | hpc <;> rw [hpc] <;> rfl

/-- A step of the flush loop is one of its moves. -/
theorem proceed_moves {elapsed : Bool} (hstep : proceed p s elapsed = some next) : LoopMove p s next := by
  cases hpc : s.pc with
  | start =>
    simp only [proceed, hpc] at hstep
    split at hstep
    · rename_i hstarts
      cases hstep
      exact .stays _ ⟨by rw [hpc]; rfl, rfl⟩ ⟨by rw [hpc]; rfl, rfl⟩ (by simp [Panics, hpc, hstarts])
    · rename_i hstarts
      cases hstep
      exact .panics (.inl ⟨hpc, by simpa using hstarts⟩)
  | poll_shutdown =>
    simp only [proceed, hpc] at hstep
    split at hstep
    · cases hstep
      exact .stays _ ⟨by rw [hpc]; rfl, rfl⟩ ⟨by rw [hpc]; rfl, rfl⟩ (by simp [Panics, hpc])
    · rename_i hreceived
      cases hstep
      refine .signalled hpc fun hheld => ?_
      exact hreceived (by rw [hheld]; rfl)
  | poll lane =>
    cases lane with
    | critical =>
      simp only [proceed, hpc] at hstep
      cases hstep
      exact .poll_channel hpc rfl rfl
    | advisory =>
      simp only [proceed, hpc] at hstep
      cases hstep
      exact .poll_channel hpc rfl rfl
  | poll_tick =>
    simp only [proceed, hpc] at hstep
    split at hstep
    · cases hstep
      exact .stays _ ⟨by rw [hpc]; rfl, by split <;> rfl⟩ ⟨by rw [hpc]; rfl, by split <;> rfl⟩ (by simp [Panics, hpc])
    · cases hstep
      exact .stays _ ⟨by rw [hpc]; rfl, rfl⟩ ⟨by rw [hpc]; rfl, rfl⟩ (by simp [Panics, hpc])
  | drain lanes exiting =>
    cases lanes with
    | cons lane lanes => exact .drain hpc hstep
    | nil =>
      cases exiting with
      | true =>
        simp only [proceed, hpc] at hstep
        cases hstep
        exact .drained hpc
      | false =>
        simp only [proceed, hpc] at hstep
        cases hstep
        exact .stays _ ⟨by rw [hpc]; rfl, by split <;> rfl⟩ ⟨by rw [hpc]; rfl, by split <;> rfl⟩ (by simp [Panics, hpc])
  | adaptive =>
    simp only [proceed, hpc] at hstep
    split at hstep
    · cases hstep
      exact .stays _ ⟨by rw [hpc]; rfl, rfl⟩ ⟨by rw [hpc]; rfl, rfl⟩ (by simp [Panics, hpc])
    · cases hstep
      exact .stays _ ⟨by rw [hpc]; rfl, rfl⟩ ⟨by rw [hpc]; rfl, rfl⟩ (by simp [Panics, hpc])
  | adaptive_advisory critical_empty =>
    simp only [proceed, hpc] at hstep
    cases hstep
    exact .stays _ ⟨by rw [hpc]; rfl, by split <;> rfl⟩ ⟨by rw [hpc]; rfl, by split <;> rfl⟩ (by simp [Panics, hpc])
  | flush resume =>
    simp only [proceed, hpc] at hstep
    split at hstep
    · rename_i redacted hredact
      cases hstep
      exact .redacts redacted resume hpc hredact
    · rename_i hnone
      cases hstep
      exact .panics (.inr ⟨resume, hpc, redact_batch_panics.mp hnone⟩)
  | write redacted resume =>
    simp only [proceed, hpc] at hstep
    split at hstep
    · rename_i hfails
      cases hstep
      exact .retries redacted resume hpc hfails
    · rename_i hworks
      cases hstep
      exact .store (.inl hpc) (by simpa using hworks)
  | retry redacted resume =>
    simp only [proceed, hpc] at hstep
    split at hstep
    · rename_i hfails
      have hmove := LoopMove.rebuffers redacted resume hpc hfails
      rw [hpc] at hmove
      cases hstep
      exact hmove
    · rename_i hworks
      cases hstep
      exact .store (.inr hpc) (by simpa using hworks)
  | returned => simp [proceed, hpc] at hstep
  | panicked => simp [proceed, hpc] at hstep

theorem Sound.ready (h : Sound p s) (hidle : s.pc.idle = true) : Ready p s := by
  have hover : s.pc.over = false := by
    simp only [Pc.idle, Bool.and_eq_true, Bool.not_eq_true'] at hidle
    exact hidle.2
  have hconserved := h.conserved
  rw [Pc.idle_flushing hidle, h.running hover] at hconserved
  exact ⟨hconserved, h.running hover, h.closed, h.abandoned⟩

/-- The loop goes to another place. -/
theorem Ready.goto (h : Ready p s) {pc : Pc} (hidle : pc.idle = true) (hleaving : pc.leaving = true → Leaving s)
    (hdrained : pc.drained = true → Drained s) : Sound p { s with pc } := by
  have hidle' := hidle
  simp only [Pc.idle, Bool.and_eq_true, Bool.not_eq_true'] at hidle'
  constructor
  · simp only [Pc.idle_flushing hidle, h.lost]
    exact h.conserved
  · simp [hidle'.1]
  · exact fun _ => h.lost
  · simp [hidle'.2]
  · exact h.closed
  · exact h.abandoned
  · exact hleaving
  · exact hdrained

/-- It goes to a place from which it need not end. -/
theorem Ready.stay (h : Ready p s) {pc : Pc} (hidle : pc.idle = true) (hstays : pc.leaving = false) :
    Sound p { s with pc } := by
  refine h.goto hidle (by simp [hstays]) ?_
  intro hdrained
  simp [Pc.leaving_of_drained hdrained] at hstays

theorem Ready.finish (h : Ready p s) {pc : Pc} (hover : pc.over = true) : Sound p (s.finish pc) := by
  have hflushing : pc.flushing = [] := by cases pc <;> first | rfl | simp [Pc.over] at hover
  constructor
  · simp only [PipelineState.finish, hflushing]
    exact h.conserved.finish
  · simp [PipelineState.finish]
  · simp [PipelineState.finish, hover]
  · simp [PipelineState.finish]
  · intro hopen
    simpa [PipelineState.finish] using (h.closed hopen).2
  · simpa [PipelineState.finish] using h.abandoned
  · cases pc <;> simp [Pc.over, Pc.leaving, PipelineState.finish] at hover ⊢
  · simp [Drained, PipelineState.finish]

theorem Ready.flush_and_return (h : Ready p s) (hleaving : Leaving s) (hdrained : Drained s) :
    Sound p s.flush_and_return := by
  unfold PipelineState.flush_and_return
  split
  · exact h.finish rfl
  · exact h.goto rfl (fun _ => hleaving) (fun _ => hdrained)

theorem Ready.resume_at (h : Ready p s) (resume : Resume) : Sound p (s.resume_at resume) := by
  cases resume with
  | adaptive => exact h.stay rfl rfl
  | head => exact h.stay rfl rfl
  | exit => exact h.finish rfl

/-- Taking an event out of a channel closes nothing. -/
theorem Ready.receive (h : Ready p s) {lane : Lane} {entry : Entry} (hpeek : (s.channels lane).peek = .message entry) :
    Ready p (s.receive lane entry) := by
  have hqueue := mpsc.Channel.peek_message hpeek
  constructor
  · exact h.conserved.receive hpeek
  · exact h.lost
  · intro hopen
    have hclosed := h.closed hopen
    cases lane with
    | critical => simp [hclosed.1] at hqueue
    | advisory => simpa [PipelineState.receive, Function.update_of_ne] using hclosed
  · intro hsenders
    cases lane with
    | critical => exact h.abandoned (by simpa [PipelineState.receive] using hsenders)
    | advisory => exact h.abandoned (by simpa [PipelineState.receive, Function.update_of_ne] using hsenders)

/-- A channel is found empty and without senders. -/
theorem Ready.close (h : Ready p s) {lane : Lane} (hpeek : (s.channels lane).peek = .disconnected) :
    Ready p { s with channel_open := Function.update s.channel_open lane false } := by
  refine ⟨h.conserved, h.lost, ?_, h.abandoned⟩
  intro hopen
  cases lane with
  | critical => exact mpsc.Channel.peek_disconnected hpeek
  | advisory => exact h.closed (by simpa [Function.update_of_ne] using hopen)

/-- Both are. -/
theorem Ready.both_closed (h : Ready p s) {lane : Lane} (hpeek : (s.channels lane).peek = .disconnected)
    (hother : s.channel_open lane.other = false) :
    (s.channels .critical).queue = [] ∧ (s.channels .critical).senders = false := by
  cases lane with
  | critical => exact mpsc.Channel.peek_disconnected hpeek
  | advisory => exact h.closed hother

theorem Leaving.receive (h : Leaving s) {lane : Lane} {entry : Entry} (hpeek : (s.channels lane).peek = .message entry) :
    Leaving (s.receive lane entry) := by
  have hqueue := mpsc.Channel.peek_message hpeek
  cases h with
  | inl hshutdown => exact .inl hshutdown
  | inr hempty =>
    cases lane with
    | critical => simp [hempty.1] at hqueue
    | advisory => exact .inr (by simpa [PipelineState.receive, Function.update_of_ne] using hempty)

theorem Drained.receive (h : Drained s) (lane : Lane) (entry : Entry) : Drained (s.receive lane entry) := by
  intro e hmem
  cases lane with
  | critical => exact h e (List.mem_of_mem_tail (by simpa [PipelineState.receive] using hmem))
  | advisory => exact h e (by simpa [PipelineState.receive, Function.update_of_ne] using hmem)

/-- A channel that is being drained gives an event. -/
theorem Sound.take (h : Sound p s) {lane : Lane} {lanes : List Lane} {exiting : Bool} {entry : Entry}
    (hpc : s.pc = .drain (lane :: lanes) exiting) (hpeek : (s.channels lane).peek = .message entry) :
    Sound p (s.receive lane entry) := by
  have hidle : s.pc.idle = true := by rw [hpc]; rfl
  have hnext : Sound p { s.receive lane entry with pc := s.pc } := by
    refine ((h.ready hidle).receive hpeek).goto hidle ?_ ?_
    · exact fun hleaving => (h.leaving hleaving).receive hpeek
    · exact fun hdrained => (h.drained hdrained).receive lane entry
  exact hnext

/-- It is empty, and the loop drains the next. -/
theorem Sound.pass (h : Sound p s) {lane : Lane} {lanes : List Lane} {exiting : Bool}
    (hpc : s.pc = .drain (lane :: lanes) exiting) (hempty : (s.channels lane).queue = []) :
    Sound p { s with pc := .drain lanes exiting } := by
  refine (h.ready (by rw [hpc]; rfl)).goto rfl (fun hexiting => h.leaving (by rw [hpc]; exact hexiting)) ?_
  intro hdrained
  cases lane with
  | critical =>
    intro entry hmem
    rw [hempty] at hmem
    cases hmem
  | advisory =>
    refine h.drained ?_
    rw [hpc]
    simpa [Pc.drained] using hdrained

theorem Sound.redact (h : Sound p s) {redacted : List Entry} {resume : Resume} (hpc : s.pc = .flush resume)
    (hredact : s.batch.mapM (redact_entry p) = some redacted) :
    Sound p { s with batch := [], pc := .write redacted resume } := by
  have hready := h.ready (by rw [hpc]; rfl)
  constructor
  · simpa only [Pc.flushing, hready.lost] using hready.conserved.flush hredact
  · exact fun _ => rfl
  · exact fun _ => hready.lost
  · simp [Pc.over]
  · exact h.closed
  · exact h.abandoned
  · exact fun hleaving => h.leaving (by rw [hpc]; exact hleaving)
  · exact fun hdrained => h.drained (by rw [hpc]; exact hdrained)

/-- `write_batch` has failed once. -/
theorem Sound.retry (h : Sound p s) {redacted : List Entry} {resume : Resume} (hpc : s.pc = .write redacted resume)
    (calls : Nat) : Sound p { s with calls, pc := .retry redacted resume } := by
  have hconserved := h.conserved
  rw [hpc] at hconserved
  constructor
  · exact hconserved
  · exact fun _ => h.writing (by rw [hpc]; rfl)
  · exact fun _ => h.running (by rw [hpc]; rfl)
  · simp [Pc.over]
  · exact h.closed
  · exact h.abandoned
  · exact fun hleaving => h.leaving (by rw [hpc]; exact hleaving)
  · exact fun hdrained => h.drained (by rw [hpc]; exact hdrained)

/-- What holds while a write is under way. -/
theorem Sound.under_way (h : Sound p s) (hwriting : s.pc.writing = true) :
    Conserved p s.stored s.pc.flushing [] s.channels [] s.accepted ∧ s.batch = [] ∧ s.lost = [] := by
  have hover : s.pc.over = false := by
    cases hpc : s.pc <;> simp [hpc, Pc.writing, Pc.over] at hwriting ⊢
  have hconserved := h.conserved
  rw [h.writing hwriting, h.running hover] at hconserved
  exact ⟨hconserved, h.writing hwriting, h.running hover⟩

/-- `write_batch` succeeds. -/
theorem Sound.store (h : Sound p s) (hwriting : s.pc.writing = true) (calls : Nat) :
    Ready p { s with calls, stored := s.stored ++ s.pc.flushing } := by
  obtain ⟨hconserved, hbatch, hlost⟩ := h.under_way hwriting
  refine ⟨?_, hlost, h.closed, h.abandoned⟩
  simpa only [hbatch] using hconserved.store

/-- It fails for good. -/
theorem Sound.rebuffer (h : Sound p s) (hwriting : s.pc.writing = true) (calls : Nat) :
    Ready p { s with
      calls
      batch := s.batch ++ s.pc.flushing.filter (fun (entry : Entry) => entry.event.is_critical) } := by
  obtain ⟨hconserved, hbatch, hlost⟩ := h.under_way hwriting
  refine ⟨?_, hlost, h.closed, h.abandoned⟩
  simpa only [hbatch, List.nil_append] using hconserved.rebuffer

/-- A step of the flush loop. -/
theorem Sound.proceed (h : Sound p s) {elapsed : Bool} (hstep : proceed p s elapsed = some next) : Sound p next := by
  cases proceed_moves hstep with
  | stays pc hidle hstays => exact (h.ready hidle.1).stay hidle.2 hstays.2
  | signalled hpc hshutdown =>
    exact (h.ready (by rw [hpc]; rfl)).goto rfl (fun _ => .inl hshutdown) (by simp [Pc.drained])
  | receives lane entry hpc hopen hpeek => exact ((h.ready (by rw [hpc]; rfl)).receive hpeek).stay rfl rfl
  | closes lane hpc hopen hpeek hother => exact ((h.ready (by rw [hpc]; rfl)).close hpeek).stay rfl rfl
  | closes_last lane hpc hopen hpeek hother =>
    have hready := h.ready (by rw [hpc]; rfl)
    have hempty := hready.both_closed hpeek hother
    exact (hready.close hpeek).flush_and_return (.inr hempty) (by simp [Drained, hempty.1])
  | takes lane lanes exiting entry hpc hpeek => exact h.take hpc hpeek
  | passes lane lanes exiting hpc hempty => exact h.pass hpc hempty
  | drained hpc =>
    exact (h.ready (by rw [hpc]; rfl)).flush_and_return (h.leaving (by rw [hpc]; rfl)) (h.drained (by rw [hpc]; rfl))
  | redacts redacted resume hpc hredact => exact h.redact hpc hredact
  | panics hpanics => exact (h.ready hpanics.idle).finish rfl
  | retries redacted resume hpc hfails => exact h.retry hpc (s.calls + 1)
  | stores resume hwriting hleaving hworks => exact (h.store hwriting (s.calls + 1)).resume_at resume
  | rebuffers redacted resume hpc hfails => exact (h.rebuffer (by rw [hpc]; rfl) (s.calls + 1)).resume_at resume

end flow_engine.write_pipeline
