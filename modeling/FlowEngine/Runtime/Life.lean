import FlowEngine.Pipeline.Reach
import FlowEngine.Runtime.Session

namespace flow_engine.runtime

open write_pipeline

/-- Where a session is in its life. While it finishes, and once its end has been numbered and
taken by a channel, it has a number for its `RunCompleted`. -/
inductive Phase where
  | starting
  | live
  | finishing (number : Nat)
  | finished (number : Nat)
  | dropped (completed : Option Nat)

def Phase.completed : Phase → Option Nat
  | .starting | .live => none
  | .finishing number | .finished number => some number
  | .dropped completed => completed

/-- A session and the pipeline it has built. -/
structure ExecutionSession where
  phase : Phase
  pipeline : PipelineState

/-- The last event of a session. -/
def run_completed (run_id : String) (status : RunStatus) (llm_summary : Option LlmRunSummary) : WriteEvent :=
  .RunCompleted 0 run_id status llm_summary

/-- `ExecutionSession::start` up to its first suspension. -/
def ExecutionSession.start (p : WritePipeline) (config : ExecutionConfig) (run_id : String) : ExecutionSession :=
  ⟨.starting, (spawn p).write (run_started config run_id)⟩

/-- What can happen to a session. `task` is an action of the flush loop or of a task that
holds a clone of the write handle. -/
inductive SessionAction where
  | started
  | task (action : PipelineAction)
  | finish (status : RunStatus) (llm_summary : Option LlmRunSummary)
  | shutdown
  | drop
  | drop_handle

/-- Clones exist once the session does, the session keeps its own handle until its end, and
its own write is not given up. -/
def ExecutionSession.allows (s : ExecutionSession) : PipelineAction → Bool
  | .proceed _ => true
  | .write _ | .send _ | .try_write _ => match s.phase with
    | .starting => false
    | _ => true
  | .abandon index => match s.phase with
    | .starting => false
    | .finishing number => (s.pipeline.waiting[index]?).map Prod.fst ≠ some number
    | _ => true
  | .drop_senders _ => match s.phase with
    | .finished _ => s.pipeline.pc.over
    | .dropped _ => true
    | _ => false
  | .shutdown | .drop_handle => false

/-- One action. `finish` writes `RunCompleted` and waits for it to be sent before it signals
the shutdown; `drop` tries to write it and then drops the pipeline's handle. -/
def session_step (p : WritePipeline) (run_id : String) (s : ExecutionSession) : SessionAction → Option ExecutionSession
  | .started =>
    match s.phase, s.pipeline.send 0 with
    | .starting, some (pipeline, .ok ()) => some ⟨.live, pipeline⟩
    | _, _ => none
  | .task action =>
    if s.allows action then (pipeline_step p s.pipeline action).map fun pipeline => { s with pipeline } else none
  | .finish status llm_summary =>
    match s.phase with
    | .live => some ⟨.finishing s.pipeline.next_seq, s.pipeline.write (run_completed run_id status llm_summary)⟩
    | _ => none
  | .shutdown =>
    match s.phase with
    | .finishing number =>
      if s.pipeline.waiting.any fun label => label.1 = number then none
      else (pipeline_step p s.pipeline .shutdown).map fun pipeline => ⟨.finished number, pipeline⟩
    | _ => none
  | .drop =>
    match s.phase with
    | .live =>
      let room := (s.pipeline.channels .advisory).queue.length < (s.pipeline.channels .advisory).capacity
      some ⟨.dropped (if room then some s.pipeline.next_seq else none),
        (s.pipeline.try_write (run_completed run_id .Failed none)).1⟩
    | _ => none
  | .drop_handle =>
    match s.phase with
    | .dropped completed => (pipeline_step p s.pipeline .drop_handle).map fun pipeline => ⟨.dropped completed, pipeline⟩
    | _ => none

end flow_engine.runtime

namespace flow_engine.WriteEvent

def is_run_started : WriteEvent → Bool
  | .RunStarted .. => true
  | _ => false

def is_run_completed : WriteEvent → Bool
  | .RunCompleted .. => true
  | _ => false

/-- What an event says of its run: that it has started or that it has completed. -/
def brackets (event : WriteEvent) : Bool × Bool := (event.is_run_started, event.is_run_completed)

end flow_engine.WriteEvent

namespace flow_engine.runtime

open write_pipeline

/-- The persisted events. -/
def ExecutionSession.persisted (s : ExecutionSession) : List WriteEvent := s.pipeline.stored.map Entry.event

/-- Exactly one event says that the run has started, and its `seq` is the smallest. -/
def Opened (events : List WriteEvent) : Prop :=
  ∃ first, events.filter WriteEvent.is_run_started = [first] ∧
    ∀ event ∈ events, event.is_run_started = false → first.seq < event.seq

/-- Exactly one event says that the run has completed, and its `seq` is the greatest. -/
def Closed (events : List WriteEvent) : Prop :=
  ∃ last, events.filter WriteEvent.is_run_completed = [last] ∧
    ∀ event ∈ events, event.is_run_completed = false → event.seq < last.seq

/-- The event is the session's `RunCompleted`, or it is no `RunStarted` or `RunCompleted` and
was numbered before that one. -/
def Fits (phase : Phase) (source : Source) : Prop :=
  source.event.is_run_started = false ∧
    match phase.completed with
    | none => source.event.is_run_completed = false
    | some number => source.number = number ∨ source.number < number ∧ source.event.is_run_completed = false

/-- The tasks put nothing in a channel that the loop still reads that does not fit. -/
def TasksKeep (s : ExecutionSession) : SessionAction → Prop
  | .task action => ∀ source, s.pipeline.enters action = some source → Fits s.phase source
  | _ => True

/-- The session holds the pipeline and its writers. -/
def Phase.holds : Phase → Bool
  | .finished _ | .dropped _ => false
  | _ => true

/-- What holds of a session until the flush loop panics. -/
structure Life (p : WritePipeline) (s : ExecutionSession) : Prop where
  steady : Steady p s.pipeline
  held : s.phase.holds = true → s.pipeline.shutdown = .held ∧ ∀ lane, (s.pipeline.channels lane).senders = true
  starting : s.phase = .starting → reach s.pipeline = 0 ∧
    ∃ event, s.pipeline.waiting = [(1, event)] ∧ event.brackets = (true, false)
  opened : s.phase ≠ .starting → ∃ source ∈ reach s.pipeline, source.number = 1 ∧ source.event.is_run_started = true
  fits : ∀ source ∈ reach s.pipeline, source.number = 1 ∨ Fits s.phase source
  completed : ∀ number, s.phase.completed = some number →
    (s.phase = .finishing number ∧ ∃ label ∈ s.pipeline.waiting, label.1 = number ∧ label.2.is_run_completed = true) ∨
      ∃ source ∈ reach s.pipeline, source.number = number ∧ source.event.is_run_completed = true

variable {p : WritePipeline} {run_id : String} {s next : ExecutionSession}

/-- What one action of a session does. -/
inductive SessionMove (p : WritePipeline) (run_id : String) (s : ExecutionSession) :
    SessionAction → ExecutionSession → Prop where
  | started (pipeline : PipelineState) (hphase : s.phase = .starting)
      (hsend : s.pipeline.send 0 = some (pipeline, .ok ())) : SessionMove p run_id s .started ⟨.live, pipeline⟩
  | task (action : PipelineAction) (pipeline : PipelineState) (hallows : s.allows action = true)
      (htask : pipeline_step p s.pipeline action = some pipeline) : SessionMove p run_id s (.task action) { s with pipeline }
  | finish (status : RunStatus) (llm_summary : Option LlmRunSummary) (hphase : s.phase = .live) :
      SessionMove p run_id s (.finish status llm_summary)
        ⟨.finishing s.pipeline.next_seq, s.pipeline.write (run_completed run_id status llm_summary)⟩
  | shutdown (number : Nat) (pipeline : PipelineState) (hphase : s.phase = .finishing number)
      (hsent : (s.pipeline.waiting.any fun label => label.1 = number) = false)
      (hshutdown : pipeline_step p s.pipeline .shutdown = some pipeline) :
      SessionMove p run_id s .shutdown ⟨.finished number, pipeline⟩
  | drop (hphase : s.phase = .live) :
      SessionMove p run_id s .drop ⟨.dropped (if (s.pipeline.channels .advisory).queue.length <
          (s.pipeline.channels .advisory).capacity then some s.pipeline.next_seq else none),
        (s.pipeline.try_write (run_completed run_id .Failed none)).1⟩
  | drop_handle (completed : Option Nat) (pipeline : PipelineState) (hphase : s.phase = .dropped completed)
      (hdrop : pipeline_step p s.pipeline .drop_handle = some pipeline) :
      SessionMove p run_id s .drop_handle ⟨.dropped completed, pipeline⟩

theorem session_moves {action : SessionAction} (hstep : session_step p run_id s action = some next) :
    SessionMove p run_id s action next := by
  cases action with
  | started =>
    simp only [session_step] at hstep
    split at hstep
    · rename_i pipeline hphase hsend
      cases hstep
      exact .started pipeline hphase hsend
    · cases hstep
  | task action =>
    simp only [session_step] at hstep
    split at hstep
    · rename_i hallows
      obtain ⟨pipeline, htask, rfl⟩ := Option.map_eq_some_iff.mp hstep
      exact .task action pipeline hallows htask
    · cases hstep
  | finish status llm_summary =>
    simp only [session_step] at hstep
    split at hstep
    · rename_i hphase
      cases hstep
      exact .finish status llm_summary hphase
    · cases hstep
  | shutdown =>
    simp only [session_step] at hstep
    split at hstep
    · rename_i number hphase
      split at hstep
      · cases hstep
      · rename_i hsent
        obtain ⟨pipeline, hshutdown, rfl⟩ := Option.map_eq_some_iff.mp hstep
        exact .shutdown number pipeline hphase (Bool.eq_false_iff.mpr hsent) hshutdown
    · cases hstep
  | drop =>
    simp only [session_step] at hstep
    split at hstep
    · rename_i hphase
      cases hstep
      exact .drop hphase
    · cases hstep
  | drop_handle =>
    simp only [session_step] at hstep
    split at hstep
    · rename_i completed hphase
      obtain ⟨pipeline, hdrop, rfl⟩ := Option.map_eq_some_iff.mp hstep
      exact .drop_handle completed pipeline hphase hdrop
    · cases hstep

section Step

theorem start_life (p : WritePipeline) (hworks : ∀ n, p.fails n = false) (config : ExecutionConfig) (run_id : String) :
    Life p (.start p config run_id) := by
  have hstep : pipeline_step p (spawn p) (.write (run_started config run_id)) =
      some ((spawn p).write (run_started config run_id)) := rfl
  have hreach : reach ((spawn p).write (run_started config run_id)) = 0 := by
    rw [reach, unread_done (Or.inr rfl), unread_done (Or.inr rfl)]
    rfl
  constructor
  · exact (spawn_steady p).step (hworks _) hstep fun hpanicked => by cases hpanicked
  · exact fun _ => ⟨rfl, fun _ => rfl⟩
  · exact fun _ => ⟨hreach, _, rfl, rfl⟩
  · exact fun hphase => absurd rfl hphase
  · intro source hmem
    rw [ExecutionSession.start, hreach] at hmem
    exact absurd hmem (Multiset.notMem_zero source)
  · intro number hnumber
    cases hnumber

variable (h : Life p s) (hworks : ∀ n, p.fails n = false) (hpanics : s.pipeline.pc ≠ .panicked)

include h hpanics

/-- The loop reads both channels while the session holds them. -/
theorem Life.reads (hholds : s.phase.holds = true) (lane : Lane) : s.pipeline.pc.done_with lane = false :=
  h.steady.reads hpanics (h.held hholds).1 ((h.held hholds).2 .critical) lane

include hworks

omit hpanics in
/-- An action of the pipeline keeps what holds of it. -/
theorem Life.step_steady {action : PipelineAction} {pipeline : PipelineState}
    (hstep : pipeline_step p s.pipeline action = some pipeline) (hnext : pipeline.pc ≠ .panicked) :
    Steady p pipeline ∧ reach pipeline = reach s.pipeline + ((s.pipeline.enters action).toList : List Source) :=
  ⟨h.steady.step (hworks _) hstep hnext, reach_step h.steady.attended h.steady.sound (hworks _) hstep hnext⟩

/-- The session exists from the moment its `RunStarted` has been sent. -/
theorem Life.started (hphase : s.phase = .starting) {pipeline : PipelineState}
    (hsend : s.pipeline.send 0 = some (pipeline, .ok ())) (hnext : pipeline.pc ≠ .panicked) : Life p ⟨.live, pipeline⟩ := by
  have hheld := h.held (by rw [hphase]; rfl)
  have hreads := h.reads hpanics (by rw [hphase]; rfl)
  have hstep : pipeline_step p s.pipeline (.send 0) = some pipeline := by
    simp only [pipeline_step, hsend]
    rfl
  obtain ⟨hempty, event, hwaiting, hbrackets⟩ := h.starting hphase
  obtain ⟨hsteady, hreach⟩ := h.step_steady hworks hstep hnext
  have henters : s.pipeline.enters (.send 0) = some (s.pipeline.waiting_source (1, event)) := by
    rw [PipelineState.enters, hreads, hwaiting]
    rfl
  rw [hempty, henters, zero_add] at hreach
  have hkinds : event.is_run_started = true := congrArg Prod.fst hbrackets
  constructor
  · exact hsteady
  · intro _
    obtain ⟨hshutdown, hsenders⟩ := owners_step h.steady.attended h.steady.sound (hworks _) hstep
      ⟨by rintro ⟨⟩, by rintro ⟨⟩⟩ (by rintro _ ⟨⟩)
    exact ⟨hshutdown.trans hheld.1, fun lane => (hsenders lane).trans (hheld.2 lane)⟩
  · intro hlive
    cases hlive
  · intro _
    exact ⟨_, by rw [hreach]; exact Multiset.mem_singleton_self _, rfl, hkinds⟩
  · intro source hmem
    rw [hreach] at hmem
    rw [Multiset.mem_singleton.mp hmem]
    exact Or.inl rfl
  · intro number hnumber
    cases hnumber

/-- A task acts, or the flush loop. -/
theorem Life.task {action : PipelineAction} (hallows : s.allows action = true) {pipeline : PipelineState}
    (hstep : pipeline_step p s.pipeline action = some pipeline) (hnext : pipeline.pc ≠ .panicked)
    (hkeep : ∀ source, s.pipeline.enters action = some source → Fits s.phase source) : Life p { s with pipeline } := by
  obtain ⟨hsteady, hreach⟩ := h.step_steady hworks hstep hnext
  have hstays : ∀ source ∈ reach s.pipeline, source ∈ reach pipeline := by
    intro source hmem
    rw [hreach]
    exact Multiset.mem_add.mpr (Or.inl hmem)
  have hentered : ∀ source, s.pipeline.enters action = some source → source ∈ reach pipeline := by
    intro source henters
    rw [hreach, henters]
    exact Multiset.mem_add.mpr (Or.inr (Multiset.mem_singleton_self source))
  constructor
  · exact hsteady
  · intro hholds
    have hheld := h.held hholds
    obtain ⟨hshutdown, hsenders⟩ := owners_step h.steady.attended h.steady.sound (hworks _) hstep
      (by constructor <;> rintro rfl <;> cases hallows) (by
        rintro lane rfl
        cases hphase : s.phase <;> simp [hphase, ExecutionSession.allows, Phase.holds] at hallows hholds)
    exact ⟨hshutdown.trans hheld.1, fun lane => (hsenders lane).trans (hheld.2 lane)⟩
  · intro hphase
    obtain ⟨hempty, event, hwaiting, hbrackets⟩ := h.starting hphase
    -- only the loop acts while the session starts
    cases action with
    | proceed elapsed =>
      have hwriters := proceed_writers hstep
      simp only [PipelineState.writers, Prod.mk.injEq] at hwriters
      refine ⟨?_, event, hwriters.2.1.trans hwaiting, hbrackets⟩
      rw [hreach, hempty]
      rfl
    | _ =>
      change s.phase = .starting at hphase
      simp [ExecutionSession.allows, hphase] at hallows
  · intro hphase
    obtain ⟨source, hmem, hsource⟩ := h.opened hphase
    exact ⟨source, hstays source hmem, hsource⟩
  · intro source hmem
    rw [hreach] at hmem
    cases Multiset.mem_add.mp hmem with
    | inl hold => exact h.fits source hold
    | inr hnew =>
      cases henters : s.pipeline.enters action with
      | none =>
        rw [henters] at hnew
        exact absurd hnew (Multiset.notMem_zero source)
      | some entered =>
        rw [henters] at hnew
        rw [Multiset.mem_singleton.mp hnew]
        exact Or.inr (hkeep entered henters)
  · intro number hnumber
    rcases h.completed number hnumber with ⟨hphase, label, hlabel, hlabelled, hkind⟩ | ⟨source, hmem, hsource⟩
    · have hreads := h.reads hpanics (by rw [hphase]; rfl)
      rcases waiting_step (hreads .critical) hstep hlabel with hwaits | ⟨index, rfl, hindex⟩ | henters
      · exact Or.inl ⟨hphase, label, hwaits, hlabelled, hkind⟩
      · simp [ExecutionSession.allows, hphase, hindex, hlabelled] at hallows
      · exact Or.inr ⟨_, hentered _ henters, hlabelled, hkind⟩
    · exact Or.inr ⟨source, hstays source hmem, hsource⟩

omit hworks hpanics in
/-- What has entered so far fits a session that gets the next number for its `RunCompleted`. -/
theorem Life.fits_next (hphase : s.phase = .live) {phase : Phase}
    (hcompleted : phase.completed = none ∨ phase.completed = some s.pipeline.next_seq) :
    ∀ source ∈ reach s.pipeline, source.number = 1 ∨ Fits phase source := by
  intro source hmem
  refine (h.fits source hmem).imp_right fun hfits => ⟨hfits.1, ?_⟩
  have hkind : source.event.is_run_completed = false := by
    have hlive := hfits.2
    rwa [hphase] at hlive
  cases hcompleted with
  | inl hnone =>
    rw [hnone]
    exact hkind
  | inr hnumber =>
    have haccepted : source ∈ s.pipeline.accepted := Multiset.mem_coe.mp (Multiset.mem_of_le h.steady.within hmem)
    have hlt := h.steady.numbered.below source.number
      (List.mem_append_right _ (List.mem_map_of_mem haccepted))
    rw [hnumber]
    exact Or.inr ⟨hlt, hkind⟩

/-- `finish` writes the end of the run. -/
theorem Life.finish (hphase : s.phase = .live) (status : RunStatus) (llm_summary : Option LlmRunSummary) :
    Life p ⟨.finishing s.pipeline.next_seq, s.pipeline.write (run_completed run_id status llm_summary)⟩ := by
  have hheld := h.held (by rw [hphase]; rfl)
  have hstep : pipeline_step p s.pipeline (.write (run_completed run_id status llm_summary)) =
      some (s.pipeline.write (run_completed run_id status llm_summary)) := if_pos (hheld.2 .critical)
  obtain ⟨hsteady, hreach⟩ := h.step_steady hworks hstep hpanics
  replace hreach : reach (s.pipeline.write (run_completed run_id status llm_summary)) = reach s.pipeline :=
    hreach.trans (add_zero _)
  constructor
  · exact hsteady
  · exact fun _ => hheld
  · intro hstarting
    cases hstarting
  · intro _
    rw [hreach]
    exact h.opened (by rw [hphase]; exact fun heq => by cases heq)
  · rw [hreach]
    exact h.fits_next hphase (Or.inr rfl)
  · intro number hnumber
    cases hnumber
    exact Or.inl ⟨rfl, _, List.mem_append_right _ (List.mem_singleton_self _), rfl, rfl⟩

omit hpanics in
/-- `finish` signals the shutdown once its event has been sent. -/
theorem Life.shutdown {number : Nat} (hphase : s.phase = .finishing number)
    (hsent : (s.pipeline.waiting.any fun label => label.1 = number) = false) {pipeline : PipelineState}
    (hstep : pipeline_step p s.pipeline .shutdown = some pipeline) (hnext : pipeline.pc ≠ .panicked) :
    Life p ⟨.finished number, pipeline⟩ := by
  obtain ⟨hsteady, hreach⟩ := h.step_steady hworks hstep hnext
  replace hreach : reach pipeline = reach s.pipeline := hreach.trans (add_zero _)
  constructor
  · exact hsteady
  · intro hholds
    cases hholds
  · intro hstarting
    cases hstarting
  · intro _
    rw [hreach]
    exact h.opened (by rw [hphase]; exact fun heq => by cases heq)
  · intro source hmem
    rw [hreach] at hmem
    have hfits := h.fits source hmem
    rwa [hphase] at hfits
  · intro other hother
    cases hother
    rw [hreach]
    rcases h.completed number (by rw [hphase]; rfl) with ⟨_, label, hlabel, hlabelled, _⟩ | hsource
    · have hnone := List.any_eq_false.mp hsent label hlabel
      simp [hlabelled] at hnone
    · exact Or.inr hsource

/-- `drop` tries to write the end of the run. -/
theorem Life.drop (hphase : s.phase = .live)
    (hnext : (s.pipeline.try_write (run_completed run_id .Failed none)).1.pc ≠ .panicked) :
    Life p ⟨.dropped (if (s.pipeline.channels .advisory).queue.length < (s.pipeline.channels .advisory).capacity
      then some s.pipeline.next_seq else none), (s.pipeline.try_write (run_completed run_id .Failed none)).1⟩ := by
  have hheld := h.held (by rw [hphase]; rfl)
  have hreads := h.reads hpanics (by rw [hphase]; rfl)
  have hstep : pipeline_step p s.pipeline (.try_write (run_completed run_id .Failed none)) =
      some (s.pipeline.try_write (run_completed run_id .Failed none)).1 := if_pos (hheld.2 .advisory)
  obtain ⟨hsteady, hreach⟩ := h.step_steady hworks hstep hnext
  have henters : s.pipeline.enters (.try_write (run_completed run_id .Failed none)) =
      if (s.pipeline.channels .advisory).queue.length < (s.pipeline.channels .advisory).capacity
      then some (s.pipeline.tried_source (run_completed run_id .Failed none)) else none := by
    rw [PipelineState.enters, hreads]
    by_cases hroom : (s.pipeline.channels .advisory).queue.length < (s.pipeline.channels .advisory).capacity
    · simp [hroom, Nat.not_le.mpr hroom]
    · simp [hroom, Nat.not_lt.mp hroom]
  rw [henters] at hreach
  have hopened := h.opened (by rw [hphase]; exact fun heq => by cases heq)
  constructor
  · exact hsteady
  · intro hholds
    cases hholds
  · intro hstarting
    cases hstarting
  · intro _
    obtain ⟨source, hmem, hsource⟩ := hopened
    exact ⟨source, by rw [hreach]; exact Multiset.mem_add.mpr (Or.inl hmem), hsource⟩
  · intro source hmem
    rw [hreach] at hmem
    cases Multiset.mem_add.mp hmem with
    | inl hold =>
      refine h.fits_next hphase ?_ source hold
      by_cases hroom : (s.pipeline.channels .advisory).queue.length < (s.pipeline.channels .advisory).capacity
      · exact Or.inr (by rw [if_pos hroom]; rfl)
      · exact Or.inl (by rw [if_neg hroom]; rfl)
    | inr hnew =>
      by_cases hroom : (s.pipeline.channels .advisory).queue.length < (s.pipeline.channels .advisory).capacity
      · rw [if_pos hroom] at hnew ⊢
        rw [Multiset.mem_singleton.mp hnew]
        exact Or.inr ⟨rfl, Or.inl rfl⟩
      · rw [if_neg hroom] at hnew
        exact absurd hnew (Multiset.notMem_zero source)
  · intro number hnumber
    by_cases hroom : (s.pipeline.channels .advisory).queue.length < (s.pipeline.channels .advisory).capacity
    · rw [if_pos hroom] at hnumber hreach
      cases hnumber
      refine Or.inr ⟨s.pipeline.tried_source (run_completed run_id .Failed none), ?_, rfl, rfl⟩
      rw [hreach]
      exact Multiset.mem_add.mpr (Or.inr (Multiset.mem_singleton_self _))
    · rw [if_neg hroom] at hnumber
      cases hnumber

omit hpanics in
theorem Life.drop_handle {completed : Option Nat} (hphase : s.phase = .dropped completed) {pipeline : PipelineState}
    (hstep : pipeline_step p s.pipeline .drop_handle = some pipeline) (hnext : pipeline.pc ≠ .panicked) :
    Life p ⟨.dropped completed, pipeline⟩ := by
  obtain ⟨hsteady, hreach⟩ := h.step_steady hworks hstep hnext
  replace hreach : reach pipeline = reach s.pipeline := hreach.trans (add_zero _)
  constructor
  · exact hsteady
  · intro hholds
    cases hholds
  · intro hstarting
    cases hstarting
  · intro _
    rw [hreach]
    exact h.opened (by rw [hphase]; exact fun heq => by cases heq)
  · intro source hmem
    rw [hreach] at hmem
    have hfits := h.fits source hmem
    rwa [hphase] at hfits
  · intro number hnumber
    rw [hreach]
    rcases h.completed number (by rw [hphase]; exact hnumber) with ⟨hfinishing, _⟩ | hsource
    · rw [hphase] at hfinishing
      cases hfinishing
    · exact Or.inr hsource

/-- One action of a session whose tasks keep to the rules. -/
theorem Life.step {action : SessionAction} (hstep : session_step p run_id s action = some next)
    (hkeep : TasksKeep s action) (hnext : next.pipeline.pc ≠ .panicked) : Life p next := by
  cases session_moves hstep with
  | started pipeline hphase hsend => exact h.started hworks hpanics hphase hsend hnext
  | task action pipeline hallows htask => exact h.task hworks hpanics hallows htask hnext hkeep
  | finish status llm_summary hphase => exact h.finish hworks hpanics hphase status llm_summary
  | shutdown number pipeline hphase hsent hshutdown => exact h.shutdown hworks hphase hsent hshutdown hnext
  | drop hphase => exact h.drop hworks hpanics hphase hnext
  | drop_handle completed pipeline hphase hdrop => exact h.drop_handle hworks hphase hdrop hnext

end Step

/-- Writing stops no loop. -/
theorem try_write_pc (s : PipelineState) (event : WriteEvent) : (s.try_write event).1.pc = s.pc := by
  unfold PipelineState.try_write
  simp only
  obtain ⟨_, _, haccept⟩ | ⟨_, haccept⟩ | ⟨_, haccept⟩ :=
    accept_cases { s with next_seq := s.next_seq + 1 } .advisory s.next_seq (event.set_seq (s.next_seq % 2 ^ 64))
  · rw [haccept]
  · rw [haccept]
  · rw [haccept]

/-- A loop that has not died of a panic has not died before. -/
theorem session_step_panicked {action : SessionAction} (hstep : session_step p run_id s action = some next)
    (hnext : next.pipeline.pc ≠ .panicked) : s.pipeline.pc ≠ .panicked := by
  cases session_moves hstep with
  | started pipeline hphase hsend =>
    have hsent : pipeline_step p s.pipeline (.send 0) = some pipeline := by
      simp only [pipeline_step, hsend]
      rfl
    exact panicked_step hsent hnext
  | task action pipeline hallows htask => exact panicked_step htask hnext
  | finish => exact hnext
  | shutdown number pipeline hphase hsent hshutdown => exact panicked_step hshutdown hnext
  | drop => rwa [try_write_pc] at hnext
  | drop_handle completed pipeline hphase hdrop => exact panicked_step hdrop hnext

/-- The runs of a session over a store that works, whose tasks keep to the rules. -/
abbrev SessionRun (p : WritePipeline) (config : ExecutionConfig) (run_id : String) :
    List SessionAction → ExecutionSession → Prop :=
  transition.Run (session_step p run_id) TasksKeep (.start p config run_id)

theorem run_life (hworks : ∀ n, p.fails n = false) {config : ExecutionConfig} {actions : List SessionAction}
    (hrun : SessionRun p config run_id actions s) (hpanics : s.pipeline.pc ≠ .panicked) : Life p s := by
  refine hrun.invariant (P := fun _ s => s.pipeline.pc ≠ .panicked → Life p s) (fun _ => start_life p hworks config run_id)
    ?_ hpanics
  intro actions s action next _ hlife hkeep hstep hnext
  have hbefore := session_step_panicked hstep hnext
  exact (hlife hbefore).step hworks hbefore hstep hkeep hnext

/-- Redaction leaves alone what an event says of its run. -/
theorem redact_event_brackets {redactor : Redactor} {node_meta : String → Option NodeMeta} {event redacted : WriteEvent}
    (h : redact_event redactor node_meta event = some redacted) : redacted.brackets = event.brackets := by
  cases redact_event_cases h <;> rfl

theorem copy_brackets {least : Nat} {entry : Entry} (h : Copy p least entry) :
    entry.event.brackets = entry.source.event.brackets := by
  obtain ⟨n, -, hn⟩ := h
  exact redact_times_kept (fun _ _ => redact_event_brackets) hn

/-- An element that is told from the others by its number is the only one of its kind. -/
theorem filter_eq_singleton {α β : Type*} {l : List α} {f : α → β} (hnodup : (l.map f).Nodup) {P : α → Bool} {x : α}
    (hmem : x ∈ l) (hkind : ∀ y ∈ l, P y = true ↔ f y = f x) : l.filter P = [x] := by
  rw [← List.perm_singleton, List.perm_ext_iff_of_nodup (hnodup.of_map f |>.filter P) (List.nodup_singleton x)]
  intro y
  rw [List.mem_filter, List.mem_singleton]
  constructor
  · rintro ⟨hy, hP⟩
    exact List.inj_on_of_nodup_map hnodup hy hmem ((hkind y hy).mp hP)
  · rintro rfl
    exact ⟨hmem, (hkind y hmem).mpr rfl⟩

section Returned

variable (h : Life p s) (hreturned : s.pipeline.pc = .returned) (hwraps : s.pipeline.next_seq ≤ 2 ^ 64)

include h hreturned

/-- The store holds what entered, and nothing twice. -/
theorem Life.stored_numbers : (s.pipeline.stored.map fun entry => entry.source.number).Nodup := by
  have hle := h.steady.within
  rw [reach_returned h.steady.sound hreturned, sources, Multiset.coe_le] at hle
  have hnumbers := (List.nodup_append.mp h.steady.numbered.distinct).2.1
  obtain ⟨kept, hperm, hsublist⟩ := hle
  have hstored := (hperm.map Source.number).nodup_iff.mp (hnumbers.sublist (hsublist.map Source.number))
  rwa [List.map_map] at hstored

theorem Life.stored_reach {entry : Entry} (hmem : entry ∈ s.pipeline.stored) : entry.source ∈ reach s.pipeline := by
  rw [reach_returned h.steady.sound hreturned]
  exact Multiset.mem_coe.mpr (List.mem_map_of_mem hmem)

theorem Life.reach_stored {source : Source} (hmem : source ∈ reach s.pipeline) :
    ∃ entry ∈ s.pipeline.stored, entry.source = source := by
  rw [reach_returned h.steady.sound hreturned] at hmem
  exact List.mem_map.mp (Multiset.mem_coe.mp hmem)

omit hreturned in
theorem Life.stored_brackets {entry : Entry} (hmem : entry ∈ s.pipeline.stored) :
    entry.event.is_run_started = entry.source.event.is_run_started ∧
      entry.event.is_run_completed = entry.source.event.is_run_completed := by
  have hbrackets := copy_brackets (h.steady.sound.conserved.stored entry hmem)
  exact ⟨congrArg Prod.fst hbrackets, congrArg Prod.snd hbrackets⟩

include hwraps

theorem Life.stored_seq {entry : Entry} (hmem : entry ∈ s.pipeline.stored) :
    entry.event.seq = entry.source.number ∧ 1 ≤ entry.source.number := by
  have haccepted : entry.source ∈ s.pipeline.accepted :=
    Multiset.mem_coe.mp (Multiset.mem_of_le h.steady.within (h.stored_reach hreturned hmem))
  have hnumber : entry.source.number ∈ s.pipeline.numbers := List.mem_append_right _ (List.mem_map_of_mem haccepted)
  have hlt := h.steady.numbered.below _ hnumber
  rw [(h.steady.sound.conserved.stored entry hmem).seq, h.steady.labelled.2 _ haccepted, Nat.mod_eq_of_lt (by omega)]
  exact ⟨rfl, h.steady.positive.2 _ hnumber⟩

omit hwraps in
/-- The entry with a kind and a number of its own is the only persisted event of its kind. -/
theorem Life.only_one {entry : Entry} (hmem : entry ∈ s.pipeline.stored) {kind : WriteEvent → Bool}
    (hkind : ∀ other ∈ s.pipeline.stored, kind other.event = true ↔ other.source.number = entry.source.number) :
    s.persisted.filter kind = [entry.event] := by
  rw [ExecutionSession.persisted, List.filter_map,
    filter_eq_singleton (h.stored_numbers hreturned) hmem (P := kind ∘ Entry.event) hkind]
  rfl

omit hwraps in
/-- Entries of one number are one entry. -/
theorem Life.entry_unique {entry other : Entry} (hmem : entry ∈ s.pipeline.stored) (hother : other ∈ s.pipeline.stored)
    (hnumber : other.source.number = entry.source.number) : other = entry :=
  List.inj_on_of_nodup_map (h.stored_numbers hreturned) hother hmem hnumber

omit hwraps in
/-- The session's `RunStarted` is stored under the first number. -/
theorem Life.first_stored (hphase : s.phase ≠ .starting) :
    ∃ entry ∈ s.pipeline.stored, entry.source.number = 1 ∧ entry.event.is_run_started = true ∧
      entry.event.is_run_completed = false := by
  obtain ⟨source, hreach, hnumber, hkind⟩ := h.opened hphase
  obtain ⟨entry, hmem, rfl⟩ := h.reach_stored hreturned hreach
  have hstarted := (h.stored_brackets hmem).1.trans hkind
  refine ⟨entry, hmem, hnumber, hstarted, ?_⟩
  cases hevent : entry.event <;> simp_all [WriteEvent.is_run_started, WriteEvent.is_run_completed]

theorem Life.persisted_opened (hphase : s.phase ≠ .starting) : Opened s.persisted := by
  obtain ⟨first, hfirst, hnumber, hstarted, _⟩ := h.first_stored hreturned hphase
  refine ⟨first.event, h.only_one hreturned hfirst ?_, ?_⟩
  · intro entry hmem
    constructor
    · intro hkind
      rw [(h.stored_brackets hmem).1] at hkind
      rcases h.fits _ (h.stored_reach hreturned hmem) with hone | hfits
      · rw [hone, hnumber]
      · rw [hfits.1] at hkind
        cases hkind
    · intro hsame
      rw [h.entry_unique hreturned hfirst hmem hsame]
      exact hstarted
  · intro event hmem hkind
    obtain ⟨entry, hentry, rfl⟩ := List.mem_map.mp hmem
    obtain ⟨hseq, hpositive⟩ := h.stored_seq hreturned hwraps hentry
    rw [(h.stored_seq hreturned hwraps hfirst).1, hseq, hnumber]
    by_contra hnot
    have hone : entry.source.number = first.source.number := by omega
    rw [h.entry_unique hreturned hfirst hentry hone, hstarted] at hkind
    cases hkind

theorem Life.persisted_closed (hphase : s.phase ≠ .starting) {number : Nat} (hcompleted : s.phase.completed = some number)
    (hends : s.phase ≠ .finishing number) : Closed s.persisted := by
  obtain ⟨first, hfirst, hone, _, hfirst_kind⟩ := h.first_stored hreturned hphase
  rcases h.completed number hcompleted with ⟨hfinishing, _⟩ | ⟨source, hreach, hnumber, hkind⟩
  · exact absurd hfinishing hends
  obtain ⟨last, hlast, rfl⟩ := h.reach_stored hreturned hreach
  rw [← (h.stored_brackets hlast).2] at hkind
  have hother : first.source.number ≠ last.source.number := by
    intro hsame
    rw [h.entry_unique hreturned hlast hfirst hsame, hkind] at hfirst_kind
    cases hfirst_kind
  have hfits : ∀ entry ∈ s.pipeline.stored, entry.source.number = 1 ∨ entry.source.number = number ∨
      entry.source.number < number ∧ entry.event.is_run_completed = false := by
    intro entry hmem
    refine (h.fits _ (h.stored_reach hreturned hmem)).imp_right fun hfits => ?_
    have hbefore := hfits.2
    rw [hcompleted] at hbefore
    rwa [(h.stored_brackets hmem).2]
  refine ⟨last.event, h.only_one hreturned hlast ?_, ?_⟩
  · intro entry hmem
    constructor
    · intro hentry
      rcases hfits entry hmem with hfirst_number | hlast_number | hbefore
      · rw [h.entry_unique hreturned hfirst hmem (hfirst_number.trans hone.symm), hfirst_kind] at hentry
        cases hentry
      · exact hlast_number.trans hnumber.symm
      · rw [hbefore.2] at hentry
        cases hentry
    · intro hsame
      rw [h.entry_unique hreturned hlast hmem hsame]
      exact hkind
  · intro event hmem hentry
    obtain ⟨entry, hin, rfl⟩ := List.mem_map.mp hmem
    have hpositive := (h.stored_seq hreturned hwraps hlast).2
    rw [(h.stored_seq hreturned hwraps hlast).1, (h.stored_seq hreturned hwraps hin).1, hnumber]
    rcases hfits entry hin with hfirst_number | hlast_number | hbefore
    · omega
    · rw [h.entry_unique hreturned hlast hin (hlast_number.trans hnumber.symm), hkind] at hentry
      cases hentry
    · exact hbefore.1

omit hwraps in
theorem Life.persisted_open (hphase : s.phase ≠ .starting) (hcompleted : s.phase.completed = none) :
    s.persisted.filter WriteEvent.is_run_completed = [] := by
  obtain ⟨first, hfirst, hone, _, hfirst_kind⟩ := h.first_stored hreturned hphase
  rw [List.filter_eq_nil_iff]
  intro event hmem hkind
  obtain ⟨entry, hentry, rfl⟩ := List.mem_map.mp hmem
  rcases h.fits _ (h.stored_reach hreturned hentry) with hfirst_number | hfits
  · rw [h.entry_unique hreturned hfirst hentry (hfirst_number.trans hone.symm), hfirst_kind] at hkind
    cases hkind
  · have hnone := hfits.2
    rw [hcompleted] at hnone
    rw [(h.stored_brackets hentry).2, hnone] at hkind
    cases hkind

omit hwraps in
/-- The loop has returned because the session has ended. -/
theorem Life.ended : s.phase.holds = false := by
  by_contra hholds
  have hholds : s.phase.holds = true := by simpa using hholds
  have hreads := h.reads (by rw [hreturned]; exact fun heq => by cases heq) hholds .critical
  rw [hreturned] at hreads
  cases hreads

end Returned

/-- Where the flush loop of a session has returned, over a store that works and with tasks
that keep to the rules, the persisted events begin with the session's `RunStarted`; they end
with its `RunCompleted` after `finish`, and after a drop exactly if the advisory channel had room. -/
theorem log_bracketed {config : ExecutionConfig} {actions : List SessionAction}
    (hrun : SessionRun (session_pipeline config fun _ => false) config run_id actions s)
    (hreturned : s.pipeline.pc = .returned) (hwraps : s.pipeline.next_seq ≤ 2 ^ 64) :
    Opened s.persisted ∧
      ((∃ number, s.phase = .finished number ∨ s.phase = .dropped (some number)) ∧ Closed s.persisted ∨
        s.phase = .dropped none ∧ s.persisted.filter WriteEvent.is_run_completed = []) := by
  have hlife := run_life (fun _ => rfl) hrun (by rw [hreturned]; exact fun heq => by cases heq)
  have hended := hlife.ended hreturned
  cases hphase : s.phase with
  | starting =>
    rw [hphase] at hended
    cases hended
  | live =>
    rw [hphase] at hended
    cases hended
  | finishing number =>
    rw [hphase] at hended
    cases hended
  | finished number =>
    have hstarts : s.phase ≠ .starting := by rw [hphase]; exact fun heq => by cases heq
    refine ⟨hlife.persisted_opened hreturned hwraps hstarts, Or.inl ⟨⟨number, Or.inl rfl⟩, ?_⟩⟩
    exact hlife.persisted_closed hreturned hwraps hstarts (by rw [hphase]; rfl) (by rw [hphase]; exact fun heq => by cases heq)
  | dropped completed =>
    have hstarts : s.phase ≠ .starting := by rw [hphase]; exact fun heq => by cases heq
    refine ⟨hlife.persisted_opened hreturned hwraps hstarts, ?_⟩
    cases completed with
    | some number =>
      refine Or.inl ⟨⟨number, Or.inr rfl⟩, ?_⟩
      exact hlife.persisted_closed hreturned hwraps hstarts (by rw [hphase]; rfl)
        (by rw [hphase]; exact fun heq => by cases heq)
    | none => exact Or.inr ⟨rfl, hlife.persisted_open hreturned hstarts (by rw [hphase]; rfl)⟩

section Samples

instance (phase : Phase) (source : Source) : Decidable (Fits phase source) := by
  unfold Fits
  cases phase.completed <;> infer_instance

instance (s : ExecutionSession) (action : SessionAction) : Decidable (TasksKeep s action) :=
  match action with
  | .task action =>
    match h : s.pipeline.enters action with
    | none => .isTrue fun source henters => by rw [h] at henters; cases henters
    | some entered => decidable_of_iff (Fits s.phase entered)
      ⟨fun hfits source henters => by rw [h] at henters; cases henters; exact hfits, fun hkeep => hkeep entered h⟩
  | .started | .finish .. | .shutdown | .drop | .drop_handle => .isTrue trivial

/-- A session whose advisory channel has room for one event. -/
def sample_config : ExecutionConfig where
  session_name := none
  redactor := default_redactor
  metadata := []
  pipeline_config := .default fun _ => true
  critical_capacity := 8
  advisory_capacity := 1
  version_id := none
  config_hash := none
  triggered_by := none
  trigger_inputs := none
  parent_run_id := none

def sample_pipeline : WritePipeline := session_pipeline sample_config fun _ => false

/-- A task of a cancelled run goes on while the session finishes. -/
def cancelled_run : List SessionAction :=
  [.started, .task (.write (.Checkpoint 0 "run" "A" .null)), .finish .Cancelled none, .task (.send 1), .task (.send 0),
    .shutdown] ++ List.replicate 10 (.task (.proceed false))

/-- The task writes after the session has. -/
def late_run : List SessionAction :=
  [.started, .finish .Cancelled none, .task (.send 0), .task (.write (.Checkpoint 0 "run" "A" .null)), .task (.send 0),
    .shutdown] ++ List.replicate 10 (.task (.proceed false))

/-- The session's user records the end of the run as well. -/
def recorded_run : List SessionAction :=
  [.started, .task (.write (run_completed "run" .Completed none)), .task (.send 0), .finish .Completed none,
    .task (.send 0), .shutdown] ++ List.replicate 10 (.task (.proceed false))

/-- The session is dropped while an event of its own fills the advisory channel. -/
def dropped_run : List SessionAction :=
  [.started, .task (.try_write (.Custom 0 "run" none "debug" .null)), .drop, .drop_handle] ++
    List.replicate 9 (.task (.proceed false))

/-- Whether the loop has returned, the next number, and the `seq` and the end mark of each
persisted event. -/
def ExecutionSession.summary (s : ExecutionSession) : Bool × Nat × List (Nat × Bool) :=
  (match s.pipeline.pc with
    | .returned => true
    | _ => false,
    s.pipeline.next_seq, s.persisted.map fun event => (event.seq, event.is_run_completed))

theorem summary_returned {next_seq : Nat} {labels : List (Nat × Bool)} (hsummary : s.summary = (true, next_seq, labels)) :
    s.pipeline.pc = .returned ∧ s.pipeline.next_seq = next_seq ∧
      (s.persisted.map fun event => (event.seq, event.is_run_completed)) = labels := by
  simp only [ExecutionSession.summary, Prod.mk.injEq] at hsummary
  obtain ⟨hreturned, hnext, hlabels⟩ := hsummary
  refine ⟨?_, hnext, hlabels⟩
  split at hreturned
  · assumption
  · cases hreturned

/-- A log with an end has one, and its `seq` is the greatest. -/
theorem Closed.labels {events : List WriteEvent} (h : Closed events) {labels : List (Nat × Bool)}
    (hlabels : (events.map fun event => (event.seq, event.is_run_completed)) = labels) :
    labels.countP Prod.snd = 1 ∧
      ∃ last ∈ labels, last.2 = true ∧ ∀ label ∈ labels, label.2 = false → label.1 < last.1 := by
  obtain ⟨last, hlast, hbefore⟩ := h
  have hone : events.countP WriteEvent.is_run_completed = 1 := by rw [List.countP_eq_length_filter, hlast]; rfl
  have hmem : last ∈ events.filter WriteEvent.is_run_completed := by
    rw [hlast]
    exact List.mem_singleton_self last
  rw [List.mem_filter] at hmem
  subst hlabels
  refine ⟨by rw [List.countP_map]; exact hone, _, List.mem_map_of_mem hmem.1, hmem.2, ?_⟩
  intro label hlabel hkind
  obtain ⟨event, hevent, rfl⟩ := List.mem_map.mp hlabel
  exact hbefore event hevent hkind

theorem log_bracketed_sample : ∃ s, SessionRun sample_pipeline sample_config "run" cancelled_run s ∧
    s.pipeline.pc = .returned ∧ s.persisted.length = 3 ∧
    Opened s.persisted ∧
      ((∃ number, s.phase = .finished number ∨ s.phase = .dropped (some number)) ∧ Closed s.persisted ∨
        s.phase = .dropped none ∧ s.persisted.filter WriteEvent.is_run_completed = []) := by
  have hsummary : (cancelled_run.foldlM (fun s action =>
      if TasksKeep s action then session_step sample_pipeline "run" s action else none)
      (.start sample_pipeline sample_config "run")).map ExecutionSession.summary =
        some (true, 4, [(1, false), (3, true), (2, false)]) := by decide +kernel
  obtain ⟨s, hfold, hs⟩ := Option.map_eq_some_iff.mp hsummary
  obtain ⟨hreturned, hnext, hlabels⟩ := summary_returned hs
  have hrun : SessionRun sample_pipeline sample_config "run" cancelled_run s := transition.run_of_foldlM_checked hfold
  exact ⟨s, hrun, hreturned, by simpa using congrArg List.length hlabels,
    log_bracketed hrun hreturned (by rw [hnext]; decide)⟩

/-- A run that ends with a log which is not closed. -/
def EndsUnclosed (actions : List SessionAction) : Prop :=
  ∃ s, transition.Run (session_step sample_pipeline "run") (fun _ _ => True)
    (.start sample_pipeline sample_config "run") actions s ∧ s.pipeline.pc = .returned ∧ ¬Closed s.persisted

theorem ends_unclosed {actions : List SessionAction} {next_seq : Nat} {labels : List (Nat × Bool)}
    (hsummary : (actions.foldlM (session_step sample_pipeline "run")
      (.start sample_pipeline sample_config "run")).map ExecutionSession.summary = some (true, next_seq, labels))
    (hlabels : ¬(labels.countP Prod.snd = 1 ∧
      ∃ last ∈ labels, last.2 = true ∧ ∀ label ∈ labels, label.2 = false → label.1 < last.1)) :
    EndsUnclosed actions := by
  obtain ⟨s, hfold, hs⟩ := Option.map_eq_some_iff.mp hsummary
  obtain ⟨hreturned, _, hpersisted⟩ := summary_returned hs
  exact ⟨s, transition.run_of_foldlM hfold, hreturned, fun hclosed => hlabels (hclosed.labels hpersisted)⟩

/-- A session that is dropped while its advisory channel is full leaves no `RunCompleted`, a task
of a cancelled run leaves an event behind it, and the session's user leaves a second one. -/
theorem unbracketed_logs : EndsUnclosed dropped_run ∧ EndsUnclosed late_run ∧ EndsUnclosed recorded_run := by
  have hdropped : (dropped_run.foldlM (session_step sample_pipeline "run")
      (.start sample_pipeline sample_config "run")).map ExecutionSession.summary =
        some (true, 4, [(1, false), (2, false)]) := by decide +kernel
  have hlate : (late_run.foldlM (session_step sample_pipeline "run")
      (.start sample_pipeline sample_config "run")).map ExecutionSession.summary =
        some (true, 4, [(1, false), (2, true), (3, false)]) := by decide +kernel
  have hrecorded : (recorded_run.foldlM (session_step sample_pipeline "run")
      (.start sample_pipeline sample_config "run")).map ExecutionSession.summary =
        some (true, 4, [(1, false), (2, true), (3, true)]) := by decide +kernel
  exact ⟨ends_unclosed hdropped (by decide), ends_unclosed hlate (by decide), ends_unclosed hrecorded (by decide)⟩

end Samples

end flow_engine.runtime
