import FlowEngine.Executor.Tasks.Progress
import FlowEngine.Lib.Fairness
import FlowEngine.Runtime.Persisted
import Mathlib.Order.WithBot

namespace flow_engine.runtime

open write_pipeline
open executor (RunContext Behaviour Live LiveRun Move TaskId Accepted SmallOutputs)

/-- Who acts in a recorded run: the executor's loop with its session, a task, the critical channel as it
lets in what waits, or the flush loop. -/
inductive Party where
  | loop
  | task (id : TaskId)
  | channel
  | flush_loop
  deriving DecidableEq

def RecordedAction.party : RecordedAction → Option Party
  | .started | .live (.join _) | .live .record | .live .spawn | .finish false | .shutdown | .drop_handle => some .loop
  | .live (.write id) => some (.task id)
  | .pipeline (.send _) => some .channel
  | .pipeline (.proceed _) => some .flush_loop
  | _ => none

/-- Nothing is advised, and the run is neither cancelled nor dropped. -/
def RecordedAction.undisturbed : RecordedAction → Bool
  | .advise _ | .drop | .finish true => false
  | _ => true

/-- The session has ended and so has the flush loop, and no write waits. -/
structure Rested (r : RecordedRun) : Prop where
  ended : r.session.phase.holds = false
  loop_over : r.session.pipeline.pc.over = true
  returned : r.session.pipeline.waiting = []

/-- What a recorded run over any store can rely on. -/
structure Workable (p : WritePipeline) (r : RecordedRun) : Prop where
  sound : Sound p r.session.pipeline
  room : 0 < (r.session.pipeline.channels .critical).capacity
  handled : Handled r.session
  told : ∀ number, r.session.phase = .finished number → r.session.pipeline.shutdown ≠ .held
  unfed : r.session.phase = .starting → p.config.starts = true →
    Unfed r.session.pipeline ∧ ∃ label, r.session.pipeline.waiting = [label]

def Phase.is_starting : Phase → Bool
  | .starting => true
  | _ => false

theorem Phase.eq_starting {phase : Phase} (h : phase.is_starting = true) : phase = .starting := by
  cases phase with
  | starting => rfl
  | _ => cases h

namespace RecordedRun

/-- Somebody waits for the flush loop: it was told to end, or a write waits for room. -/
def waits_for_flush (r : RecordedRun) : Bool :=
  r.session.pipeline.shutdown ≠ .held || !r.session.pipeline.waiting.isEmpty && !r.session.pipeline.has_room

/-- The ends of the session's phases that are still to come. -/
def stage (r : RecordedRun) : Nat :=
  match r.session.phase with
  | .starting => 4
  | .live => 3
  | .finishing _ => 2
  | .finished _ | .dropped _ => if r.session.pipeline.shutdown = .held then 1 else 0

variable (ctx : RunContext) (behave : executor.Task → Behaviour)

/-- How far the flush loop is from what it is waited for. -/
def flush_distance (r : RecordedRun) : WithBot (ℕ ×ₗ ℕ ×ₗ ℕ) :=
  if r.waits_for_flush then r.session.pipeline.distance else ⊥

/-- How far a recorded run is from its end. -/
def distance (r : RecordedRun) : ℕ ×ₗ (ℕ ×ₗ ℕ ×ₗ ℕ ×ₗ ℕ) ×ₗ ℕ ×ₗ WithBot (ℕ ×ₗ ℕ ×ₗ ℕ) :=
  toLex (r.stage, toLex (r.live.distance ctx behave, toLex (r.session.pipeline.waiting.length, r.flush_distance)))

/-- Who can act when no write waits. -/
def next_party (r : RecordedRun) : Party :=
  match r.session.phase with
  | .starting | .finishing _ => .loop
  | .live =>
    match r.live.due ctx behave with
    | some (.write id) => .task id
    | _ => .loop
  | .finished _ => .flush_loop
  | .dropped _ => if r.session.pipeline.shutdown = .held then .loop else .flush_loop

/-- Who can act. -/
def helpful (r : RecordedRun) : Party :=
  if r.session.phase.is_starting || r.session.pipeline.waiting.isEmpty then r.next_party ctx behave
  else if r.session.pipeline.has_room then .channel
  else .flush_loop

end RecordedRun

variable {p : WritePipeline} {config : ExecutionConfig} {ctx : RunContext} {behave : executor.Task → Behaviour}
variable {r next : RecordedRun} {action : RecordedAction}

/-- A session starts once. -/
theorem RecordedMove.was_starting (hmove : RecordedMove p ctx behave r action next)
    (hstarting : next.session.phase = .starting) : r.session.phase = .starting := by
  cases hmove with
  | started | finishes | shutdown | drops | drops_handle => cases hstarting
  | writes | joins | records | spawns | advises | pipeline => exact hstarting

theorem Workable.step (h : Workable p r) (hmove : RecordedMove p ctx behave r action next) : Workable p next := by
  have hpipeline := hmove.pipeline_step h.handled
  constructor
  · rcases hpipeline with hsame | ⟨taken, hstep⟩
    · rw [hsame]
      exact h.sound
    · exact h.sound.step hstep
  · rcases hpipeline with hsame | ⟨taken, hstep⟩
    · rw [hsame]
      exact h.room
    · rw [pipeline_step_capacity hstep]
      exact h.room
  · exact hmove.handled h.handled
  · intro number hnumber
    have hkeeps : r.session.phase = .finished number → next.session.pipeline.shutdown ≠ .held := by
      intro hphase
      rcases hpipeline with hsame | ⟨taken, hstep⟩
      · rw [hsame]
        exact h.told number hphase
      · exact signalled_step hstep (h.told number hphase)
    cases hmove with
    | shutdown other pipeline hphase hsent hshutdown => exact shutdown_signals hshutdown
    | writes | joins | records | spawns | advises | pipeline => exact hkeeps hnumber
    | started | finishes | drops | drops_handle => cases hnumber
  · intro hstarting hstarts
    cases hmove with
    | pipeline action pipeline hallows hkind hstep =>
      change r.session.phase = .starting at hstarting
      obtain ⟨hunfed, label, hlabel⟩ := h.unfed hstarting hstarts
      rw [ExecutionSession.allows.eq_def, hstarting] at hallows
      cases action with
      | proceed elapsed =>
        have hwriters := proceed_writers hstep
        simp only [PipelineState.writers, Prod.mk.injEq] at hwriters
        exact ⟨hunfed.proceed hstarts hstep, label, hwriters.2.1.trans hlabel⟩
      | _ => cases hallows
    | writes _ _ _ hphase | advises _ _ _ hphase => exact absurd hstarting hphase
    | joins _ _ _ hphase | records _ _ _ _ hphase | spawns _ hphase =>
      change r.session.phase = .starting at hstarting
      rw [hphase] at hstarting
      cases hstarting
    | started | finishes | shutdown | drops | drops_handle => cases hstarting

/-- A run over any store. -/
abbrev RunOver (config : ExecutionConfig) (fails : Nat → Bool) (ctx : RunContext) (behave : executor.Task → Behaviour) :
    List RecordedAction → RecordedRun → Prop :=
  transition.Run (recorded_step (session_pipeline config fails) ctx behave) (fun _ _ => True)
    (recorded_start (session_pipeline config fails) config ctx)

theorem run_workable {fails : Nat → Bool} (hroom : 0 < config.critical_capacity) {actions : List RecordedAction}
    (hrun : RunOver config fails ctx behave actions r) :
    Workable (session_pipeline config fails) r ∧ ∃ moves, LiveRun ctx behave 2 moves r.live := by
  refine hrun.invariant (P := fun _ r => Workable (session_pipeline config fails) r ∧
    ∃ moves, LiveRun ctx behave 2 moves r.live) ?_ ?_
  · refine ⟨?_, [], .nil⟩
    have hunfed := spawn_unfed (session_pipeline config fails)
    refine ⟨?_, hroom, ?_, ?_, ?_⟩
    · have hwrite : pipeline_step (session_pipeline config fails) (spawn (session_pipeline config fails))
          (.write (run_started config ctx.run_id)) =
            some ((spawn (session_pipeline config fails)).write (run_started config ctx.run_id)) := rfl
      exact (spawn_sound _).step hwrite
    · exact fun _ => ⟨rfl, fun _ => rfl⟩
    · exact fun number hnumber => by cases hnumber
    · exact fun _ _ => ⟨⟨hunfed.held, hunfed.channels, hunfed.batch, hunfed.polls⟩, _, rfl⟩
  · intro actions r action next _ h _ hstep
    obtain ⟨hworkable, moves, hlive⟩ := h
    have hmove := recorded_moves hstep
    refine ⟨hworkable.step hmove, ?_⟩
    rcases hmove.live_step with hsame | ⟨move, hmoved⟩
    · exact ⟨moves, hsame ▸ hlive⟩
    · exact ⟨moves ++ [move], hlive.snoc trivial hmoved⟩

section Enabled

/-- Nobody is inside a `write` when none waits. -/
theorem writing_none (hnone : r.session.pipeline.waiting = []) (wrote : executor.Entry → Bool) : r.writing wrote = false := by
  simp [RecordedRun.writing, hnone]

/-- A move of the executor is possible while the session is live and no write waits. -/
theorem live_enabled (h : Workable p r) (hphase : r.session.phase = .live) (hnone : r.session.pipeline.waiting = [])
    {move : Move} {live : Live} (hmove : move ≠ .draw) (hstep : executor.live_step ctx behave r.live move = some live) :
    ∃ next, recorded_step p ctx behave r (.live move) = some next := by
  have hfree : r.blocked move = false := by
    cases move with
    | draw => exact absurd rfl hmove
    | _ => simp [RecordedRun.blocked, writing_none hnone, hphase, Phase.is_live]
  have hsenders := (h.handled (by rw [hphase]; rfl)).2 .critical
  simp only [recorded_step, hfree, Bool.false_eq_true, ↓reduceIte, hstep]
  split
  · exact ⟨_, rfl⟩
  · simp [session_step, ExecutionSession.allows, hphase, pipeline_step, hsenders]

theorem proceed_enabled (hover : r.session.pipeline.pc.over = false) :
    transition.Enabled (recorded_step p ctx behave) RecordedAction.party r .flush_loop := by
  have hproceed : ∃ pipeline, proceed p r.session.pipeline false = some pipeline := proceed_some p hover false
  obtain ⟨pipeline, hproceed⟩ := hproceed
  refine ⟨.pipeline (.proceed false), ⟨r.live, r.session.phase, pipeline⟩, rfl, ?_⟩
  simp [recorded_step, of_pipeline, session_step, ExecutionSession.allows, pipeline_step, hproceed]

/-- The session starts, if the flush loop does. -/
theorem started_enabled (h : Workable p r) (hphase : r.session.phase = .starting) (hstarts : p.config.starts = true) :
    transition.Enabled (recorded_step p ctx behave) RecordedAction.party r .loop := by
  obtain ⟨hunfed, ⟨number, event⟩, hwaiting⟩ := h.unfed hphase hstarts
  obtain ⟨hqueue, _, hreceiver⟩ := hunfed.channels .critical
  have hroom := h.room
  have hsend : ∃ pipeline, r.session.pipeline.send 0 = some (pipeline, .ok ()) := by
    unfold PipelineState.send
    simp only [hwaiting, List.getElem?_cons_zero]
    obtain ⟨ch, _, haccept⟩ | ⟨hclosed, _⟩ | ⟨hfull, _⟩ :=
      accept_cases { r.session.pipeline with waiting := [(number, event)].eraseIdx 0 } .critical number event
    · rw [haccept]
      exact ⟨_, rfl⟩
    · simp only [hreceiver] at hclosed
      cases hclosed
    · simp only [hqueue, List.length_nil] at hfull
      omega
  obtain ⟨pipeline, hsend⟩ := hsend
  exact ⟨.started, ⟨r.live, .live, pipeline⟩, rfl, by simp [recorded_step, session_step, hphase, hsend]⟩

/-- A write that waits returns when the channel has room. -/
theorem send_enabled (h : Workable p r) (hphase : r.session.phase ≠ .starting) (hwaiting : r.session.pipeline.waiting ≠ [])
    (hroom : r.session.pipeline.has_room = true) :
    transition.Enabled (recorded_step p ctx behave) RecordedAction.party r .channel := by
  obtain ⟨pipeline, hsend⟩ := h.sound.send_first hroom hwaiting
  refine ⟨.pipeline (.send 0), ⟨r.live, r.session.phase, pipeline⟩, rfl, ?_⟩
  have hallows : r.session.allows (.send 0) = true := by
    cases hother : r.session.phase <;> first | exact absurd hother hphase | simp [ExecutionSession.allows, hother]
  simp [recorded_step, of_pipeline, session_step, hallows, hsend]

/-- Without a write that waits the next party can act. -/
theorem next_party_enabled (haccepted : Accepted ctx) (hpanic : ∀ task, (behave task).NoPanic)
    (hsmall : SmallOutputs ctx behave) (h : Workable p r) {moves : List Move} (hlive : LiveRun ctx behave 2 moves r.live)
    (hstarts : r.session.phase = .starting → p.config.starts = true) (hnone : r.session.pipeline.waiting = [])
    (hrest : ¬ Rested r) :
    transition.Enabled (recorded_step p ctx behave) RecordedAction.party r (r.next_party ctx behave) := by
  have hloop : r.session.phase.holds = false → r.session.pipeline.pc.over = false := by
    intro hended
    by_contra hover
    exact hrest ⟨hended, by simpa using hover, hnone⟩
  cases hphase : r.session.phase with
  | starting =>
    rw [RecordedRun.next_party, hphase]
    exact started_enabled h hphase (hstarts hphase)
  | live =>
    rw [RecordedRun.next_party, hphase]
    cases hdue : r.live.due ctx behave with
    | some move =>
      obtain ⟨live, hstep⟩ := executor.due_enabled haccepted hpanic hsmall hlive hdue
      have hdraws : move ≠ .draw := executor.due_moves hdue
      obtain ⟨next, hnext⟩ := live_enabled h hphase hnone hdraws hstep
      cases move with
      | draw => exact absurd rfl hdraws
      | _ => exact ⟨_, next, rfl, hnext⟩
    | none =>
      obtain ⟨hbetween, hrunning⟩ := executor.due_none hdue
      refine ⟨.finish false, ⟨r.live.draw, .finishing r.session.pipeline.next_seq,
        r.session.pipeline.write (loop_completed ctx r.live.loop false)⟩, rfl, ?_⟩
      simp only [recorded_step, hbetween, hrunning, writing_none hnone, session_step, hphase]
      rfl
  | finishing number =>
    rw [RecordedRun.next_party, hphase]
    have hheld := (h.handled (by rw [hphase]; rfl)).1
    refine ⟨.shutdown, ⟨r.live, .finished number, { r.session.pipeline with shutdown := .sent }⟩, rfl, ?_⟩
    simp only [recorded_step, session_step, hphase, hnone, pipeline_step, hheld, oneshot.send]
    rfl
  | finished number =>
    rw [RecordedRun.next_party, hphase]
    exact proceed_enabled (hloop (by rw [hphase]; rfl))
  | dropped completed =>
    rw [RecordedRun.next_party, hphase]
    dsimp only
    split
    · rename_i hheld
      refine ⟨.drop_handle, ⟨r.live, .dropped completed, { r.session.pipeline with shutdown := .dropped }⟩, rfl, ?_⟩
      simp only [recorded_step, session_step, hphase, pipeline_step, hheld, oneshot.drop]
      rfl
    · exact proceed_enabled (hloop (by rw [hphase]; rfl))

/-- Until the end the helpful party can act. -/
theorem helpful_enabled (haccepted : Accepted ctx) (hpanic : ∀ task, (behave task).NoPanic)
    (hsmall : SmallOutputs ctx behave) (h : Workable p r) {moves : List Move} (hlive : LiveRun ctx behave 2 moves r.live)
    (hstarts : r.session.phase = .starting → p.config.starts = true) (hrest : ¬ Rested r) :
    transition.Enabled (recorded_step p ctx behave) RecordedAction.party r (r.helpful ctx behave) := by
  unfold RecordedRun.helpful
  split
  · rename_i hfirst
    rw [Bool.or_eq_true, List.isEmpty_iff] at hfirst
    rcases hfirst with hstarting | hnone
    · have hphase := Phase.eq_starting hstarting
      rw [RecordedRun.next_party, hphase]
      exact started_enabled h hphase (hstarts hphase)
    · exact next_party_enabled haccepted hpanic hsmall h hlive hstarts hnone hrest
  · rename_i hfirst
    rw [Bool.or_eq_true, List.isEmpty_iff, not_or] at hfirst
    split
    · rename_i hroom
      refine send_enabled h ?_ hfirst.2 hroom
      intro hphase
      exact hfirst.1 (by rw [hphase]; rfl)
    · rename_i hfull
      have hover : r.session.pipeline.pc.over = false := by
        simp only [PipelineState.has_room, Bool.or_eq_true, not_or, Bool.not_eq_true] at hfull
        exact hfull.1
      exact proceed_enabled hover

end Enabled

section Nearer

theorem nearer_of_stage (h : next.stage < r.stage) : next.distance ctx behave < r.distance ctx behave :=
  Prod.Lex.toLex_lt_toLex.mpr (.inl h)

theorem nearer_of_live (hstage : next.stage = r.stage) (h : next.live.distance ctx behave < r.live.distance ctx behave) :
    next.distance ctx behave < r.distance ctx behave :=
  Prod.Lex.toLex_lt_toLex.mpr (.inr ⟨hstage, Prod.Lex.toLex_lt_toLex.mpr (.inl h)⟩)

theorem nearer_of_waiting (hstage : next.stage = r.stage) (hlive : next.live = r.live)
    (h : next.session.pipeline.waiting.length < r.session.pipeline.waiting.length) :
    next.distance ctx behave < r.distance ctx behave := by
  refine Prod.Lex.toLex_lt_toLex.mpr (.inr ⟨hstage, Prod.Lex.toLex_lt_toLex.mpr (.inr ⟨by rw [hlive], ?_⟩)⟩)
  exact Prod.Lex.toLex_lt_toLex.mpr (.inl h)

theorem nearer_of_flush (hstage : next.stage = r.stage) (hlive : next.live = r.live)
    (hwaiting : next.session.pipeline.waiting = r.session.pipeline.waiting) (h : next.flush_distance < r.flush_distance) :
    next.distance ctx behave < r.distance ctx behave := by
  refine Prod.Lex.toLex_lt_toLex.mpr (.inr ⟨hstage, Prod.Lex.toLex_lt_toLex.mpr (.inr ⟨by rw [hlive], ?_⟩)⟩)
  exact Prod.Lex.toLex_lt_toLex.mpr (.inr ⟨by rw [hwaiting], h⟩)

/-- Nothing has changed of what tells who can act. -/
structure SameHelp (r next : RecordedRun) : Prop where
  live : next.live = r.live
  phase : next.session.phase = r.session.phase
  shutdown : next.session.pipeline.shutdown = r.session.pipeline.shutdown
  waiting : next.session.pipeline.waiting = r.session.pipeline.waiting
  room : r.session.pipeline.waiting ≠ [] → next.session.pipeline.has_room = r.session.pipeline.has_room

theorem SameHelp.stage (h : SameHelp r next) : next.stage = r.stage := by
  rw [RecordedRun.stage, h.phase, h.shutdown, RecordedRun.stage]

theorem SameHelp.waits_for_flush (h : SameHelp r next) : next.waits_for_flush = r.waits_for_flush := by
  rw [RecordedRun.waits_for_flush, h.shutdown, h.waiting, RecordedRun.waits_for_flush]
  by_cases hnone : r.session.pipeline.waiting = []
  · rw [hnone]
    rfl
  · rw [h.room hnone]

theorem SameHelp.helpful (h : SameHelp r next) : next.helpful ctx behave = r.helpful ctx behave := by
  have hparty : next.next_party ctx behave = r.next_party ctx behave := by
    rw [RecordedRun.next_party, RecordedRun.next_party, h.phase, h.live, h.shutdown]
  rw [RecordedRun.helpful, h.phase, h.waiting, hparty, RecordedRun.helpful]
  by_cases hnone : r.session.pipeline.waiting = []
  · rw [hnone, List.isEmpty_nil, Bool.or_true]
    rfl
  · rw [h.room hnone]

/-- The end is as near as it was. -/
theorem SameHelp.distance (h : SameHelp r next) (hflush : next.flush_distance = r.flush_distance) :
    next.distance ctx behave = r.distance ctx behave := by
  rw [RecordedRun.distance, h.stage, h.live, h.waiting, hflush, RecordedRun.distance]

/-- The flush loop helps only those who wait for it. -/
theorem helpful_of_unwaited (h : Workable p r) (hwaits : r.waits_for_flush = false) :
    r.helpful ctx behave ≠ .flush_loop := by
  simp only [RecordedRun.waits_for_flush, ne_eq, Bool.or_eq_false_iff, decide_eq_false_iff_not, not_not,
    Bool.and_eq_false_imp, Bool.not_eq_true', Bool.not_eq_false'] at hwaits
  obtain ⟨hheld, hroom⟩ := hwaits
  unfold RecordedRun.helpful
  split
  · unfold RecordedRun.next_party
    split
    · exact fun heq => by cases heq
    · exact fun heq => by cases heq
    · split <;> exact fun heq => by cases heq
    · rename_i number hphase
      exact absurd hheld (h.told number hphase)
    · rw [if_pos hheld]
      exact fun heq => by cases heq
  · rename_i hfirst
    rw [Bool.or_eq_true, not_or, Bool.not_eq_true, Bool.not_eq_true] at hfirst
    rw [if_pos (hroom hfirst.2)]
    exact fun heq => by cases heq

/-- A step of the flush loop brings the end nearer for those who wait for it, and changes nothing for others. -/
theorem proceed_nearer_or_same (h : Workable p r) {elapsed : Bool} {pipeline : PipelineState}
    (hstep : proceed p r.session.pipeline elapsed = some pipeline) (hnext : next = ⟨r.live, r.session.phase, pipeline⟩) :
    next.distance ctx behave < r.distance ctx behave ∨
      r.helpful ctx behave ≠ .flush_loop ∧ SameHelp r next ∧ next.flush_distance = r.flush_distance := by
  subst hnext
  have hshutdown : pipeline.shutdown = r.session.pipeline.shutdown := congrArg Prod.fst (proceed_owners hstep)
  have hwriters := proceed_writers hstep
  simp only [PipelineState.writers, Prod.mk.injEq] at hwriters
  cases hwaits : r.waits_for_flush with
  | true =>
    have hstage : RecordedRun.stage ⟨r.live, r.session.phase, pipeline⟩ = r.stage := by
      rw [RecordedRun.stage, RecordedRun.stage]
      simp only [hshutdown]
    refine .inl (nearer_of_flush hstage rfl hwriters.2.1 ?_)
    have hlooks : r.session.pipeline.shutdown = .held → (r.session.pipeline.channels .critical).queue ≠ [] := by
      -- the channel has no room for the write that waits
      intro hheld hempty
      simp only [RecordedRun.waits_for_flush, hheld, ne_eq, not_true_eq_false, decide_false, Bool.false_or,
        Bool.and_eq_true, PipelineState.has_room, hempty, List.length_nil, h.room, decide_true, Bool.or_true,
        Bool.not_true, Bool.false_eq_true, and_false] at hwaits
    have hless := WithBot.coe_lt_coe.mpr (proceed_nearer h.sound hlooks hstep)
    rw [RecordedRun.flush_distance, RecordedRun.flush_distance, hwaits, if_pos rfl]
    split
    · exact hless
    · exact WithBot.bot_lt_coe _
  | false =>
    have hsame : SameHelp r ⟨r.live, r.session.phase, pipeline⟩ := by
      refine ⟨rfl, rfl, hshutdown, hwriters.2.1, fun hwaiting => ?_⟩
      have hroom : r.session.pipeline.has_room = true := by
        simp only [RecordedRun.waits_for_flush, Bool.or_eq_false_iff, Bool.and_eq_false_imp, Bool.not_eq_true',
          Bool.not_eq_false'] at hwaits
        exact hwaits.2 (by simpa using hwaiting)
      exact (proceed_has_room hstep hroom).trans hroom.symm
    refine .inr ⟨helpful_of_unwaited h hwaits, hsame, ?_⟩
    rw [RecordedRun.flush_distance, RecordedRun.flush_distance, hsame.waits_for_flush, hwaits]
    rfl

/-- A write that waits has returned. -/
theorem send_nearer {pipeline : PipelineState} {index : Nat}
    (hstep : pipeline_step p r.session.pipeline (.send index) = some pipeline)
    (hnext : next = ⟨r.live, r.session.phase, pipeline⟩) : next.distance ctx behave < r.distance ctx behave := by
  have hless : ∀ label, r.session.pipeline.waiting[index]? = some label →
      (r.session.pipeline.waiting.eraseIdx index).length < r.session.pipeline.waiting.length := by
    intro label hlabel
    obtain ⟨hindex, _⟩ := List.getElem?_eq_some_iff.mp hlabel
    rw [List.length_eraseIdx_of_lt hindex]
    omega
  subst hnext
  generalize haction : PipelineAction.send index = action at hstep
  cases pipeline_moves hstep with
  | sends other label ch hlabel | gives_up other label hlabel =>
    cases haction
    exact nearer_of_waiting rfl rfl (hless label hlabel)
  | signals action shutdown hsignal => rcases hsignal with rfl | rfl <;> cases haction
  | _ => cases haction

/-- The handles that are dropped are of no account. -/
theorem drop_senders_same {pipeline : PipelineState} {lane : Lane}
    (hstep : pipeline_step p r.session.pipeline (.drop_senders lane) = some pipeline) :
    SameHelp r ⟨r.live, r.session.phase, pipeline⟩ ∧ pipeline.distance = r.session.pipeline.distance := by
  generalize haction : PipelineAction.drop_senders lane = action at hstep
  cases pipeline_moves hstep with
  | closes other =>
    cases haction
    have hqueue : ∀ at_lane, (Function.update r.session.pipeline.channels lane
        (r.session.pipeline.channels lane).close_senders at_lane).queue = (r.session.pipeline.channels at_lane).queue := by
      intro at_lane
      by_cases hlane : at_lane = lane
      · subst hlane
        rw [Function.update_self, mpsc.Channel.close_senders_queue]
      · rw [Function.update_of_ne hlane]
    refine ⟨⟨rfl, rfl, rfl, rfl, fun _ => ?_⟩, ?_⟩
    · have hcapacity := pipeline_step_capacity hstep .critical
      simp only at hcapacity
      simp only [PipelineState.has_room, hqueue, hcapacity]
    · simp only [PipelineState.distance, PipelineState.backlog, hqueue, PipelineState.open_lanes]
  | signals action shutdown hsignal => rcases hsignal with rfl | rfl <;> cases haction
  | _ => cases haction

/-- A step of the pipeline brings the end nearer, or leaves the same party to do so. -/
theorem Workable.pipeline_nearer (h : Workable p r) {taken : PipelineAction} {pipeline : PipelineState}
    (hkind : of_pipeline taken = true) (hstep : pipeline_step p r.session.pipeline taken = some pipeline)
    (hnext : next = ⟨r.live, r.session.phase, pipeline⟩) :
    next.distance ctx behave < r.distance ctx behave ∨
      RecordedAction.party (.pipeline taken) ≠ some (r.helpful ctx behave) ∧ SameHelp r next ∧
        next.flush_distance = r.flush_distance := by
  cases taken with
  | proceed elapsed =>
    refine (proceed_nearer_or_same h hstep hnext).imp_right fun hsame => ⟨fun heq => ?_, hsame.2⟩
    exact hsame.1 (Option.some.inj heq).symm
  | send index => exact .inl (send_nearer hstep hnext)
  | drop_senders lane =>
    subst hnext
    obtain ⟨hsame, hdistance⟩ := drop_senders_same hstep
    refine .inr ⟨fun heq => (by cases heq), hsame, ?_⟩
    rw [RecordedRun.flush_distance, RecordedRun.flush_distance, hsame.waits_for_flush, hdistance]
  | _ => cases hkind

/-- Everything else that happens to an undisturbed run brings its end nearer. -/
theorem RecordedMove.nearer {moves : List Move}
    (hlive : LiveRun ctx behave 2 moves r.live) (hundisturbed : action.undisturbed = true)
    (hother : ∀ taken, action ≠ .pipeline taken) (hmove : RecordedMove p ctx behave r action next) :
    next.distance ctx behave < r.distance ctx behave := by
  have hmoved : ∀ {move : Move} {live : Live} {pipeline : PipelineState},
      executor.live_step ctx behave r.live move = some live → move ≠ .draw →
      pipeline.shutdown = r.session.pipeline.shutdown →
      RecordedRun.distance ctx behave ⟨live, r.session.phase, pipeline⟩ < r.distance ctx behave := by
    intro move live pipeline hstep hdraws hshutdown
    refine nearer_of_live ?_ (executor.live_step_nearer hlive hstep hdraws)
    simp only [RecordedRun.stage, hshutdown]
  cases hmove with
  | started pipeline hphase hsend => exact nearer_of_stage (by simp [RecordedRun.stage, hphase])
  | writes task event hreturned hphase hstep => exact hmoved hstep (fun heq => by cases heq) rfl
  | joins task state hreturned hphase hstep => exact hmoved hstep (fun heq => by cases heq) rfl
  | records state event rest hreturned hphase hstep => exact hmoved hstep (fun heq => by cases heq) rfl
  | spawns state hphase hstep => exact hmoved hstep (fun heq => by cases heq) rfl
  | finishes cancelled hreturned hphase hbetween => exact nearer_of_stage (by simp [RecordedRun.stage, hphase])
  | shutdown number pipeline hphase hsent hshutdown =>
    refine nearer_of_stage ?_
    simp [RecordedRun.stage, hphase, shutdown_signals hshutdown]
  | drops_handle completed pipeline hphase hdrop =>
    obtain ⟨hheld, hdropped⟩ := drop_handle_signals hdrop
    refine nearer_of_stage ?_
    simp [RecordedRun.stage, hphase, hheld, hdropped]
  | pipeline taken => exact absurd rfl (hother taken)
  | advises | drops => cases hundisturbed

/-- What happens to an undisturbed run brings its end nearer, or leaves the same party to do so. -/
theorem Workable.nearer_or_same (h : Workable p r) {moves : List Move}
    (hlive : LiveRun ctx behave 2 moves r.live) (hundisturbed : action.undisturbed = true)
    (hmove : RecordedMove p ctx behave r action next) :
    next.distance ctx behave < r.distance ctx behave ∨ action.party ≠ some (r.helpful ctx behave) ∧
      next.distance ctx behave = r.distance ctx behave ∧ next.helpful ctx behave = r.helpful ctx behave := by
  by_cases hkind : ∃ taken, action = .pipeline taken
  · obtain ⟨taken, rfl⟩ := hkind
    cases hmove with
    | pipeline _ pipeline hallows hkind hstep =>
      refine (h.pipeline_nearer hkind hstep rfl).imp_right ?_
      rintro ⟨hother, hsame, hflush⟩
      exact ⟨hother, hsame.distance hflush, hsame.helpful⟩
  · exact .inl (hmove.nearer hlive hundisturbed fun taken heq => hkind ⟨taken, heq⟩)

end Nearer

/-- A run that has not been cancelled or dropped ends with the flow. -/
def Completing (r : RecordedRun) : Prop :=
  match r.session.phase with
  | .starting | .live => True
  | .finishing _ | .finished _ => r.live.Over
  | .dropped _ => False

theorem Completing.same_phase (h : Completing r) (hphase : next.session.phase = r.session.phase)
    (hover : r.live.Over → next.live.Over) : Completing next := by
  unfold Completing at *
  rw [hphase]
  split at h
  · trivial
  · trivial
  · exact hover h
  · exact hover h
  · exact h

theorem Completing.step (h : Completing r) (hundisturbed : action.undisturbed = true)
    (hstep : recorded_step p ctx behave r action = some next) : Completing next := by
  cases recorded_moves hstep with
  | started => trivial
  | writes task event hreturned hphase hmove hfind =>
    refine h.same_phase rfl fun hover => ?_
    rw [hover.running] at hfind
    cases hfind
  | joins _ _ _ hphase | records _ _ _ _ hphase | spawns _ hphase =>
    unfold Completing
    simp only [hphase]
  | pipeline => exact h.same_phase rfl fun hover => hover
  | finishes cancelled hreturned hphase hbetween =>
    cases cancelled with
    | true => cases hundisturbed
    | false =>
      simp only [recorded_step] at hstep
      split at hstep
      · rename_i hguard
        simp only [Bool.false_or, Bool.and_eq_true, List.isEmpty_iff] at hguard
        exact ⟨hbetween, hguard.1.2⟩
      · cases hstep
  | shutdown number pipeline hphase =>
    have hover : r.live.Over := by simpa only [Completing, hphase] using h
    exact hover
  | drops_handle completed pipeline hphase =>
    unfold Completing at h
    simp only [hphase] at h
  | advises | drops => cases hundisturbed

/-- At rest a run that was left to itself, and not cancelled or dropped before, has finished. -/
theorem Rested.finished (hrest : Rested next) {more : List RecordedAction}
    (hmore : transition.Run (recorded_step p ctx behave) (fun _ action => action.undisturbed = true) r more next)
    (hphase : r.session.phase = .starting ∨ r.session.phase = .live) :
    (∃ number, next.session.phase = .finished number) ∧ next.live.Over := by
  have hcompleting : Completing next := by
    refine hmore.invariant (P := fun _ r => Completing r) ?_ fun _ _ _ _ _ h hallowed hstep => h.step hallowed hstep
    unfold Completing
    rcases hphase with hphase | hphase <;> rw [hphase] <;> trivial
  have hended := hrest.ended
  unfold Completing at hcompleting
  cases hlast : next.session.phase with
  | finished number =>
    rw [hlast] at hcompleting
    exact ⟨⟨number, rfl⟩, hcompleting⟩
  | dropped completed =>
    rw [hlast] at hcompleting
    exact hcompleting.elim
  | _ =>
    rw [hlast] at hended
    cases hended

/-- Nor does it start again in a run. -/
theorem run_was_starting {allowed : RecordedRun → RecordedAction → Prop} {more : List RecordedAction}
    (hmore : transition.Run (recorded_step p ctx behave) allowed r more next) (hstarting : next.session.phase = .starting) :
    r.session.phase = .starting := by
  refine hmore.invariant (P := fun _ next => next.session.phase = .starting → r.session.phase = .starting) (fun h => h) ?_
    hstarting
  exact fun _ _ _ _ _ hbefore _ hstep hnext => hbefore ((recorded_moves hstep).was_starting hnext)

section Fair

variable {fails : Nat → Bool} {states : ℕ → RecordedRun} {taken : ℕ → Option RecordedAction}

/-- A fair run: from some time on the run is left to itself, and every party that can act does so at some time. -/
abbrev FairExecution (config : ExecutionConfig) (fails : Nat → Bool) (ctx : RunContext) (behave : executor.Task → Behaviour) :
    RecordedRun → (ℕ → RecordedRun) → (ℕ → Option RecordedAction) → Prop :=
  transition.FairRun (recorded_step (session_pipeline config fails) ctx behave)
    (fun _ action => action.undisturbed = true) RecordedAction.party

section Execution

variable (hroom : 0 < config.critical_capacity) {actions : List RecordedAction}
  (hrun : RunOver config fails ctx behave actions r) (hfair : FairExecution config fails ctx behave r states taken)

include hrun hfair in
theorem fair_reached (n : ℕ) : ∃ more, RunOver config fails ctx behave (actions ++ more) (states n) ∧
    transition.Run (recorded_step (session_pipeline config fails) ctx behave)
      (fun _ action => action.undisturbed = true) r more (states n) := by
  obtain ⟨more, hmore⟩ := hfair.reached n
  exact ⟨more, hrun.append (hmore.mono fun _ _ _ => trivial), hmore⟩

include hroom hrun hfair in
/-- In a fair run the party that is helpful helps. -/
theorem fair_helped (haccepted : Accepted ctx) (hpanic : ∀ task, (behave task).NoPanic)
    (hsmall : SmallOutputs ctx behave) (hstarts : r.session.phase = .starting → config.pipeline_config.starts = true)
    (n : ℕ) :
    transition.Helped (recorded_step (session_pipeline config fails) ctx behave)
      (fun _ action => action.undisturbed = true) RecordedAction.party (· < ·) (RecordedRun.distance ctx behave)
      (RecordedRun.helpful ctx behave) Rested (states n) := by
  obtain ⟨_, hreached, hmore⟩ := fair_reached hrun hfair n
  obtain ⟨hworkable, moves, hlive⟩ := run_workable hroom hreached
  constructor
  · exact fun hrest => helpful_enabled haccepted hpanic hsmall hworkable hlive
      (fun hstarting => hstarts (run_was_starting hmore hstarting)) hrest
  · exact fun _ action next hundisturbed hstep =>
      hworkable.nearer_or_same hlive hundisturbed (recorded_moves hstep)

end Execution

/-- Whatever the store does and whatever has happened so far, a run that is left to itself comes to
rest: the flush loop ends and no write waits for ever. If it has not been cancelled or dropped by
then, all its tasks have been joined and its session has finished. Only a session that has still to
start needs a flush loop that can. -/
theorem fair_run_rests (haccepted : Accepted ctx) (hpanic : ∀ task, (behave task).NoPanic)
    (hsmall : SmallOutputs ctx behave) (hroom : 0 < config.critical_capacity)
    (hstarts : r.session.phase = .starting → config.pipeline_config.starts = true) {actions : List RecordedAction}
    (hrun : RunOver config fails ctx behave actions r) (hfair : FairExecution config fails ctx behave r states taken) :
    ∃ n, Rested (states n) ∧ (r.session.phase = .starting ∨ r.session.phase = .live →
      (∃ number, (states n).session.phase = .finished number) ∧ (states n).live.Over) := by
  obtain ⟨n, hrest⟩ := hfair.reaches wellFounded_lt _ _ (fair_helped hroom hrun hfair haccepted hpanic hsmall hstarts)
  obtain ⟨_, hmore⟩ := hfair.reached n
  exact ⟨n, hrest, hrest.finished hmore⟩

end Fair

/-- At rest nothing more happens to a run that has finished. -/
theorem Rested.still (h : Rested r) (hover : r.live.Over) {number : Nat} (hphase : r.session.phase = .finished number)
    (party : Party) : ¬ transition.Enabled (recorded_step p ctx behave) RecordedAction.party r party := by
  rintro ⟨action, next, hparty, hstep⟩
  cases recorded_moves hstep with
  | writes task event hreturned hother hmove hfind =>
    rw [hover.running] at hfind
    cases hfind
  | pipeline action pipeline hallows hkind htaken =>
    cases action with
    | proceed elapsed =>
      have hended := h.loop_over
      simp only [pipeline_step] at htaken
      cases hpc : r.session.pipeline.pc <;> simp [proceed, hpc, Pc.over] at htaken hended
    | send index => simp [pipeline_step, PipelineState.send, h.returned] at htaken
    | drop_senders lane => cases hparty
    | _ => cases hkind
  | advises | drops => cases hparty
  | started _ hother | joins _ _ _ hother | records _ _ _ _ hother | spawns _ hother | finishes _ _ hother
  | shutdown _ _ hother | drops_handle _ _ hother =>
    rw [hphase] at hother
    cases hother

/-- A finished run is at rest. -/
theorem finished_rests (haccepted : Accepted ctx) {actions : List RecordedAction}
    (hrun : RecordedExecution config ctx behave actions r) {number : Nat} (hfinished : Finished r number) : Rested r := by
  obtain ⟨_, hkept⟩ := run_kept haccepted hrun hfinished.lives
  refine ⟨?_, ?_, (hkept.quiet number hfinished.phase hfinished.quiet).1⟩
  · rw [hfinished.phase]
    rfl
  · rw [hfinished.returned]
    rfl

open executor (partial_failure_sample partial_failure_behaviour)

theorem partial_failure_small : SmallOutputs partial_failure_sample partial_failure_behaviour := by
  intro task attempt outputs houtputs edge _ _ items hitems
  unfold partial_failure_behaviour at houtputs
  simp only at houtputs
  split at houtputs
  · cases houtputs
    cases hitems
    decide
  · split at houtputs
    · cases houtputs
    · cases houtputs
      cases hitems

/-- The sample run comes to its end and rests. -/
theorem partial_failure_fair : ∃ states taken,
    FairExecution partial_failure_config (fun _ => false) partial_failure_sample partial_failure_behaviour
      (recorded_start (session_pipeline partial_failure_config fun _ => false) partial_failure_config partial_failure_sample)
      states taken := by
  obtain ⟨r, hrun, hfinished, _⟩ := partial_failure_recorded
  have hundisturbed : ∀ action ∈ partial_failure_actions, action.undisturbed = true := by decide
  have hpermitted : transition.Run (recorded_step (session_pipeline partial_failure_config fun _ => false)
      partial_failure_sample partial_failure_behaviour) (fun _ action => action.undisturbed = true) _ _ r :=
    transition.run_of_foldlM_allowed hrun.foldlM_eq fun action hmem _ => hundisturbed action hmem
  have hrest := finished_rests partial_failure_accepted hrun hfinished
  obtain ⟨states, taken, hfair, _⟩ := hpermitted.rests (hrest.still hfinished.quiet hfinished.phase)
  exact ⟨states, taken, hfair⟩

theorem fair_run_rests_sample : ∃ states taken,
    FairExecution partial_failure_config (fun _ => false) partial_failure_sample partial_failure_behaviour
      (recorded_start (session_pipeline partial_failure_config fun _ => false) partial_failure_config partial_failure_sample)
      states taken ∧
    ∃ n, Rested (states n) ∧ (∃ number, (states n).session.phase = .finished number) ∧ (states n).live.Over := by
  obtain ⟨states, taken, hfair⟩ := partial_failure_fair
  obtain ⟨n, hlast, hends⟩ := fair_run_rests partial_failure_accepted executor.partial_failure_no_panic
    partial_failure_small (by decide) (fun _ => rfl)
    (transition.Run.nil : RunOver partial_failure_config (fun _ => false) partial_failure_sample partial_failure_behaviour []
      (recorded_start (session_pipeline partial_failure_config fun _ => false) partial_failure_config
        partial_failure_sample)) hfair
  exact ⟨states, taken, hfair, n, hlast, hends (Or.inl rfl)⟩

end flow_engine.runtime
