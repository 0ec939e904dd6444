import FlowEngine.Executor.Summary
import FlowEngine.Executor.Tasks.Records
import FlowEngine.Runtime.Life

namespace flow_engine.runtime

open write_pipeline
open executor (RunContext Behaviour Live LiveRun Move TaskId live_step)

/-- A run of the executor and the session it records itself in. -/
structure RecordedRun where
  live : Live
  session : ExecutionSession

/-- The loop wrote the entry. -/
def by_loop (entry : executor.Entry) : Bool :=
  match entry.writer with
  | .loop _ => true
  | .task _ => false

/-- A writer that the predicate tells is inside a `write` that has not returned. -/
def RecordedRun.writing (r : RecordedRun) (wrote : executor.Entry → Bool) : Bool :=
  r.session.pipeline.waiting.any fun label => r.live.log.any fun entry => entry.seq = label.1 && wrote entry

def Phase.is_live : Phase → Bool
  | .live => true
  | _ => false

/-- A move that has to wait: a task writes one event after the other, and the loop, which runs until
the session ends, joins a task whose writes have returned once its own have. -/
def RecordedRun.blocked (r : RecordedRun) : Move → Bool
  | .write id => r.writing (executor.by_task id)
  | .join id => !r.session.phase.is_live || r.writing by_loop || r.writing (executor.by_task id)
  | .record | .spawn => !r.session.phase.is_live || r.writing by_loop
  | .draw => true

/-- What can happen in a recorded run. `advise` writes through the advisory channel, `pipeline` is
a step of the flush loop, the end of a `write` that waits, or the end of the handles. -/
inductive RecordedAction where
  | started
  | live (move : Move)
  | advise (event : WriteEvent)
  | pipeline (action : PipelineAction)
  | finish (cancelled : Bool)
  | shutdown
  | drop
  | drop_handle

/-- An action that is none of the executor's. -/
def of_pipeline : PipelineAction → Bool
  | .proceed _ | .send _ | .drop_senders _ => true
  | _ => false

/-- What the loop finishes the session with. -/
def loop_completed (ctx : RunContext) (loop : executor.RunState) (cancelled : Bool) : WriteEvent :=
  run_completed ctx.run_id (executor.final_status ctx loop cancelled) (executor.run_summary loop.llm_records)

/-- One action. What a move of the executor adds to its log it hands to the write handle, whose
counter the executor's numbers are those of. -/
def recorded_step (p : WritePipeline) (ctx : RunContext) (behave : executor.Task → Behaviour) (r : RecordedRun) :
    RecordedAction → Option RecordedRun
  | .started => (session_step p ctx.run_id r.session .started).map fun session => { r with session }
  | .live move =>
    if r.blocked move then none
    else
      match live_step ctx behave r.live move with
      | none => none
      | some live =>
        match live.log.drop r.live.log.length with
        | [] => some { r with live }
        | entry :: _ => (session_step p ctx.run_id r.session (.task (.write entry.event))).map fun session => ⟨live, session⟩
  | .advise event =>
    if event.is_critical then none
    else (session_step p ctx.run_id r.session (.task (.try_write event))).map fun session => ⟨r.live.draw, session⟩
  | .pipeline action =>
    if of_pipeline action then (session_step p ctx.run_id r.session (.task action)).map fun session => { r with session }
    else none
  | .finish cancelled =>
    if r.live.iteration.isNone && (cancelled || r.live.loop.running.isEmpty) && !r.writing by_loop then
      (session_step p ctx.run_id r.session (.finish (executor.final_status ctx r.live.loop cancelled)
        (executor.run_summary r.live.loop.llm_records))).map fun session => ⟨r.live.draw, session⟩
    else none
  | .shutdown => (session_step p ctx.run_id r.session .shutdown).map fun session => { r with session }
  | .drop =>
    if r.writing by_loop then none
    else (session_step p ctx.run_id r.session .drop).map fun session => ⟨r.live.draw, session⟩
  | .drop_handle => (session_step p ctx.run_id r.session .drop_handle).map fun session => { r with session }

/-- A run that is about to record its start, under the first number. -/
def recorded_start (p : WritePipeline) (config : ExecutionConfig) (ctx : RunContext) : RecordedRun :=
  ⟨executor.initial_live ctx 2, .start p config ctx.run_id⟩

/-- The recorded runs over a store that works. -/
abbrev RecordedExecution (config : ExecutionConfig) (ctx : RunContext) (behave : executor.Task → Behaviour) :
    List RecordedAction → RecordedRun → Prop :=
  transition.Run (recorded_step (session_pipeline config fun _ => false) ctx behave) (fun _ _ => True)
    (recorded_start (session_pipeline config fun _ => false) config ctx)

/-- What an action does. -/
inductive RecordedMove (p : WritePipeline) (ctx : RunContext) (behave : executor.Task → Behaviour) (r : RecordedRun) :
    RecordedAction → RecordedRun → Prop where
  | started (pipeline : PipelineState) (hphase : r.session.phase = .starting)
      (hsend : r.session.pipeline.send 0 = some (pipeline, .ok ())) :
      RecordedMove p ctx behave r .started ⟨r.live, .live, pipeline⟩
  | writes (task : executor.Task) (event : WriteEvent)
      (hreturned : r.writing (executor.by_task task.id) = false) (hphase : r.session.phase ≠ .starting)
      (hstep : live_step ctx behave r.live (.write task.id) = some (r.live.write task event))
      (hfind : r.live.loop.running.find? (fun other => other.id = task.id) = some task)
      (hevent : (executor.script ctx behave task).1[r.live.written task.id]? = some event)
      (hsenders : (r.session.pipeline.channels .critical).senders = true) :
      RecordedMove p ctx behave r (.live (.write task.id))
        ⟨r.live.write task event, r.session.phase, r.session.pipeline.write event⟩
  | joins (task : executor.Task) (next : executor.RunState)
      (hreturned : r.writing (executor.by_task task.id) = false) (hphase : r.session.phase = .live)
      (hstep : live_step ctx behave r.live (.join task.id) =
        some (r.live.join task (executor.script ctx behave task).2 next)) :
      RecordedMove p ctx behave r (.live (.join task.id))
        { r with live := r.live.join task (executor.script ctx behave task).2 next }
  | records (next : executor.RunState) (event : WriteEvent) (rest : List WriteEvent)
      (hreturned : r.writing by_loop = false) (hphase : r.session.phase = .live)
      (hstep : live_step ctx behave r.live .record = some (r.live.record next event rest))
      (hwithin : r.live.iteration = some ⟨next, event :: rest⟩)
      (hsenders : (r.session.pipeline.channels .critical).senders = true) :
      RecordedMove p ctx behave r (.live .record)
        ⟨r.live.record next event rest, r.session.phase, r.session.pipeline.write event⟩
  | spawns (next : executor.RunState) (hphase : r.session.phase = .live)
      (hstep : live_step ctx behave r.live .spawn = some (r.live.spawn next)) :
      RecordedMove p ctx behave r (.live .spawn) { r with live := r.live.spawn next }
  | advises (event : WriteEvent) (pipeline : PipelineState) (hadvisory : event.is_critical = false)
      (hphase : r.session.phase ≠ .starting)
      (htry : pipeline_step p r.session.pipeline (.try_write event) = some pipeline) :
      RecordedMove p ctx behave r (.advise event) ⟨r.live.draw, r.session.phase, pipeline⟩
  | pipeline (action : PipelineAction) (pipeline : PipelineState) (hallows : r.session.allows action = true)
      (hkind : of_pipeline action = true) (hstep : pipeline_step p r.session.pipeline action = some pipeline) :
      RecordedMove p ctx behave r (.pipeline action) ⟨r.live, r.session.phase, pipeline⟩
  | finishes (cancelled : Bool) (hreturned : r.writing by_loop = false) (hphase : r.session.phase = .live)
      (hbetween : r.live.iteration = none) :
      RecordedMove p ctx behave r (.finish cancelled)
        ⟨r.live.draw, .finishing r.session.pipeline.next_seq,
          r.session.pipeline.write (loop_completed ctx r.live.loop cancelled)⟩
  | shutdown (number : Nat) (pipeline : PipelineState) (hphase : r.session.phase = .finishing number)
      (hsent : (r.session.pipeline.waiting.any fun label => label.1 = number) = false)
      (hshutdown : pipeline_step p r.session.pipeline .shutdown = some pipeline) :
      RecordedMove p ctx behave r .shutdown ⟨r.live, .finished number, pipeline⟩
  | drops (completed : Option Nat) (hphase : r.session.phase = .live) :
      RecordedMove p ctx behave r .drop
        ⟨r.live.draw, .dropped completed, (r.session.pipeline.try_write (run_completed ctx.run_id .Failed none)).1⟩
  | drops_handle (completed : Option Nat) (pipeline : PipelineState) (hphase : r.session.phase = .dropped completed)
      (hdrop : pipeline_step p r.session.pipeline .drop_handle = some pipeline) :
      RecordedMove p ctx behave r .drop_handle ⟨r.live, .dropped completed, pipeline⟩

variable {p : WritePipeline} {ctx : RunContext} {behave : executor.Task → Behaviour} {r next : RecordedRun}

theorem Phase.eq_live {phase : Phase} (h : phase.is_live = true) : phase = .live := by
  cases phase with
  | live => rfl
  | _ => cases h

theorem task_moves {action : PipelineAction} {session : ExecutionSession} {run_id : String}
    (h : session_step p run_id r.session (.task action) = some session) :
    ∃ pipeline, r.session.allows action = true ∧ pipeline_step p r.session.pipeline action = some pipeline ∧
      session = ⟨r.session.phase, pipeline⟩ := by
  generalize haction : SessionAction.task action = taken at h
  cases session_moves h with
  | task action pipeline hallows htask =>
    cases haction
    exact ⟨pipeline, hallows, htask, rfl⟩
  | _ => cases haction

theorem write_moves {event : WriteEvent} {session : ExecutionSession} {run_id : String}
    (h : session_step p run_id r.session (.task (.write event)) = some session) :
    r.session.phase ≠ .starting ∧ (r.session.pipeline.channels .critical).senders = true ∧
      session = ⟨r.session.phase, r.session.pipeline.write event⟩ := by
  obtain ⟨pipeline, hallows, hstep, rfl⟩ := task_moves h
  simp only [pipeline_step] at hstep
  split at hstep
  · rename_i hsenders
    cases hstep
    refine ⟨?_, hsenders, rfl⟩
    intro hphase
    rw [ExecutionSession.allows, hphase] at hallows
    cases hallows
  · cases hstep

theorem live_moves {move : Move} (h : recorded_step p ctx behave r (.live move) = some next) :
    RecordedMove p ctx behave r (.live move) next := by
  simp only [recorded_step] at h
  split at h
  · cases h
  rename_i hblocked
  split at h
  · cases h
  rename_i live hlive
  have hstep := hlive
  cases move with
  | write id =>
    simp only [RecordedRun.blocked, Bool.not_eq_true] at hblocked
    simp only [live_step] at hlive
    split at hlive
    · cases hlive
    rename_i task hfind
    have hid : task.id = id := by simpa using List.find?_some hfind
    subst hid
    split at hlive
    · cases hlive
    rename_i event hevent
    cases hlive
    rw [Live.write, List.drop_left] at h
    obtain ⟨session, hsession, rfl⟩ := Option.map_eq_some_iff.mp h
    obtain ⟨hphase, hsenders, rfl⟩ := write_moves hsession
    exact .writes task event hblocked hphase hstep hfind hevent hsenders
  | join id =>
    simp only [RecordedRun.blocked, Bool.not_eq_true, Bool.or_eq_false_iff, Bool.not_eq_false'] at hblocked
    simp only [live_step] at hlive
    split at hlive
    · rename_i task hbetween hfind
      have hid : task.id = id := by simpa using List.find?_some hfind
      subst hid
      split at hlive
      · rename_i hwritten
        obtain ⟨state, hstate, rfl⟩ := Option.map_eq_some_iff.mp hlive
        rw [Live.join, List.drop_length] at h
        cases h
        exact .joins task state hblocked.2 (Phase.eq_live hblocked.1.1) hstep
      · cases hlive
    · cases hlive
  | record =>
    simp only [RecordedRun.blocked, Bool.not_eq_true, Bool.or_eq_false_iff, Bool.not_eq_false'] at hblocked
    simp only [live_step] at hlive
    split at hlive
    · rename_i state event rest hwithin
      cases hlive
      rw [Live.record, List.drop_left] at h
      obtain ⟨session, hsession, rfl⟩ := Option.map_eq_some_iff.mp h
      obtain ⟨_, hsenders, rfl⟩ := write_moves hsession
      exact .records state event rest hblocked.2 (Phase.eq_live hblocked.1) hstep hwithin hsenders
    · cases hlive
  | spawn =>
    simp only [RecordedRun.blocked, Bool.not_eq_true, Bool.or_eq_false_iff, Bool.not_eq_false'] at hblocked
    simp only [live_step] at hlive
    split at hlive
    · rename_i state _
      cases hlive
      rw [Live.spawn, List.drop_length] at h
      cases h
      exact .spawns state (Phase.eq_live hblocked.1) hstep
    · cases hlive
  | draw => exact absurd rfl hblocked

/-- An action of a recorded run is one of its moves. -/
theorem recorded_moves {action : RecordedAction} (h : recorded_step p ctx behave r action = some next) :
    RecordedMove p ctx behave r action next := by
  cases action with
  | live move => exact live_moves h
  | started =>
    obtain ⟨session, hsession, rfl⟩ := Option.map_eq_some_iff.mp h
    cases session_moves hsession with
    | started pipeline hphase hsend => exact .started pipeline hphase hsend
  | advise event =>
    simp only [recorded_step] at h
    split at h
    · cases h
    rename_i hadvisory
    obtain ⟨session, hsession, rfl⟩ := Option.map_eq_some_iff.mp h
    obtain ⟨pipeline, hallows, htry, rfl⟩ := task_moves hsession
    refine .advises event pipeline (by simpa using hadvisory) ?_ htry
    intro hphase
    rw [ExecutionSession.allows, hphase] at hallows
    cases hallows
  | pipeline action =>
    simp only [recorded_step] at h
    split at h
    · rename_i hkind
      obtain ⟨session, hsession, rfl⟩ := Option.map_eq_some_iff.mp h
      obtain ⟨pipeline, hallows, hstep, rfl⟩ := task_moves hsession
      exact .pipeline action pipeline hallows hkind hstep
    · cases h
  | finish cancelled =>
    simp only [recorded_step] at h
    split at h
    · rename_i hguard
      simp only [Bool.and_eq_true, Option.isNone_iff_eq_none, Bool.not_eq_true'] at hguard
      obtain ⟨session, hsession, rfl⟩ := Option.map_eq_some_iff.mp h
      cases session_moves hsession with
      | finish status llm_summary hphase => exact .finishes cancelled hguard.2 hphase hguard.1.1
    · cases h
  | shutdown =>
    obtain ⟨session, hsession, rfl⟩ := Option.map_eq_some_iff.mp h
    cases session_moves hsession with
    | shutdown number pipeline hphase hsent hshutdown => exact .shutdown number pipeline hphase hsent hshutdown
  | drop =>
    simp only [recorded_step] at h
    split at h
    · cases h
    obtain ⟨session, hsession, rfl⟩ := Option.map_eq_some_iff.mp h
    cases session_moves hsession with
    | drop hphase => exact .drops _ hphase
  | drop_handle =>
    obtain ⟨session, hsession, rfl⟩ := Option.map_eq_some_iff.mp h
    cases session_moves hsession with
    | drop_handle completed pipeline hphase hdrop => exact .drops_handle completed pipeline hphase hdrop

end flow_engine.runtime
