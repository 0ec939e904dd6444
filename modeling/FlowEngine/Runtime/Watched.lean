import FlowEngine.Lib.Fleet
import FlowEngine.Lib.Interleaving
import FlowEngine.Runtime.Persisted

namespace flow_engine.runtime

open write_pipeline
open broadcast (Channel Told Fleet FleetAction fleet_step)
open executor (RunContext Behaviour Live TaskId script by_task)

/-- Who broadcasts an event: a task, or the loop through its session. -/
inductive Speaker where
  | task (id : TaskId)
  | loop
  deriving DecidableEq

/-- The channel that `ExecutionSession::start` makes, and its receivers. What these make of
the events is their own matter. -/
abbrev EventStream : Type := Fleet Unit Unit WriteEvent Unit

abbrev stream_step : EventStream → FleetAction Unit Unit WriteEvent → Option EventStream :=
  fleet_step 256 (fun _ => ()) fun _ _ => none

/-- An event is sent to the receivers. -/
def heard (stream : EventStream) (event : WriteEvent) : EventStream :=
  (stream_step stream (.publish () event)).getD stream

/-- A recorded run with its live stream: which tasks have broadcast the event that they write next,
and what the loop has written and broadcasts once the write has returned. -/
structure WatchedRun where
  run : RecordedRun
  ready : TaskId → Bool
  owed : Option WriteEvent
  stream : EventStream

/-- What can happen. Between the actions of the run a task broadcasts the event it is about to
write, the loop broadcasts the one it has written, and receivers come, receive and go. -/
inductive WatchedAction where
  | run (action : RecordedAction)
  | announce (id : TaskId)
  | broadcast
  | subscribe
  | receive (index : Nat)
  | stop (index : Nat)

/-- The event that a task is about to write when its last write has returned. -/
def RecordedRun.upcoming (ctx : RunContext) (behave : executor.Task → Behaviour) (r : RecordedRun) (id : TaskId) :
    Option WriteEvent :=
  match r.session.phase with
  | .starting => none
  | _ =>
    if r.writing (by_task id) then none
    else (r.live.loop.running.find? fun task => task.id = id).bind fun task => (script ctx behave task).1[r.live.written id]?

/-- A write of the session that has not returned: one of the loop, or the last one. -/
def RecordedRun.session_writing (r : RecordedRun) : Bool :=
  r.writing by_loop || match r.session.phase with
    | .finishing number => r.session.pipeline.waiting.any fun label => label.1 = number
    | _ => false

/-- The end of the write in that place is an error that the session returns before it broadcasts.
What `finish` writes it broadcasts in any case. -/
def RecordedRun.refused (r : RecordedRun) (index : Nat) : Bool :=
  r.session.phase.is_live && match r.session.pipeline.send index with
    | some (_, .error _) => (r.session.pipeline.waiting[index]?).any fun label =>
        r.live.log.any fun entry => entry.seq = label.1 && by_loop entry
    | _ => false

/-- An action that has to wait: the write of a task for its broadcast, and what the loop does next for its own. -/
def WatchedRun.awaits (s : WatchedRun) : RecordedAction → Bool
  | .live (.write id) => !s.ready id
  | .live _ | .finish _ | .shutdown | .drop => s.owed.isSome
  | .advise _ => s.owed.isSome || !s.run.session.phase.is_live
  | .started | .pipeline _ | .drop_handle => false

/-- What the loop has to broadcast after an action. -/
def WatchedRun.owes (ctx : RunContext) (s : WatchedRun) : RecordedAction → Option WriteEvent
  | .live .record =>
    match s.run.live.iteration with
    | some ⟨_, event :: _⟩ => some event
    | _ => none
  | .advise event =>
    match (s.run.session.pipeline.try_write event).2 with
    | .ok _ => some event
    | .error _ => none
  | .finish cancelled => some (loop_completed ctx s.run.live.loop cancelled)
  | .pipeline (.send index) => if s.run.refused index then none else s.owed
  | _ => s.owed

variable (config : ExecutionConfig) (ctx : RunContext) (behave : executor.Task → Behaviour)

/-- What an action of the run leaves. The session broadcasts its start before it is there for others. -/
def WatchedRun.acted (s : WatchedRun) (action : RecordedAction) (next : RecordedRun) : WatchedRun where
  run := next
  ready := match action with
    | .live (.write id) => Function.update s.ready id false
    | _ => s.ready
  owed := s.owes ctx action
  stream := match action with
    | .started => heard s.stream (run_started config ctx.run_id)
    | _ => s.stream

def watched_step (p : WritePipeline) (s : WatchedRun) : WatchedAction → Option WatchedRun
  | .run action =>
    if s.awaits action then none
    else (recorded_step p ctx behave s.run action).map (s.acted config ctx action)
  | .announce id =>
    if s.ready id then none
    else (s.run.upcoming ctx behave id).map fun event =>
      { s with ready := Function.update s.ready id true, stream := heard s.stream event }
  | .broadcast =>
    if s.run.session_writing then none
    else s.owed.map fun event => { s with owed := none, stream := heard s.stream event }
  | .subscribe => (stream_step s.stream (.subscribe ())).map fun stream => { s with stream }
  | .receive index => (stream_step s.stream (.receive index)).map fun stream => { s with stream }
  | .stop index => (stream_step s.stream (.stop index)).map fun stream => { s with stream }

def new_channel : Channel WriteEvent := .new 256

/-- A stream that nobody receives yet. -/
def new_stream : EventStream := ⟨fun _ => some new_channel, []⟩

/-- A run that is about to record its start, with the receiver of the session's handle. -/
def watched_start (p : WritePipeline) : WatchedRun :=
  ⟨recorded_start p config ctx, fun _ => false, none, ⟨fun _ => some new_channel, [((), .subscribe new_channel)]⟩⟩

/-- The watched runs over a store that works. -/
abbrev WatchedExecution : List WatchedAction → WatchedRun → Prop :=
  transition.Run (watched_step config ctx behave (session_pipeline config fun _ => false)) (fun _ _ => True)
    (watched_start config ctx (session_pipeline config fun _ => false))

/-- What is broadcast by an action, and by whom. -/
def announced_at (s : WatchedRun) : WatchedAction → Option (Speaker × WriteEvent)
  | .run .started => some (.loop, run_started config ctx.run_id)
  | .announce id => (s.run.upcoming ctx behave id).map fun event => (.task id, event)
  | .broadcast => s.owed.map fun event => (.loop, event)
  | _ => none

/-- What is broadcast while a receiver is there. -/
def offered_at (index : Nat) (s : WatchedRun) (action : WatchedAction) : Option WriteEvent :=
  if index < s.stream.readers.length then (announced_at config ctx behave s action).map Prod.snd else none

/-- What a receiver is told. -/
def received_at (index : Nat) (s : WatchedRun) : WatchedAction → Option (Told WriteEvent)
  | .receive i =>
    if i = index then
      (s.stream.readers[i]?.bind fun r => (s.stream.channels ()).bind fun ch => ch.recv r.2.next).map Prod.fst
    else none
  | _ => none

/-- What a run has broadcast, in order. -/
abbrev announced : List WatchedAction → List (Speaker × WriteEvent) :=
  transition.trace (watched_step config ctx behave (session_pipeline config fun _ => false)) (announced_at config ctx behave)
    (watched_start config ctx (session_pipeline config fun _ => false))

abbrev offered (index : Nat) : List WatchedAction → List WriteEvent :=
  transition.trace (watched_step config ctx behave (session_pipeline config fun _ => false))
    (offered_at config ctx behave index) (watched_start config ctx (session_pipeline config fun _ => false))

abbrev received (index : Nat) : List WatchedAction → List (Told WriteEvent) :=
  transition.trace (watched_step config ctx behave (session_pipeline config fun _ => false)) (received_at index)
    (watched_start config ctx (session_pipeline config fun _ => false))

/-- What an action is to the stream. -/
def stream_action (s : WatchedRun) : WatchedAction → Option (FleetAction Unit Unit WriteEvent)
  | .subscribe => some (.subscribe ())
  | .receive index => some (.receive index)
  | .stop index => some (.stop index)
  | action => (announced_at config ctx behave s action).map fun said => .publish () said.2

/-- What an action is to the run that is watched. -/
def WatchedAction.recorded : WatchedAction → Option RecordedAction
  | .run action => some action
  | _ => none

/-- The recorded actions of a watched run. -/
def recorded_actions (actions : List WatchedAction) : List RecordedAction := actions.filterMap WatchedAction.recorded

variable {config ctx behave}
variable {p : WritePipeline} {s next : WatchedRun} {action : WatchedAction} {actions : List WatchedAction}

/-- An event can always be sent. -/
theorem stream_step_publish (stream : EventStream) (event : WriteEvent) :
    stream_step stream (.publish () event) = some (heard stream event) := by
  rw [heard, stream_step]
  simp only [fleet_step]
  split
  · rfl
  · split <;> rfl

/-- What an action does. -/
inductive WatchedMove (config : ExecutionConfig) (ctx : RunContext) (behave : executor.Task → Behaviour) (p : WritePipeline)
    (s : WatchedRun) : WatchedAction → WatchedRun → Prop where
  | run {action : RecordedAction} {next : RecordedRun} (hawaits : s.awaits action = false)
      (hstep : recorded_step p ctx behave s.run action = some next) :
      WatchedMove config ctx behave p s (.run action) (s.acted config ctx action next)
  | announce {id : TaskId} {event : WriteEvent} (hready : s.ready id = false)
      (hupcoming : s.run.upcoming ctx behave id = some event) :
      WatchedMove config ctx behave p s (.announce id)
        { s with ready := Function.update s.ready id true, stream := heard s.stream event }
  | broadcast {event : WriteEvent} (hreturned : s.run.session_writing = false) (howed : s.owed = some event) :
      WatchedMove config ctx behave p s .broadcast { s with owed := none, stream := heard s.stream event }
  | watch {action : WatchedAction} {stream : EventStream} {taken : FleetAction Unit Unit WriteEvent}
      (hstep : stream_step s.stream taken = some stream) (htaken : stream_action config ctx behave s action = some taken)
      (hsilent : announced_at config ctx behave s action = none) (hother : recorded_actions [action] = []) :
      WatchedMove config ctx behave p s action { s with stream }

theorem watched_moves (h : watched_step config ctx behave p s action = some next) :
    WatchedMove config ctx behave p s action next := by
  cases action with
  | run action =>
    simp only [watched_step] at h
    split at h
    · cases h
    · rename_i hawaits
      obtain ⟨run, hrun, rfl⟩ := Option.map_eq_some_iff.mp h
      exact .run (by simpa using hawaits) hrun
  | announce id =>
    simp only [watched_step] at h
    split at h
    · cases h
    · rename_i hready
      obtain ⟨event, hupcoming, rfl⟩ := Option.map_eq_some_iff.mp h
      exact .announce (by simpa using hready) hupcoming
  | broadcast =>
    simp only [watched_step] at h
    split at h
    · cases h
    · rename_i hreturned
      obtain ⟨event, howed, rfl⟩ := Option.map_eq_some_iff.mp h
      exact .broadcast (by simpa using hreturned) howed
  | subscribe | receive index | stop index =>
    simp only [watched_step] at h
    obtain ⟨stream, hstep, rfl⟩ := Option.map_eq_some_iff.mp h
    exact .watch hstep rfl rfl rfl

theorem recorded_actions_snoc (actions : List WatchedAction) (action : WatchedAction) :
    recorded_actions (actions ++ [action]) = recorded_actions actions ++ recorded_actions [action] := List.filterMap_append

theorem recorded_projects : transition.Projects (watched_step config ctx behave p) (recorded_step p ctx behave)
    WatchedRun.run fun _ action => action.recorded := by
  constructor
  · intro s next action hstep hnone
    cases watched_moves hstep with
    | run => cases hnone
    | announce | broadcast | watch => rfl
  · intro s next action taken hstep hsome
    cases watched_moves hstep with
    | run hawaits hrun =>
      cases hsome
      exact hrun
    | announce | broadcast => cases hsome
    | watch hstream htaken hsilent hother =>
      cases action with
      | run => cases hother
      | _ => cases hsome

/-- What happens in a watched run is a recorded run of its own. -/
theorem watched_run_recorded {allowed : WatchedRun → WatchedAction → Prop} {allowed' : RecordedRun → RecordedAction → Prop}
    (hallowed : ∀ s action, allowed s (.run action) → allowed' s.run action)
    (hrun : transition.Run (watched_step config ctx behave p) allowed s actions next) :
    transition.Run (recorded_step p ctx behave) allowed' s.run (recorded_actions actions) next.run := by
  rw [recorded_actions, ← hrun.trace_eq_filterMap]
  refine recorded_projects.run (fun s action taken hpermitted hsome => ?_) hrun
  cases action with
  | run action =>
    cases hsome
    exact hallowed s _ hpermitted
  | _ => cases hsome

/-- The run that is watched is a recorded one. -/
theorem watched_recorded (hrun : WatchedExecution config ctx behave actions s) :
    RecordedExecution config ctx behave (recorded_actions actions) s.run :=
  watched_run_recorded (fun _ _ _ => trivial) hrun

theorem stream_projects : transition.Projects (watched_step config ctx behave p) stream_step WatchedRun.stream
    (stream_action config ctx behave) := by
  constructor
  · intro s next action hstep hnone
    cases watched_moves hstep with
    | @run action run hawaits hrun =>
      cases action with
      | started => cases hnone
      | _ => rfl
    | announce hready hupcoming => simp [stream_action, announced_at, hupcoming] at hnone
    | broadcast hreturned howed => simp [stream_action, announced_at, howed] at hnone
    | watch hstream htaken =>
      rw [htaken] at hnone
      cases hnone
  · intro s next action taken hstep hsome
    cases watched_moves hstep with
    | @run action run hawaits hrun =>
      cases action with
      | started =>
        cases hsome
        exact stream_step_publish _ _
      | _ => cases hsome
    | announce hready hupcoming =>
      simp only [stream_action, announced_at, hupcoming, Option.map_some, Option.some.injEq] at hsome
      subst hsome
      exact stream_step_publish _ _
    | broadcast hreturned howed =>
      simp only [stream_action, announced_at, howed, Option.map_some, Option.some.injEq] at hsome
      subst hsome
      exact stream_step_publish _ _
    | watch hstream htaken =>
      rw [htaken] at hsome
      cases hsome
      exact hstream

variable (config ctx behave) in
/-- What the actions of a run are to the stream. -/
abbrev stream_actions (actions : List WatchedAction) : List (FleetAction Unit Unit WriteEvent) :=
  transition.trace (watched_step config ctx behave (session_pipeline config fun _ => false)) (stream_action config ctx behave)
    (watched_start config ctx (session_pipeline config fun _ => false)) actions

/-- The receiver of the handle is the first to subscribe. -/
theorem stream_run (hrun : WatchedExecution config ctx behave actions s) :
    broadcast.FleetRun 256 (fun _ => ()) (fun _ _ => none) new_stream
      (.subscribe () :: stream_actions config ctx behave actions) s.stream := by
  have hfirst : broadcast.FleetRun 256 (fun _ => ()) (fun _ _ => none) new_stream ([] ++ [.subscribe ()])
      (watched_start config ctx (session_pipeline config fun _ => false)).stream := by
    refine transition.Run.nil.snoc trivial ?_
    simp [fleet_step, new_stream, watched_start]
  have hrest : broadcast.FleetRun 256 (fun _ => ()) (fun _ _ => none)
      (watched_start config ctx (session_pipeline config fun _ => false)).stream _ s.stream :=
    stream_projects.run (fun _ _ _ _ _ => trivial) hrun
  exact hfirst.append hrest

theorem stream_fresh : broadcast.Fresh new_stream := by
  refine ⟨rfl, fun k ch hch => ?_⟩
  cases hch
  exact broadcast.Channel.holds_new 256

/-- Nothing is observed of the first subscription. -/
theorem trace_subscribed {Observation : Type} {observe : EventStream → FleetAction Unit Unit WriteEvent → Option Observation}
    (hnone : observe new_stream (.subscribe ()) = none) (taken : List (FleetAction Unit Unit WriteEvent)) :
    transition.trace stream_step observe new_stream (.subscribe () :: taken) =
      transition.trace stream_step observe (watched_start config ctx (session_pipeline config fun _ => false)).stream taken := by
  have hstep : stream_step new_stream (.subscribe ()) =
      some (watched_start config ctx (session_pipeline config fun _ => false)).stream := by
    simp [fleet_step, new_stream, watched_start]
  simp only [transition.trace, hnone, hstep, Option.toList_none, List.nil_append]

section Observed

variable (hrun : WatchedExecution config ctx behave actions s) (index : Nat)
include hrun

theorem offered_eq : offered config ctx behave index actions = broadcast.fleet_published 256 (fun _ => ()) (fun _ _ => none)
    new_stream index (.subscribe () :: stream_actions config ctx behave actions) := by
  refine (stream_projects.trace_eq (fun s action => ?_) hrun).trans (trace_subscribed rfl _).symm
  have hpublished (said : Option (Speaker × WriteEvent)) :
      (if index < s.stream.readers.length then said.map Prod.snd else none) =
        (said.map fun said => FleetAction.publish () said.2).bind
          (broadcast.published_at (fun _ : Unit => ()) index s.stream) := by
    cases said with
    | none => simp
    | some said => by_cases hlength : index < s.stream.readers.length <;> simp [broadcast.published_at, hlength]
  cases action with
  | subscribe | receive i | stop i => simp [offered_at, announced_at, stream_action, broadcast.published_at]
  | run action => exact hpublished _
  | announce id => exact hpublished _
  | broadcast => exact hpublished _

theorem received_eq : received config ctx behave index actions = broadcast.fleet_told 256 (fun _ => ()) (fun _ _ => none)
    new_stream index (.subscribe () :: stream_actions config ctx behave actions) := by
  refine (stream_projects.trace_eq (fun s action => ?_) hrun).trans (trace_subscribed rfl _).symm
  have htold (said : Option (Speaker × WriteEvent)) : none =
      (said.map fun said => FleetAction.publish () said.2).bind
        (broadcast.told_at (fun _ : Unit => ()) index s.stream) := by
    cases said <;> rfl
  cases action with
  | subscribe | receive i | stop i => rfl
  | run action => exact htold _
  | announce id => exact htold _
  | broadcast => exact htold _

omit index in
theorem announced_snoc (action : WatchedAction) : announced config ctx behave (actions ++ [action]) =
    announced config ctx behave actions ++ (announced_at config ctx behave s action).toList :=
  hrun.trace_snoc action

omit index in
theorem handle_receives : 0 < s.stream.readers.length := by
  refine hrun.invariant (P := fun _ s => 0 < s.stream.readers.length) Nat.zero_lt_one ?_
  intro actions s action next run hlength _ hstep
  cases htaken : stream_action config ctx behave s action with
  | none => rwa [stream_projects.still hstep htaken]
  | some taken => exact hlength.trans_le (broadcast.readers_le (stream_projects.moves hstep htaken))

omit index in
/-- The receiver of the handle is offered all that is broadcast. -/
theorem offered_announced : offered config ctx behave 0 actions = (announced config ctx behave actions).map Prod.snd := by
  refine hrun.invariant (P := fun actions s =>
    offered config ctx behave 0 actions = (announced config ctx behave actions).map Prod.snd) rfl ?_
  intro actions s action next run hsame _ hstep
  have hoffered : offered config ctx behave 0 (actions ++ [action]) =
      offered config ctx behave 0 actions ++ (offered_at config ctx behave 0 s action).toList := run.trace_snoc action
  rw [hoffered, announced_snoc run, hsame, offered_at, if_pos (handle_receives run), List.map_append, Option.toList_map]

end Observed

end flow_engine.runtime
