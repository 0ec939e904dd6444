import FlowEngine.Executor.Node
import FlowEngine.Executor.Ledger

namespace flow_engine.executor

/-- How the handler of a task behaves, and the settings of its node. -/
structure Behaviour where
  timeout_ms : Nat
  retry : RetryPolicy
  attempts : Nat → Attempt

/-- The critical events a task writes, in order, and how it ends. -/
def script (ctx : RunContext) (behave : Task → Behaviour) (task : Task) : List WriteEvent × JoinResult :=
  execute_node ctx.run_id task (behave task).timeout_ms (behave task).retry (behave task).attempts

/-- Who writes an event: a task, or the loop in the iteration that starts the named nodes. -/
inductive Writer where
  | task (task : Task)
  | loop (starting : List String)

/-- An event with the number it was given. -/
structure Entry where
  seq : Nat
  writer : Writer
  event : WriteEvent

/-- The event as it is sent. -/
def Entry.numbered (entry : Entry) : WriteEvent := entry.event.set_seq entry.seq

/-- An iteration of the loop under way: the state it ends in, and what it has still to record. -/
structure Iteration where
  next : RunState
  unwritten : List WriteEvent

/-- The loop and the tasks in flight, which write through one shared counter. The tasks
joined so far are a history. -/
structure Live where
  loop : RunState
  iteration : Option Iteration
  written : TaskId → Nat
  seq : Nat
  log : List Entry
  joins : List (Task × JoinResult)

/-- One move of the execution. -/
inductive Move where
  | write (id : TaskId)
  | join (id : TaskId)
  | record
  | spawn
  | draw

/-- The nodes started between two states of the loop. -/
def starting (s next : RunState) : List String :=
  (next.activations.drop s.activations.length).map Activation.node_id

section Moves

variable (x : Live)

/-- A task writes an event, under the next number of the counter. -/
def Live.write (task : Task) (event : WriteEvent) : Live :=
  { x with
    written := Function.update x.written task.id (x.written task.id + 1)
    seq := x.seq + 1
    log := x.log ++ [⟨x.seq, .task task, event⟩] }

/-- The loop joins a task and has the events of the iteration to record. -/
def Live.join (task : Task) (result : JoinResult) (next : RunState) : Live :=
  { x with
    iteration := some ⟨next, next.log.drop x.loop.log.length⟩
    joins := x.joins ++ [(task, result)] }

/-- The loop records an event of the iteration. -/
def Live.record (next : RunState) (event : WriteEvent) (rest : List WriteEvent) : Live :=
  { x with
    iteration := some ⟨next, rest⟩
    seq := x.seq + 1
    log := x.log ++ [⟨x.seq, .loop (starting x.loop next), event⟩] }

/-- The iteration ends, and its new tasks are in flight. -/
def Live.spawn (next : RunState) : Live := { x with loop := next, iteration := none }

/-- An advisory event takes a number from the counter. -/
def Live.draw : Live := { x with seq := x.seq + 1 }

end Moves

/-- The moves of an execution. A task in flight writes its next event; the loop joins a task
that has written all of its events, records the events of the iteration one by one, and only
then has the new tasks in flight. -/
def live_step (ctx : RunContext) (behave : Task → Behaviour) (x : Live) : Move → Option Live
  | .write id =>
    match x.loop.running.find? fun task => task.id = id with
    | none => none
    | some task =>
      match (script ctx behave task).1[x.written id]? with
      | none => none
      | some event => some (x.write task event)
  | .join id =>
    match x.iteration, x.loop.running.find? fun task => task.id = id with
    | none, some task =>
      if x.written id = (script ctx behave task).1.length then
        (next_state ctx x.loop ⟨id, (script ctx behave task).2⟩).map (x.join task (script ctx behave task).2)
      else none
    | _, _ => none
  | .record =>
    match x.iteration with
    | some ⟨next, event :: rest⟩ => some (x.record next event rest)
    | _ => none
  | .spawn =>
    match x.iteration with
    | some ⟨next, []⟩ => some (x.spawn next)
    | _ => none
  | .draw => some x.draw

/-- The execution before the loop, after some numbers were given out. -/
def initial_live (ctx : RunContext) (first_seq : Nat) : Live where
  loop := initial_state ctx
  iteration := none
  written := fun _ => 0
  seq := first_seq
  log := []
  joins := []

/-- The state of the loop at the end of the iteration under way. -/
def Live.ahead (x : Live) : RunState :=
  match x.iteration with
  | some iteration => iteration.next
  | none => x.loop

/-- The executions of a run. -/
def LiveRun (ctx : RunContext) (behave : Task → Behaviour) (first_seq : Nat) (moves : List Move) (x : Live) :
    Prop :=
  transition.Run (live_step ctx behave) (fun _ _ => True) (initial_live ctx first_seq) moves x

/-- What a move can do. -/
inductive MoveCase (ctx : RunContext) (behave : Task → Behaviour) (x : Live) : Live → Prop
  | write {task : Task} {event : WriteEvent}
      (hfind : x.loop.running.find? (fun other => other.id = task.id) = some task)
      (hevent : (script ctx behave task).1[x.written task.id]? = some event) :
      MoveCase ctx behave x (x.write task event)
  | join {task : Task} {next : RunState} (hbetween : x.iteration = none)
      (hfind : x.loop.running.find? (fun other => other.id = task.id) = some task)
      (hwritten : x.written task.id = (script ctx behave task).1.length)
      (hstep : next_state ctx x.loop ⟨task.id, (script ctx behave task).2⟩ = some next) :
      MoveCase ctx behave x (x.join task (script ctx behave task).2 next)
  | record {next : RunState} {event : WriteEvent} {rest : List WriteEvent}
      (hwithin : x.iteration = some ⟨next, event :: rest⟩) : MoveCase ctx behave x (x.record next event rest)
  | spawn {next : RunState} (hwithin : x.iteration = some ⟨next, []⟩) : MoveCase ctx behave x (x.spawn next)
  | draw : MoveCase ctx behave x x.draw

theorem live_step_cases {ctx : RunContext} {behave : Task → Behaviour} {x y : Live} {move : Move}
    (h : live_step ctx behave x move = some y) : MoveCase ctx behave x y := by
  cases move with
  | write id =>
    simp only [live_step] at h
    split at h
    · cases h
    · rename_i task hfind
      have hid : task.id = id := by simpa using List.find?_some hfind
      subst hid
      split at h
      · cases h
      · rename_i event hevent
        cases h
        exact .write hfind hevent
  | join id =>
    simp only [live_step] at h
    split at h
    · rename_i task hbetween hfind
      have hid : task.id = id := by simpa using List.find?_some hfind
      subst hid
      split at h
      · rename_i hwritten
        obtain ⟨next, hstep, rfl⟩ := Option.map_eq_some_iff.mp h
        exact .join hbetween hfind hwritten hstep
      · cases h
    · cases h
  | record =>
    simp only [live_step] at h
    split at h
    · rename_i next event rest hwithin
      cases h
      exact .record hwithin
    · cases h
  | spawn =>
    simp only [live_step] at h
    split at h
    · rename_i next hwithin
      cases h
      exact .spawn hwithin
    · cases h
  | draw =>
    cases h
    exact .draw

end flow_engine.executor
