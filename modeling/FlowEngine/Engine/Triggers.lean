import FlowEngine.Executor.Cancel

namespace flow_engine.engine

open executor (RunContext Execution ExecutionEvent launch execution_step ExecutionRun)

/-- What the engine starts its runs with. -/
structure Engine where
  node_registry : String → Option NodeMeta
  max_traversals : Nat
  f64 : expression.F64Ops

/-- A saved version of a flow. -/
structure FlowVersion where
  version_id : String
  graph : GraphDef

/-- What the versioning service answers: it may fail, or know no such version. -/
abbrev Lookup := Except String (Option FlowVersion)

structure TriggerEvent where
  flow_id : String
  version_id : Option String
  inputs : Value
  source : TriggerSource
  idempotency_key : Option String

inductive ExecutorError where
  | NodeNotFound (node_type : String)
  | Execution (message : String)

inductive EngineError where
  | FlowNotFound (flow_id : String)
  | Versioning (message : String)
  | Executor (error : ExecutorError)

/-- The environment's part in starting a run: its id, and whether its session starts. -/
structure Start where
  run_id : String
  session : Except String Unit

/-- `Executor::execute`: check the node types and start the session. -/
def execute_graph (engine : Engine) (graph : GraphDef) (inputs : Value) (start : Start) :
    Except ExecutorError RunContext :=
  match graph.nodes.find? fun node => (engine.node_registry node.node_type).isNone with
  | some node => .error (.NodeNotFound node.node_type)
  | none =>
    match start.session with
    | .error e => .error (.Execution ("session start failed: " ++ e))
    | .ok () => .ok {
        run_id := start.run_id
        graph := graph
        inputs := inputs
        node_registry := engine.node_registry
        max_traversals := engine.max_traversals
        f64 := engine.f64 }

/-- `Engine::execute`: run the current version of a flow. -/
def execute (engine : Engine) (flow_id : String) (inputs : Value) (get_current : Lookup) (start : Start) :
    Except EngineError RunContext :=
  match get_current with
  | .error e => .error (.Versioning e)
  | .ok none => .error (.FlowNotFound flow_id)
  | .ok (some version) => (execute_graph engine version.graph inputs start).mapError .Executor

/-- The checks of the dispatch loop before it executes an event's flow: the event is not
a duplicate, and its version resolves. The first part is the keys seen so far. -/
def dispatch (seen_keys : Finset String) (event : TriggerEvent) (version : Lookup) : Finset String × Bool :=
  match event.idempotency_key with
  | some key =>
    if key ∈ seen_keys then (seen_keys, false)
    else
      match version with
      | .ok (some _) => (insert key seen_keys, true)
      | _ => (insert key seen_keys, false)
  | none =>
    match version with
    | .ok (some _) => (seen_keys, true)
    | _ => (seen_keys, false)

/-- A run and whether the dispatch loop started it. -/
structure LaunchedRun where
  by_trigger : Bool
  ctx : RunContext
  execution : Execution

/-- The engine: the keys the dispatch loop has seen, the run whose handle it still
holds, and all runs. -/
structure EngineState where
  seen_keys : Finset String
  holding : Option Nat
  runs : List LaunchedRun

/-- What can happen in the engine. A caller starts a flow or a graph and gets its handle;
the dispatch loop takes an event, and drops the handle it got; a run proceeds, or a
caller uses its handle. -/
inductive EngineAction where
  | execute (flow_id : String) (inputs : Value) (get_current : Lookup) (start : Start)
  | execute_graph (graph : GraphDef) (inputs : Value) (start : Start)
  | trigger (event : TriggerEvent) (version get_current : Lookup) (start : Start)
  | release
  | run (index : Nat) (event : ExecutionEvent)

/-- Only a caller has the handle to send on or to drop. -/
def owner_event : ExecutionEvent → Bool
  | .send | .drop => true
  | .head | .join _ => false

def launched (by_trigger : Bool) (ctx : RunContext) : LaunchedRun where
  by_trigger := by_trigger
  ctx := ctx
  execution := launch ctx

/-- A run takes a step. -/
def advance (s : EngineState) (index : Nat) (event : ExecutionEvent) : Option EngineState :=
  match s.runs[index]? with
  | none => none
  | some r => (execution_step r.ctx r.execution event).map fun execution =>
      { s with runs := s.runs.set index { r with execution := execution } }

def engine_step (engine : Engine) (s : EngineState) : EngineAction → Option EngineState
  | .execute flow_id inputs get_current start =>
    match execute engine flow_id inputs get_current start with
    | .error _ => some s
    | .ok ctx => some { s with runs := s.runs ++ [launched false ctx] }
  | .execute_graph graph inputs start =>
    match execute_graph engine graph inputs start with
    | .error _ => some s
    | .ok ctx => some { s with runs := s.runs ++ [launched false ctx] }
  | .trigger event version get_current start =>
    if s.holding.isSome then none
    else
      match dispatch s.seen_keys event version with
      | (seen_keys, false) => some { s with seen_keys := seen_keys }
      | (seen_keys, true) =>
        match execute engine event.flow_id event.inputs get_current start with
        | .error _ => some { s with seen_keys := seen_keys }
        | .ok ctx => some {
            seen_keys := seen_keys
            holding := some s.runs.length
            runs := s.runs ++ [launched true ctx] }
  | .release =>
    match s.holding with
    | none => none
    | some index => advance { s with holding := none } index .drop
  | .run index event =>
    match s.runs[index]? with
    | none => none
    | some r => if r.by_trigger && owner_event event then none else advance s index event

/-- The engine before anything was started. -/
def idle : EngineState where
  seen_keys := ∅
  holding := none
  runs := []

abbrev EngineRun (engine : Engine) : List EngineAction → EngineState → Prop :=
  transition.Run (engine_step engine) (fun _ _ => True) idle

end flow_engine.engine
