import FlowEngine.Executor.Graph
import FlowEngine.Expression
import FlowEngine.WriteEvent

namespace flow_engine.executor

/-- What a run reads but never changes. A registered handler is represented by
its metadata; what it returns is chosen by the environment. -/
structure RunContext where
  run_id : String
  graph : GraphDef
  inputs : Value
  node_registry : String → Option NodeMeta
  max_traversals : Nat
  f64 : expression.F64Ops

/-- Progress of the fan-out instances of one node. -/
structure FanOutState where
  expected : Nat
  results : List (Option Value)
  completed : Nat

/-- A node that is ready to be spawned, possibly as a fan-out. -/
structure ReadyNode where
  node_id : String
  fan_out_items : Option (List Value)
  is_cycle : Bool

/-- How a node's task ends when it does not panic. -/
inductive NodeOutcome where
  | Success (outputs : Value)
  | Failed (error : String)

/-- What a node's task hands to the run loop. -/
structure NodeResult where
  node_id : String
  fan_out_index : Option Nat
  outcome : NodeOutcome
  llm_records : List LlmInvocationRecord

/-- One start of a node: a single task, or one task for each item. -/
inductive Work where
  | plain (inputs : Value)
  | fan_out (items : List Value)

structure Activation where
  node_id : String
  work : Work

/-- A task is identified by its activation and its position among the tasks of
that activation. -/
structure TaskId where
  activation : Nat
  position : Nat
  deriving DecidableEq

/-- A spawned task that has not been joined. -/
structure Task where
  id : TaskId
  node_id : String
  fan_out_index : Option Nat
  inputs : Value

/-- The variables of the run loop. Two fields are histories the loop itself never
reads: the activations started so far, and the critical events recorded. -/
structure RunState where
  completed : Finset String
  failed : Finset String
  node_outputs : String → Option Value
  edge_traversal_counts : String → Nat
  llm_records : List LlmInvocationRecord
  fan_out_states : String → Option FanOutState
  running : List Task
  running_set : Finset String
  activations : List Activation
  log : List WriteEvent

end flow_engine.executor
