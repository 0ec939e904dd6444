import FlowEngine.Json

namespace flow_engine

/-- Sensitivity classification of a port. -/
inductive Sensitivity where
  | none
  | pii
  | masked
  | secret
  | custom (label : String)
  deriving DecidableEq

structure PortDef where
  name : String
  sensitivity : Sensitivity
  deriving DecidableEq

/-- What the engine reads of a handler's metadata. -/
structure NodeMeta where
  node_type : String
  inputs : List PortDef
  outputs : List PortDef
  deriving DecidableEq

structure EdgeCondition where
  expression : String
  deriving DecidableEq

/-- A directed connection between two node ports. -/
structure Edge where
  id : String
  from_node : String
  from_port : String
  to_node : String
  to_port : String
  condition : Option EdgeCondition
  deriving DecidableEq

structure NodeInstance where
  instance_id : String
  node_type : String
  config : Value

structure GraphDef where
  id : String
  nodes : List NodeInstance
  edges : List Edge

/-- Lifecycle status of a run. -/
inductive RunStatus where
  | Pending
  | Running
  | Completed
  | Failed
  | Cancelled
  | Interrupted
  deriving DecidableEq

structure LlmRequest where
  provider : String
  model : String
  messages : Value

structure LlmToolCall where
  id : String
  tool_name : String
  arguments : Value

structure LlmResponse where
  content : Value
  tool_calls : Option (List LlmToolCall)
  model_used : String
  input_tokens : Option Nat
  output_tokens : Option Nat
  finish_reason : String

/-- One LLM request and response pair, as a node hands it to the executor. -/
structure LlmInvocationRecord where
  node_id : String
  request : LlmRequest
  response : LlmResponse

/-- Aggregate LLM counts of a run. -/
structure LlmRunSummary where
  total_llm_calls : Nat
  total_input_tokens : Nat
  total_output_tokens : Nat
  models_used : List String
  tools_invoked : List String

/-- How a flow execution was initiated. -/
inductive TriggerSource where
  | api (request_id : String)
  | cron (schedule : String)
  | flow (source_run_id source_flow_id : String)
  | queue (topic message_id : String)
  | manual (principal : String)
  | custom (trigger_type : String) (metadata : Value)
  | replay (source_run_id node_id : String)

end flow_engine
