import FlowEngine.Json
import FlowEngine.Types

namespace flow_engine

namespace adapters

/-- Normalized events, without their timestamps. -/
inductive AdapterEvent where
  | LlmStart (node_id : String) (request : Value)
  | LlmEnd (node_id : String) (response : Value) (duration_ms : Nat)
  | ToolStart (node_id tool_name : String) (inputs : Value)
  | ToolEnd (node_id tool_name : String) (outputs : Value) (duration_ms : Nat)
  | NodeTransition («from» «to» : String)
  | StepStart (name : String) (data : Value)
  | StepEnd (name : String) (data : Value)

def duration_of (raw : Value) : Nat := ((raw.get "duration_ms").bind Value.as_u64).getD 0

namespace LangChainAdapter

/-- The text after the first `model=` of the `repr` field, up to the quote that closes it. -/
def extract_model_from_repr (serialized : Value) : Option String := do
  let repr ← serialized.get_str "repr"
  let after ← (repr.splitOn "model=")[1]?
  let quote ← after.toList.head?
  if quote ≠ Char.ofNat 39 ∧ quote ≠ Char.ofNat 34 then none
  else
    let model := after.toList.tail.takeWhile fun c => c ≠ quote
    if model.isEmpty then none else some (String.ofList model)

/-- The text without the first of the beginnings that it has. -/
def strip_first (s : String) (beginnings : List String) : String :=
  match beginnings.find? fun beginning => beginning.toList.isPrefixOf s.toList with
  | some beginning => String.ofList (s.toList.drop beginning.length)
  | none => s

def model_of_kwargs (kwargs : Value) : Option Value :=
  (kwargs.get "model_name").or ((kwargs.get "model").or
    ((kwargs.get "kwargs").bind fun inner => (inner.get "model_name").or (inner.get "model")))

/-- The request of an LLM call: its model and provider are named in one of several places. -/
def llm_request (raw : Value) : Value :=
  let serialized := (raw.get "serialized").getD .null
  let prompts := (raw.get "prompts").getD .null
  let ids := (serialized.get "id").bind Value.as_array
  let model := ((raw.get_str "model").or ((((serialized.get "kwargs").bind model_of_kwargs).bind Value.as_str).or
    ((extract_model_from_repr serialized).or
      ((ids.bind List.getLast?).bind Value.as_str)))).getD "unknown"
  let provider := (raw.get_str "provider").getD
    ((((ids.bind List.head?).bind Value.as_str).map fun s => strip_first s ["langchain_", "langchain-"]).getD "langchain")
  .object [("messages", prompts), ("model", .string model), ("provider", .string provider)]

def first_generation (response : Value) : Option Value :=
  (((response.get "generations").bind Value.as_array).bind List.head?).bind fun first =>
    first.as_array.bind List.head?

def llm_response (raw : Value) : Value :=
  let response := (raw.get "response").getD .null
  let content := ((first_generation response).bind fun g => g.get "text").getD (.string "")
  let llm_output := (response.get "llm_output").getD .null
  let usage := (llm_output.get "token_usage").getD .null
  let model := (((llm_output.get "model_name").or ((llm_output.get "model").or
    (((first_generation response).bind fun g => g.get "generation_info").bind fun info => info.get "model"))).bind
      Value.as_str).getD "unknown"
  .object [("content", content), ("model", .string model),
    ("usage", .object [("completion_tokens", (usage.get "completion_tokens").getD .null),
      ("prompt_tokens", (usage.get "prompt_tokens").getD .null),
      ("total_tokens", (usage.get "total_tokens").getD .null)])]

/-- The name of a chain is the last of its ids. -/
def chain_name (raw : Value) : String :=
  (((((raw.get "serialized").bind fun s => s.get "id").bind Value.as_array).bind List.getLast?).bind
    Value.as_str).getD "chain"

def translate (raw : Value) : List AdapterEvent :=
  let run_id := (raw.get_str "run_id").getD "unknown"
  match raw.get_str "callback" with
  | some "on_llm_start" => [.LlmStart run_id (llm_request raw)]
  | some "on_llm_end" => [.LlmEnd run_id (llm_response raw) (duration_of raw)]
  | some "on_tool_start" =>
    [.ToolStart run_id (((raw.get "serialized").bind fun s => s.get_str "name").getD "unknown")
      ((raw.get "input_str").getD (.string ""))]
  | some "on_tool_end" =>
    [.ToolEnd run_id ((raw.get_str "tool_name").getD "unknown") ((raw.get "output").getD .null) (duration_of raw)]
  | some "on_chain_start" => [.StepStart (chain_name raw) ((raw.get "inputs").getD .null)]
  | some "on_chain_end" => [.StepEnd (chain_name raw) ((raw.get "outputs").getD .null)]
  | _ => []

end LangChainAdapter

namespace LangGraphAdapter

def translate (raw : Value) : List AdapterEvent :=
  let node := (raw.get_str "node").getD "unknown"
  match raw.get_str "callback" with
  | some "node_start" => [.StepStart node ((raw.get "state").getD .null)]
  | some "node_end" => [.StepEnd node ((raw.get "state").getD .null)]
  | some "edge" => [.NodeTransition ((raw.get_str "from").getD "unknown") ((raw.get_str "to").getD "unknown")]
  | some "on_llm_start" => [.LlmStart node ((raw.get "request").getD .null)]
  | some "on_llm_end" => [.LlmEnd node ((raw.get "response").getD .null) (duration_of raw)]
  | some "state_update" =>
    [.StepStart ((raw.get_str "node").getD "state" ++ "_state_update") ((raw.get "updates").getD .null)]
  | _ => []

end LangGraphAdapter

namespace SemanticKernelAdapter

def translate (raw : Value) : List AdapterEvent :=
  let plugin := (raw.get_str "plugin_name").getD "unknown"
  let function := (raw.get_str "function_name").getD "unknown"
  let service := (raw.get_str "service_id").getD "llm"
  match raw.get_str "callback" with
  | some "function_invoking" => [.ToolStart (plugin ++ "." ++ function) function ((raw.get "arguments").getD .null)]
  | some "function_invoked" =>
    [.ToolEnd (plugin ++ "." ++ function) function ((raw.get "result").getD .null) (duration_of raw)]
  | some "prompt_rendering" => [.StepStart "prompt_rendering" ((raw.get "template").getD .null)]
  | some "prompt_rendered" => [.StepEnd "prompt_rendering" ((raw.get "rendered_prompt").getD .null)]
  | some "on_llm_start" => [.LlmStart service ((raw.get "request").getD .null)]
  | some "on_llm_end" => [.LlmEnd service ((raw.get "response").getD .null) (duration_of raw)]
  | _ => []

end SemanticKernelAdapter

/-- The adapters of the frameworks. -/
inductive FrameworkAdapter where
  | LangChain
  | LangGraph
  | SemanticKernel

def FrameworkAdapter.translate : FrameworkAdapter → Value → List AdapterEvent
  | .LangChain => LangChainAdapter.translate
  | .LangGraph => LangGraphAdapter.translate
  | .SemanticKernel => SemanticKernelAdapter.translate

/-- An LLM call or a tool call. -/
inductive CallKind where
  | llm
  | tool
  deriving DecidableEq

/-- The callbacks at the start and at the end of a call, and the fields they share. -/
def FrameworkAdapter.callbacks : FrameworkAdapter → CallKind → Option (String × String × List String)
  | .LangChain, .llm => some ("on_llm_start", "on_llm_end", ["run_id"])
  | .LangChain, .tool => some ("on_tool_start", "on_tool_end", ["run_id"])
  | .LangGraph, .llm => some ("on_llm_start", "on_llm_end", ["node"])
  | .LangGraph, .tool => none
  | .SemanticKernel, .llm => some ("on_llm_start", "on_llm_end", ["service_id"])
  | .SemanticKernel, .tool => some ("function_invoking", "function_invoked", ["plugin_name", "function_name"])

/-- A call of a framework, as the payloads of its two callbacks. -/
structure FrameworkCall where
  kind : CallKind
  start : Value
  finish : Value

/-- The payloads are callbacks of one call. -/
def FrameworkCall.Of (call : FrameworkCall) (adapter : FrameworkAdapter) : Prop :=
  ∃ start finish fields, adapter.callbacks call.kind = some (start, finish, fields) ∧
    call.start.get_str "callback" = some start ∧ call.finish.get_str "callback" = some finish ∧
    ∀ field ∈ fields, call.start.get field = call.finish.get field

/-- The identifier a call is parked under. -/
def FrameworkAdapter.call_id : FrameworkAdapter → FrameworkCall → String
  | .LangChain, call => (call.start.get_str "run_id").getD "unknown"
  | .LangGraph, call => (call.start.get_str "node").getD "unknown"
  | .SemanticKernel, call =>
    match call.kind with
    | .llm => (call.start.get_str "service_id").getD "llm"
    | .tool =>
      (call.start.get_str "plugin_name").getD "unknown" ++ "." ++ (call.start.get_str "function_name").getD "unknown"

/-- The payload of an LLM call, or the name and the inputs of a tool call. -/
def FrameworkAdapter.llm_payload : FrameworkAdapter → FrameworkCall → Value
  | .LangChain, call => LangChainAdapter.llm_request call.start
  | _, call => (call.start.get "request").getD .null

def FrameworkAdapter.tool_payload : FrameworkAdapter → FrameworkCall → String × Value
  | .LangChain, call => (((call.start.get "serialized").bind fun s => s.get_str "name").getD "unknown",
      (call.start.get "input_str").getD (.string ""))
  | _, call => ((call.start.get_str "function_name").getD "unknown", (call.start.get "arguments").getD .null)

/-- The callbacks of a call are translated to its start and its end under one identifier. -/
theorem FrameworkCall.Of.translate {call : FrameworkCall} {adapter : FrameworkAdapter} (h : call.Of adapter) :
    match call.kind with
    | .llm => adapter.translate call.start = [.LlmStart (adapter.call_id call) (adapter.llm_payload call)] ∧
        ∃ response duration_ms, adapter.translate call.finish = [.LlmEnd (adapter.call_id call) response duration_ms]
    | .tool => adapter.translate call.start =
          [.ToolStart (adapter.call_id call) (adapter.tool_payload call).1 (adapter.tool_payload call).2] ∧
        ∃ tool_name outputs duration_ms,
          adapter.translate call.finish = [.ToolEnd (adapter.call_id call) tool_name outputs duration_ms] := by
  obtain ⟨kind, start, finish⟩ := call
  obtain ⟨_, _, fields, hcallbacks, hstart, hfinish, hfields⟩ := h
  dsimp only at hstart hfinish hfields hcallbacks
  cases adapter <;> cases kind <;> cases hcallbacks <;>
    simp only [List.mem_cons, List.not_mem_nil, or_false, forall_eq_or_imp, forall_eq] at hfields <;>
    simp only [FrameworkAdapter.translate, LangChainAdapter.translate, LangGraphAdapter.translate,
      SemanticKernelAdapter.translate, hstart, hfinish] <;>
    simp [FrameworkAdapter.call_id, FrameworkAdapter.llm_payload, FrameworkAdapter.tool_payload, Value.get_str, hfields]

end adapters

end flow_engine
