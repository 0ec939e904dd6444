import FlowEngine.Adapters.Translate
import FlowEngine.Expression
import FlowEngine.Lib.Parking
import FlowEngine.Lib.Transition

namespace flow_engine.adapters

open parking expression

/-- The request of an LLM call as it is recorded. -/
structure ObservedRequest extends LlmRequest where
  tools : Option (List Value)
  temperature : Option UInt64
  top_p : Option UInt64
  max_tokens : Option Nat
  response_format : Option Value
  seed : Option Nat

structure ObservedResponse extends LlmResponse where
  total_tokens : Option Nat
  latency_ms : Nat
  provider_request_id : Option String

section Parse

variable (ops : F64Ops)

def as_f64 : Value → Option UInt64
  | .number n => some (EvalValue.number_as_f64 ops n)
  | _ => none

/-- A number that is cast to 32 bits. -/
def as_u32 (v : Value) : Option Nat := v.as_u64.map fun n => n % 2 ^ 32

def parse_llm_request (raw : Value) : ObservedRequest where
  provider := (raw.get_str "provider").getD "unknown"
  model := (raw.get_str "model").getD "unknown"
  messages := (raw.get "messages").getD (.array [])
  tools := (raw.get "tools").bind Value.as_array
  temperature := (raw.get "temperature").bind (as_f64 ops)
  top_p := (raw.get "top_p").bind (as_f64 ops)
  max_tokens := (raw.get "max_tokens").bind as_u32
  response_format := raw.get "response_format"
  seed := (raw.get "seed").bind Value.as_u64

def parse_llm_response (raw : Value) (duration_ms : Nat) : ObservedResponse where
  content := ((raw.get "content").or (raw.get "text")).getD (.string "")
  tool_calls := none
  model_used := (raw.get_str "model").getD "unknown"
  input_tokens := ((raw.get "usage").bind fun u => (u.get "prompt_tokens").or (u.get "input_tokens")).bind as_u32
  output_tokens := ((raw.get "usage").bind fun u => (u.get "completion_tokens").or (u.get "output_tokens")).bind as_u32
  finish_reason := (((raw.get "finish_reason").or (raw.get "stop_reason")).bind Value.as_str).getD "stop"
  total_tokens := ((raw.get "usage").bind fun u => u.get "total_tokens").bind as_u32
  latency_ms := duration_ms
  provider_request_id := raw.get_str "id"

end Parse

/-- A call of the observer session, which records an `LlmInvocation`, a `ToolInvocation` or a
`StepRecorded` event. -/
inductive ObserverCall where
  | record_llm_call_for_node (node_id : String) (request : ObservedRequest) (response : ObservedResponse)
  | record_tool_call (tool_name : String) (inputs outputs : Value) (duration_ms : Nat)
  | record_step (step_name : String) (data : Value)

/-- The session between two callbacks, with the calls of its observer so far. -/
structure AdapterSession where
  seen_edges : List (String × String)
  pending_llm_starts : Lot String Value
  pending_tool_starts : Lot String (String × Value)
  observed : List ObserverCall

def AdapterSession.start : AdapterSession := ⟨[], ∅, ∅, []⟩

section Events

variable (ops : F64Ops)

/-- An end whose start is not pending is recorded with an empty object. -/
def handle_event (s : AdapterSession) : AdapterEvent → AdapterSession
  | .LlmStart node_id request => { s with pending_llm_starts := s.pending_llm_starts.insert node_id request }
  | .LlmEnd node_id response duration_ms =>
    let request_json := (s.pending_llm_starts.lookup node_id).getD (.object [])
    { s with
      pending_llm_starts := s.pending_llm_starts.erase node_id
      observed := s.observed ++ [.record_llm_call_for_node node_id (parse_llm_request ops request_json)
        (parse_llm_response response duration_ms)] }
  | .ToolStart node_id tool_name inputs =>
    { s with pending_tool_starts := s.pending_tool_starts.insert node_id (tool_name, inputs) }
  | .ToolEnd node_id tool_name outputs duration_ms =>
    let (name, inputs) := (s.pending_tool_starts.lookup node_id).getD (tool_name, .object [])
    { s with
      pending_tool_starts := s.pending_tool_starts.erase node_id
      observed := s.observed ++ [.record_tool_call name inputs outputs duration_ms] }
  | .NodeTransition source target => { s with seen_edges := s.seen_edges ++ [(source, target)] }
  | .StepStart name data => { s with observed := s.observed ++ [.record_step name data] }
  | .StepEnd name data => { s with observed := s.observed ++ [.record_step (name ++ "_end") data] }

def on_event (adapter : FrameworkAdapter) (s : AdapterSession) (raw : Value) : AdapterSession :=
  (adapter.translate raw).foldl (handle_event ops) s

end Events

/-- What an event does to the pending LLM starts. -/
def llm_op : AdapterEvent → Option (Op String Value)
  | .LlmStart node_id request => some (.park node_id request)
  | .LlmEnd node_id _ _ => some (.take node_id)
  | _ => none

def tool_op : AdapterEvent → Option (Op String (String × Value))
  | .ToolStart node_id tool_name inputs => some (.park node_id (tool_name, inputs))
  | .ToolEnd node_id _ _ _ => some (.take node_id)
  | _ => none

/-- The requests of the recorded LLM calls. -/
def llm_requests (observed : List ObserverCall) : List ObservedRequest := observed.filterMap fun
  | .record_llm_call_for_node _ request _ => some request
  | _ => none

/-- The inputs of the recorded tool calls. -/
def tool_inputs (observed : List ObserverCall) : List Value := observed.filterMap fun
  | .record_tool_call _ inputs _ _ => some inputs
  | _ => none

section Events

variable (ops : F64Ops)

/-- What an end finds of its start. -/
def request_found (found : Option Value) : ObservedRequest :=
  (found.map (parse_llm_request ops)).getD (parse_llm_request ops (.object []))

def inputs_found (found : Option (String × Value)) : Value := (found.map Prod.snd).getD (.object [])

/-- The pending LLM starts are parked items, and the recorded requests what is found of them. -/
theorem handle_event_keeps_llm :
    Keeps (handle_event ops) llm_op AdapterSession.pending_llm_starts (fun s => llm_requests s.observed)
      (request_found ops) := by
  constructor
  · intro s event
    cases event <;> rfl
  · intro s event
    cases event with
    | LlmEnd node_id response duration_ms =>
      cases hlookup : s.pending_llm_starts.lookup node_id <;>
        simp [handle_event, llm_requests, llm_op, found, request_found, hlookup]
    | _ => simp [handle_event, llm_requests, llm_op, found]

theorem handle_event_keeps_tool :
    Keeps (handle_event ops) tool_op AdapterSession.pending_tool_starts (fun s => tool_inputs s.observed)
      inputs_found := by
  constructor
  · intro s event
    cases event <;> rfl
  · intro s event
    cases event with
    | ToolEnd node_id tool_name outputs duration_ms =>
      cases hlookup : s.pending_tool_starts.lookup node_id <;>
        simp [handle_event, tool_inputs, tool_op, found, inputs_found, hlookup]
    | _ => simp [handle_event, tool_inputs, tool_op, found]

end Events

end flow_engine.adapters
