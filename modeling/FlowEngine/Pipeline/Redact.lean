import FlowEngine.WriteEvent

namespace flow_engine.write_pipeline

/-- The data redactor: `none` stands for a panic. -/
structure Redactor where
  redact : String → Sensitivity → Value → Option Value
  redact_llm_messages : Value → Sensitivity → Option Value

/-- The sensitivity of the first port of that name. -/
def sensitivity_of (ports : List PortDef) (name : String) : Sensitivity :=
  ((ports.find? (fun p => p.name == name)).map PortDef.sensitivity).getD .none

/-- Redact a value according to port definitions. -/
def redact_ports (redactor : Redactor) (value : Value) (ports : List PortDef) : Option Value :=
  match value with
  | .object map =>
    (map.foldlM (fun out field =>
      (redactor.redact field.1 (sensitivity_of ports field.1) field.2).map (Map.insert out field.1)) []).map .object
  | other => some other

/-- Apply redaction to a single event based on node port sensitivities. -/
def redact_event (redactor : Redactor) (node_meta : String → Option NodeMeta) : WriteEvent → Option WriteEvent
  | .NodeStarted seq run_id node_id inputs fan_out_index attempt =>
    match node_meta node_id with
    | some m => (redact_ports redactor inputs m.inputs).map fun inputs =>
      .NodeStarted seq run_id node_id inputs fan_out_index attempt
    | none => some (.NodeStarted seq run_id node_id inputs fan_out_index attempt)
  | .NodeCompleted seq run_id node_id outputs fan_out_index =>
    match node_meta node_id with
    | some m => (redact_ports redactor outputs m.outputs).map fun outputs =>
      .NodeCompleted seq run_id node_id outputs fan_out_index
    | none => some (.NodeCompleted seq run_id node_id outputs fan_out_index)
  | .LlmInvocation seq run_id node_id request response =>
    let sensitivity := ((node_meta node_id).map fun m => sensitivity_of m.inputs "messages").getD .none
    (redactor.redact_llm_messages request.messages sensitivity).bind fun messages =>
      (redactor.redact_llm_messages response.content sensitivity).map fun content =>
        .LlmInvocation seq run_id node_id { request with messages } { response with content }
  | .Custom seq run_id (some nid) name data =>
    match node_meta nid with
    | some m =>
      if m.outputs.any (fun p => p.sensitivity != .none) then
        (redactor.redact name .pii data).map fun data => .Custom seq run_id (some nid) name data
      else some (.Custom seq run_id (some nid) name data)
    | none => some (.Custom seq run_id (some nid) name data)
  | event => some event

variable {redactor : Redactor} {node_meta : String → Option NodeMeta}

/-- What redaction makes of an event. -/
inductive RedactCase (redactor : Redactor) (node_meta : String → Option NodeMeta) : WriteEvent → WriteEvent → Prop
  | node_started {seq attempt : Nat} {run_id node_id : String} {inputs redacted : Value} {fan_out_index : Option Nat}
      {m : NodeMeta} (hmeta : node_meta node_id = some m) (hports : redact_ports redactor inputs m.inputs = some redacted) :
      RedactCase redactor node_meta (.NodeStarted seq run_id node_id inputs fan_out_index attempt)
        (.NodeStarted seq run_id node_id redacted fan_out_index attempt)
  | node_completed {seq : Nat} {run_id node_id : String} {outputs redacted : Value} {fan_out_index : Option Nat}
      {m : NodeMeta} (hmeta : node_meta node_id = some m) (hports : redact_ports redactor outputs m.outputs = some redacted) :
      RedactCase redactor node_meta (.NodeCompleted seq run_id node_id outputs fan_out_index)
        (.NodeCompleted seq run_id node_id redacted fan_out_index)
  | llm_invocation {seq : Nat} {run_id node_id : String} {request : LlmRequest} {response : LlmResponse}
      {messages content : Value} {sensitivity : Sensitivity}
      (hmessages : redactor.redact_llm_messages request.messages sensitivity = some messages)
      (hcontent : redactor.redact_llm_messages response.content sensitivity = some content) :
      RedactCase redactor node_meta (.LlmInvocation seq run_id node_id request response)
        (.LlmInvocation seq run_id node_id { request with messages } { response with content })
  | custom {seq : Nat} {run_id node_id name : String} {data redacted : Value} {m : NodeMeta}
      (hmeta : node_meta node_id = some m) (hdata : redactor.redact name .pii data = some redacted) :
      RedactCase redactor node_meta (.Custom seq run_id (some node_id) name data)
        (.Custom seq run_id (some node_id) name redacted)
  | unchanged {event : WriteEvent} : RedactCase redactor node_meta event event

theorem redact_event_cases {event redacted : WriteEvent} (h : redact_event redactor node_meta event = some redacted) :
    RedactCase redactor node_meta event redacted := by
  unfold redact_event at h
  split at h
  · split at h
    · rename_i hmeta
      obtain ⟨_, hports, rfl⟩ := Option.map_eq_some_iff.mp h
      exact .node_started hmeta hports
    · cases h
      exact .unchanged
  · split at h
    · rename_i hmeta
      obtain ⟨_, hports, rfl⟩ := Option.map_eq_some_iff.mp h
      exact .node_completed hmeta hports
    · cases h
      exact .unchanged
  · obtain ⟨_, hmessages, hboth⟩ := Option.bind_eq_some_iff.mp h
    obtain ⟨_, hcontent, rfl⟩ := Option.map_eq_some_iff.mp hboth
    exact .llm_invocation hmessages hcontent
  · split at h
    · rename_i hmeta
      split at h
      · obtain ⟨_, hdata, rfl⟩ := Option.map_eq_some_iff.mp h
        exact .custom hmeta hdata
      · cases h
        exact .unchanged
    · cases h
      exact .unchanged
  · cases h
    exact .unchanged

/-- Redaction changes neither the number of an event nor its channel. -/
theorem redact_event_frame {event redacted : WriteEvent} (h : redact_event redactor node_meta event = some redacted) :
    redacted.seq = event.seq ∧ redacted.is_critical = event.is_critical := by
  cases redact_event_cases h <;> exact ⟨rfl, rfl⟩

/-- The event after it has been redacted a number of times. -/
def redact_times (redactor : Redactor) (node_meta : String → Option NodeMeta) : Nat → WriteEvent → Option WriteEvent
  | 0, event => some event
  | n + 1, event => (redact_times redactor node_meta n event).bind (redact_event redactor node_meta)

/-- What redaction leaves alone is left alone however often an event is redacted. -/
theorem redact_times_kept {β : Type} {observe : WriteEvent → β}
    (hkept : ∀ event redacted, redact_event redactor node_meta event = some redacted → observe redacted = observe event)
    {n : Nat} {event redacted : WriteEvent} (h : redact_times redactor node_meta n event = some redacted) :
    observe redacted = observe event := by
  induction n generalizing redacted with
  | zero =>
    cases h
    rfl
  | succ n ih =>
    obtain ⟨middle, hmiddle, hlast⟩ := Option.bind_eq_some_iff.mp h
    exact (hkept _ _ hlast).trans (ih hmiddle)

theorem redact_times_frame {n : Nat} {event redacted : WriteEvent}
    (h : redact_times redactor node_meta n event = some redacted) :
    redacted.seq = event.seq ∧ redacted.is_critical = event.is_critical := by
  constructor
  · exact redact_times_kept (fun _ _ hredact => (redact_event_frame hredact).1) h
  · exact redact_times_kept (fun _ _ hredact => (redact_event_frame hredact).2) h

/-- The characters of a string from a byte offset on, which panics inside a character. -/
def chars_from : Nat → List Char → Option (List Char)
  | 0, chars => some chars
  | _ + 1, [] => none
  | offset + 1, c :: rest => if c.utf8Size ≤ offset + 1 then chars_from (offset + 1 - c.utf8Size) rest else none

namespace DefaultRedactor

def redact (_field : String) (sensitivity : Sensitivity) (value : Value) : Option Value :=
  match sensitivity with
  | .none => some value
  | .secret => some (.string "[REDACTED]")
  | .masked =>
    match value with
    | .string s =>
      if 4 ≤ s.utf8ByteSize then
        (chars_from (s.utf8ByteSize - 4) s.toList).map fun last => .string ("****" ++ String.ofList last)
      else some (.string "[MASKED]")
    | _ => some (.string "[MASKED]")
  | .pii => some (.string "[PII_REDACTED]")
  | .custom _ => some (.string "[CUSTOM_REDACTED]")

/-- Redact the `content` field of a single message object while preserving
structural fields (role, tool_call_id, etc.) needed for replay. -/
def redact_message (message : Value) (sensitivity : Sensitivity) : Option Value :=
  match message with
  | .object map =>
    (map.foldlM (fun out field =>
      if field.1 = "content" then (redact "content" sensitivity field.2).map (Map.insert out field.1)
      else some (Map.insert out field.1 field.2)) []).map .object
  | other => some other

def redact_llm_messages (messages : Value) (sensitivity : Sensitivity) : Option Value :=
  if sensitivity = .none then some messages
  else
    match messages with
    | .array items => (items.mapM fun message => redact_message message sensitivity).map .array
    | other => redact "llm_messages" sensitivity other

end DefaultRedactor

/-- Default data redactor applied inside the write pipeline. -/
def default_redactor : Redactor := ⟨DefaultRedactor.redact, DefaultRedactor.redact_llm_messages⟩

end flow_engine.write_pipeline
