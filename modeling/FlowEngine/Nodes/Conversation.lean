import FlowEngine.Engine.StateStore
import FlowEngine.Executor.Node
import FlowEngine.Lib.Register
import FlowEngine.Nodes.LlmCall

namespace flow_engine.llm_call

open in_memory_state (InMemoryState StateAccess)

structure ToolDef where
  name : String
  description : String
  parameters : Value

/-- A request with the fields that the executor does not read; amounts are bit patterns. -/
structure FullLlmRequest extends LlmRequest where
  tools : Option (List Value)
  temperature : Option UInt64
  top_p : Option UInt64
  max_tokens : Option UInt32
  stop_sequences : Option (List String)
  response_format : Option Value
  seed : Option UInt64
  extra_params : List (String × Value)

/-- What a call finds around it: how a value is written and read as a number, the providers of
the engine, and the tools of the graph that a run executes. -/
structure Host where
  to_string : Value → String
  as_f64 : Value → Option UInt64
  llm_provider : String → Bool
  available_tools : String → List ToolDef

def as_bool : Value → Option Bool
  | .bool b => some b
  | _ => none

def required (config : Value) (field : String) : Except NodeError String :=
  match config.get_str field with
  | some text => .ok text
  | none => .error (.Validation ("missing required config field: " ++ field))

def message (role : String) (content : Value) : Value := .object [("content", content), ("role", .string role)]

def state_key (node_instance_id : String) : String := node_instance_id ++ ":messages"

/-- The prior conversation, or the start of a new one. -/
def loaded_messages (config : Value) : Option Value → List Value
  | some (.array msgs) => msgs
  | _ =>
    match config.get_str "system_prompt" with
    | some sp => [message "system" (.string sp)]
    | none => []

/-- What the inputs add to a conversation that begins. -/
def user_messages (host : Host) (inputs : Value) : List Value :=
  match inputs.get "messages" with
  | some (.array input_msgs) => input_msgs
  | some msg_val => [msg_val]
  | none => [message "user" (.string (host.to_string inputs))]

/-- What the inputs add to a conversation that goes on. -/
def tool_results (inputs : Value) : List Value :=
  match inputs.get "tool_results" with
  | some (.array tool_results) => tool_results
  | _ =>
    if (inputs.get "tool_call_id").isSome then [inputs]
    else
      match inputs.get "messages" with
      | some (.array input_msgs) => input_msgs
      | _ =>
        match inputs with
        | .array arr => arr
        | .object _ => [inputs]
        | _ => []

/-- The messages that are sent to the provider. -/
def build_messages (host : Host) (prior_messages : Option Value) (config inputs : Value) : List Value :=
  let messages := loaded_messages config prior_messages
  if prior_messages.isNone || messages.isEmpty then messages ++ user_messages host inputs
  else messages ++ tool_results inputs

def tool_value (t : ToolDef) : Value :=
  .object [("function", .object [("description", .string t.description), ("name", .string t.name),
    ("parameters", t.parameters)]), ("type", .string "function")]

/-- The tools of the graph, as far as the filter lets them through. -/
def build_tools (available : List ToolDef) (config : Value) : Option (List Value) :=
  let tools_from_graph := ((config.get "tools_from_graph").bind as_bool).getD true
  let tool_filter := ((config.get "tool_filter").bind Value.as_array).map fun arr => arr.filterMap Value.as_str
  if tools_from_graph then
    let filtered := (available.filter fun t => tool_filter.all fun filter => filter.contains t.name).map tool_value
    if filtered.isEmpty then none else some filtered
  else none

/-- A call of the node that waits for its provider, with the messages it has found. -/
structure Call where
  run_id : String
  node_id : String
  config : Value
  inputs : Value
  provider : String
  model : String
  prior_messages : Option Value

/-- The first half of `LlmCallNode::run`: up to the messages that are found. -/
def begin_call (host : Host) (state : InMemoryState) (run_id node_id : String) (config inputs : Value) :
    Except NodeError Call := do
  let provider ← required config "provider"
  let model ← required config "model"
  if host.llm_provider provider then
    .ok ⟨run_id, node_id, config, inputs, provider, model, state.get run_id (state_key node_id)⟩
  else .error (.Fatal ("LLM provider '" ++ provider ++ "' not registered in engine"))

def Call.messages (host : Host) (call : Call) : List Value :=
  build_messages host call.prior_messages call.config call.inputs

/-- What is sent to the provider. -/
def Call.llm_request (host : Host) (call : Call) : FullLlmRequest where
  provider := call.provider
  model := call.model
  messages := .array (call.messages host)
  tools := build_tools (host.available_tools call.run_id) call.config
  temperature := (call.config.get "temperature").bind host.as_f64
  top_p := none
  max_tokens := ((call.config.get "max_tokens").bind Value.as_u64).map UInt32.ofNat
  stop_sequences := none
  response_format := call.config.get "response_format"
  seed := none
  extra_params := []

def tool_call_value (tc : LlmToolCall) : Value :=
  .object [("arguments", tc.arguments), ("id", .string tc.id), ("tool_name", .string tc.tool_name)]

def assistant_msg (response : LlmResponse) : Value :=
  match response.tool_calls with
  | some tool_calls =>
    .object [("content", response.content), ("role", .string "assistant"),
      ("tool_calls", .array (tool_calls.map tool_call_value))]
  | none => message "assistant" response.content

/-- What the call returns. -/
def outputs (response : LlmResponse) : Value :=
  .object [("content", response.content), ("finish_reason", .string response.finish_reason),
    ("tool_calls", response.tool_calls.elim .null fun tool_calls => .array (tool_calls.map tool_call_value))]

/-- The second half of `LlmCallNode::run`: the conversation is saved with the reply, and the
call is recorded. -/
def end_call (host : Host) (state : InMemoryState) (call : Call) (response : LlmResponse) :
    InMemoryState × LlmInvocationRecord × Value :=
  (state.set call.run_id (state_key call.node_id) (.array (call.messages host ++ [assistant_msg response])) .none,
    ⟨call.node_id, (call.llm_request host).toLlmRequest, response⟩, outputs response)

/-- The state store with the calls that wait for a provider. -/
structure Conversations where
  state : InMemoryState
  calls : Nat → Option Call

/-- What can happen. A node begins a call, a provider answers it, or it ends without an answer;
and anything else writes to the state. -/
inductive ConversationAction where
  | ask (id : Nat) (run_id node_id : String) (config inputs : Value)
  | answer (id : Nat) (response : LlmResponse)
  | fail (id : Nat)
  | access (access : StateAccess)

def conversation_step (host : Host) (s : Conversations) : ConversationAction → Option Conversations
  | .ask id run_id node_id config inputs =>
    if (s.calls id).isSome then none
    else
      match begin_call host s.state run_id node_id config inputs with
      | .error _ => some s
      | .ok call => some { s with calls := Function.update s.calls id (some call) }
  | .answer id response => (s.calls id).map fun call =>
    ⟨(end_call host s.state call response).1, Function.update s.calls id none⟩
  | .fail id => (s.calls id).map fun _ => { s with calls := Function.update s.calls id none }
  | .access access => some { s with state := access.apply s.state }

/-- No run has any state and no call waits. -/
def idle : Conversations := ⟨.new, fun _ => none⟩

/-- A call that was answered. -/
structure Turn where
  config : Value
  inputs : Value
  response : LlmResponse

/-- The conversation after one more turn. -/
def add_turn (host : Host) (prior_messages : Option Value) (turn : Turn) : Option Value :=
  some (.array (build_messages host prior_messages turn.config turn.inputs ++ [assistant_msg turn.response]))

/-- The messages of a conversation: what the first call found and its answer, and for each later
call the results of the tools and its answer. -/
def transcript (host : Host) : List Turn → List Value
  | [] => []
  | first :: later => loaded_messages first.config none ++ user_messages host first.inputs ++
      [assistant_msg first.response] ++
      later.flatMap fun turn => tool_results turn.inputs ++ [assistant_msg turn.response]

/-- What is stored of a conversation. -/
def stored (host : Host) (turns : List Turn) : Option Value :=
  if turns.isEmpty then none else some (.array (transcript host turns))

/-- What is sent to the provider after some turns. -/
def sent (host : Host) (turns : List Turn) (config inputs : Value) : List Value :=
  if turns.isEmpty then loaded_messages config none ++ user_messages host inputs
  else transcript host turns ++ tool_results inputs

/-- The call is one of the node in the run. -/
def Call.Of (run_id node_id : String) (call : Call) : Prop := call.run_id = run_id ∧ call.node_id = node_id

instance (run_id node_id : String) (call : Call) : Decidable (call.Of run_id node_id) :=
  inferInstanceAs (Decidable (_ ∧ _))

section Threads

variable (host : Host) (run_id node_id : String)

def answered_at (s : Conversations) : ConversationAction → Option Turn
  | .answer id response => (s.calls id).bind fun call =>
    if call.Of run_id node_id then some ⟨call.config, call.inputs, response⟩ else none
  | .ask .. | .fail _ | .access _ => none

/-- The calls of the node in the run that were answered, in the order of the answers. -/
abbrev answered : List ConversationAction → List Turn :=
  transition.trace (conversation_step host) (answered_at run_id node_id) idle

/-- Nothing else writes to the conversation of the node in the run. -/
def Undisturbed (_ : Conversations) (action : ConversationAction) : Prop :=
  ∀ access, action = .access access → ¬ access.Touches run_id (state_key node_id)

/-- Besides, the node does not begin a call in the run while another one waits. -/
def Serial (s : Conversations) (action : ConversationAction) : Prop :=
  Undisturbed run_id node_id s action ∧
    ∀ id config inputs, action = .ask id run_id node_id config inputs →
      ∀ id' call, s.calls id' = some call → ¬ call.Of run_id node_id

/-- The conversation of the node in the run as a register of the store. -/
def Conversations.register (s : Conversations) : register.Register (Option Value) where
  value := s.state.get run_id (state_key node_id)
  seen id := (s.calls id).bind fun call => if call.Of run_id node_id then some call.prior_messages else none

/-- What an action is to the conversation. -/
def register_action (s : Conversations) : ConversationAction → Option (register.RegisterAction (Option Value) Turn)
  | .ask id run_id' node_id' config inputs =>
    match begin_call host s.state run_id' node_id' config inputs with
    | .error _ => none
    | .ok call => if call.Of run_id node_id then some (.read id) else none
  | .answer id response => (answered_at run_id node_id s (.answer id response)).map fun turn => .write id turn
  | .fail id => (s.calls id).bind fun call => if call.Of run_id node_id then some (.abandon id) else none
  | .access access =>
    if access.Touches run_id (state_key node_id) then
      some (.assign ((access.apply s.state).get run_id (state_key node_id)))
    else none

end Threads

theorem begin_call_eq {host : Host} {state : InMemoryState} {run_id node_id : String} {config inputs : Value} {call : Call}
    (h : begin_call host state run_id node_id config inputs = .ok call) :
    ∃ provider model, required config "provider" = .ok provider ∧ required config "model" = .ok model ∧
      host.llm_provider provider = true ∧
      call = ⟨run_id, node_id, config, inputs, provider, model, state.get run_id (state_key node_id)⟩ := by
  simp only [begin_call] at h
  cases hprovider : required config "provider" with
  | error e =>
    rw [hprovider] at h
    cases h
  | ok provider =>
    cases hmodel : required config "model" with
    | error e =>
      rw [hprovider, hmodel] at h
      cases h
    | ok model =>
      rw [hprovider, hmodel] at h
      change (if host.llm_provider provider then _ else _) = _ at h
      split at h
      · rename_i hregistered
        cases h
        exact ⟨provider, model, rfl, rfl, hregistered, rfl⟩
      · cases h

/-- What an action does. -/
inductive ConversationMove (host : Host) (s : Conversations) : ConversationAction → Conversations → Prop where
  | refused {id : Nat} {run_id node_id : String} {config inputs : Value} {error : NodeError}
      (hcall : begin_call host s.state run_id node_id config inputs = .error error) :
      ConversationMove host s (.ask id run_id node_id config inputs) s
  | ask {id : Nat} {run_id node_id : String} {config inputs : Value} {call : Call} (hfree : s.calls id = none)
      (hcall : begin_call host s.state run_id node_id config inputs = .ok call) :
      ConversationMove host s (.ask id run_id node_id config inputs)
        { s with calls := Function.update s.calls id (some call) }
  | answer {id : Nat} {response : LlmResponse} {call : Call} (hcall : s.calls id = some call) :
      ConversationMove host s (.answer id response)
        ⟨(end_call host s.state call response).1, Function.update s.calls id none⟩
  | fail {id : Nat} {call : Call} (hcall : s.calls id = some call) :
      ConversationMove host s (.fail id) { s with calls := Function.update s.calls id none }
  | access (access : StateAccess) : ConversationMove host s (.access access) { s with state := access.apply s.state }

theorem conversation_moves {host : Host} {s next : Conversations} {action : ConversationAction}
    (h : conversation_step host s action = some next) : ConversationMove host s action next := by
  cases action with
  | ask id run_id node_id config inputs =>
    simp only [conversation_step] at h
    split at h
    · cases h
    · rename_i hfree
      rw [Bool.not_eq_true, Option.isSome_eq_false_iff, Option.isNone_iff_eq_none] at hfree
      split at h
      · rename_i hcall
        cases h
        exact .refused hcall
      · rename_i hcall
        cases h
        exact .ask hfree hcall
  | answer id response =>
    obtain ⟨call, hcall, rfl⟩ := Option.map_eq_some_iff.mp h
    exact .answer hcall
  | fail id =>
    obtain ⟨call, hcall, rfl⟩ := Option.map_eq_some_iff.mp h
    exact .fail hcall
  | access access =>
    cases h
    exact .access access

section Projection

variable (host : Host) (run_id node_id : String)

/-- Conversations of different nodes or runs are under different keys. -/
theorem get_end_call (state : InMemoryState) (call : Call) (response : LlmResponse) :
    (end_call host state call response).1.get run_id (state_key node_id) =
      if call.Of run_id node_id then add_turn host call.prior_messages ⟨call.config, call.inputs, response⟩
      else state.get run_id (state_key node_id) := by
  rw [end_call, InMemoryState.get_set]
  by_cases hof : call.Of run_id node_id
  · rw [if_pos hof, if_pos ⟨hof.1, congrArg state_key hof.2⟩]
    rfl
  · rw [if_neg hof, if_neg fun h => hof ⟨h.1, (String.append_left_inj _).mp h.2⟩]

theorem register_update (s : Conversations) (id : Nat) (call : Option Call) (state : InMemoryState) :
    (⟨state, Function.update s.calls id call⟩ : Conversations).register run_id node_id =
      ⟨state.get run_id (state_key node_id), Function.update (s.register run_id node_id).seen id
        (call.bind fun call => if call.Of run_id node_id then some call.prior_messages else none)⟩ := by
  refine congrArg _ (funext fun id' => ?_)
  by_cases hid : id' = id
  · subst hid
    simp
  · simp [Conversations.register, hid]

variable {run_id node_id}

/-- A call of another conversation has not read this one. -/
theorem update_unseen {s : Conversations} {id : Nat} (h : ∀ call, s.calls id = some call → ¬ call.Of run_id node_id) :
    Function.update (s.register run_id node_id).seen id none = (s.register run_id node_id).seen := by
  have hseen : (s.register run_id node_id).seen id = none :=
    Option.bind_eq_none_iff.mpr fun call hcall => if_neg (h call hcall)
  rw [← hseen, Function.update_eq_self]

theorem seen_of_call {s : Conversations} {id : Nat} {call : Call} (hcall : s.calls id = some call)
    (hof : call.Of run_id node_id) : (s.register run_id node_id).seen id = some call.prior_messages := by
  simp [Conversations.register, hcall, hof]

variable (run_id node_id)

theorem conversations_project : transition.Projects (conversation_step host) (register.register_step (add_turn host))
    (Conversations.register run_id node_id) (register_action host run_id node_id) := by
  constructor
  · intro s next action hstep hnone
    cases conversation_moves hstep with
    | refused => rfl
    | @ask id _ _ _ _ call hfree hcall =>
      by_cases hof : call.Of run_id node_id
      · simp [register_action, hcall, hof] at hnone
      · rw [register_update, Option.bind_some, if_neg hof, update_unseen fun call hcall => by rw [hfree] at hcall; cases hcall]
        rfl
    | @answer id response call hcall =>
      by_cases hof : call.Of run_id node_id
      · simp [register_action, answered_at, hcall, hof] at hnone
      · rw [register_update, get_end_call, if_neg hof, Option.bind_none,
          update_unseen fun other hother => by rw [hcall] at hother; cases hother; exact hof]
        rfl
    | @fail id call hcall =>
      by_cases hof : call.Of run_id node_id
      · simp [register_action, hcall, hof] at hnone
      · rw [register_update, Option.bind_none,
          update_unseen fun other hother => by rw [hcall] at hother; cases hother; exact hof]
        rfl
    | access access =>
      by_cases htouches : access.Touches run_id (state_key node_id)
      · simp [register_action, htouches] at hnone
      · simp [Conversations.register, StateAccess.get_apply_of_untouched s.state htouches]
  · intro s next action taken hstep hsome
    cases conversation_moves hstep with
    | refused hcall => simp [register_action, hcall] at hsome
    | @ask id run_id' node_id' config inputs call hfree hcall =>
      by_cases hof : call.Of run_id node_id
      · simp only [register_action, hcall, if_pos hof, Option.some.injEq] at hsome
        subst hsome
        have hunseen : (s.register run_id node_id).seen id = none := by simp [Conversations.register, hfree]
        have hprior : call.prior_messages = s.state.get run_id (state_key node_id) := by
          obtain ⟨provider, model, _, _, _, rfl⟩ := begin_call_eq hcall
          obtain ⟨rfl, rfl⟩ := hof
          rfl
        rw [register.register_step, hunseen, register_update, Option.bind_some, if_pos hof, hprior]
        rfl
      · simp [register_action, hcall, hof] at hsome
    | @answer id response call hcall =>
      by_cases hof : call.Of run_id node_id
      · simp only [register_action, answered_at, hcall, Option.bind_some, if_pos hof, Option.map_some,
          Option.some.injEq] at hsome
        subst hsome
        rw [register.register_step, seen_of_call hcall hof, register_update, get_end_call, if_pos hof]
        rfl
      · simp [register_action, answered_at, hcall, hof] at hsome
    | @fail id call hcall =>
      by_cases hof : call.Of run_id node_id
      · simp only [register_action, hcall, Option.bind_some, if_pos hof, Option.some.injEq] at hsome
        subst hsome
        rw [register.register_step, seen_of_call hcall hof, register_update]
        rfl
      · simp [register_action, hcall, hof] at hsome
    | access access =>
      by_cases htouches : access.Touches run_id (state_key node_id)
      · simp only [register_action, if_pos htouches, Option.some.injEq] at hsome
        subst hsome
        rfl
      · simp [register_action, htouches] at hsome

theorem register_idle : idle.register run_id node_id = register.unread none := by
  rw [Conversations.register, idle, InMemoryState.get_new]
  rfl

variable {host run_id node_id} {allowed : Conversations → ConversationAction → Prop}
  {allowed' : register.Register (Option Value) → register.RegisterAction (Option Value) Turn → Prop}
  {actions : List ConversationAction} {s : Conversations}

/-- The run of the register that a run is to a conversation, with the same turns. -/
theorem register_run (hallowed : ∀ s action taken, allowed s action → register_action host run_id node_id s action = some taken →
      allowed' (s.register run_id node_id) taken)
    (hrun : transition.Run (conversation_step host) allowed idle actions s) :
    ∃ taken, transition.Run (register.register_step (add_turn host)) allowed' (register.unread none) taken
        (s.register run_id node_id) ∧
      register.written (add_turn host) (register.unread none) taken = answered host run_id node_id actions := by
  have hproject := conversations_project host run_id node_id
  have hobserve (s : Conversations) (action : ConversationAction) : answered_at run_id node_id s action =
      (register_action host run_id node_id s action).bind (register.written_at (s.register run_id node_id)) := by
    cases action with
    | ask id run_id' node_id' config inputs =>
      simp only [answered_at, register_action]
      split
      · rfl
      · split <;> rfl
    | answer id response =>
      simp only [register_action]
      cases answered_at run_id node_id s (.answer id response) <;> rfl
    | fail id =>
      simp only [answered_at, register_action]
      cases s.calls id with
      | none => rfl
      | some call =>
        rw [Option.bind_some]
        split <;> rfl
    | access access =>
      simp only [answered_at, register_action]
      split <;> rfl
  have hregister := hproject.run hallowed hrun
  have hturns := hproject.trace_eq hobserve hrun
  rw [register_idle] at hregister hturns
  exact ⟨_, hregister, hturns.symm⟩

end Projection

section Transcripts

variable (host : Host)

theorem transcript_snoc (turns : List Turn) (turn : Turn) :
    transcript host (turns ++ [turn]) = sent host turns turn.config turn.inputs ++ [assistant_msg turn.response] := by
  cases turns with
  | nil => exact List.append_nil _
  | cons first later =>
    change _ ++ (later ++ [turn]).flatMap _ = transcript host (first :: later) ++ _ ++ _
    rw [List.flatMap_append, List.flatMap_singleton, transcript]
    simp only [List.append_assoc]

theorem transcript_ne_nil {turns : List Turn} (h : turns ≠ []) : transcript host turns ≠ [] := by
  cases turns with
  | nil => exact absurd rfl h
  | cons first later => simp [transcript]

/-- The messages that are built on a stored conversation go on with it. -/
theorem build_messages_stored (turns : List Turn) (config inputs : Value) :
    build_messages host (stored host turns) config inputs = sent host turns config inputs := by
  cases turns with
  | nil => rfl
  | cons first later =>
    have hsome := transcript_ne_nil host (List.cons_ne_nil first later)
    simp [build_messages, stored, sent, loaded_messages, hsome]

theorem add_turn_stored (turns : List Turn) (turn : Turn) :
    add_turn host (stored host turns) turn = stored host (turns ++ [turn]) := by
  rw [add_turn, build_messages_stored, ← transcript_snoc]
  simp [stored]

theorem foldl_add_turn (turns : List Turn) : turns.foldl (add_turn host) none = stored host turns := by
  induction turns using List.reverseRecOn with
  | nil => rfl
  | append_singleton turns turn ih =>
    rw [List.foldl_append, ih]
    exact add_turn_stored host turns turn

end Transcripts

section Conversations

variable {host : Host} {run_id node_id : String} {actions : List ConversationAction} {s : Conversations}

theorem register_action_unassigned {s : Conversations} {action : ConversationAction}
    {taken : register.RegisterAction (Option Value) Turn} (h : Undisturbed run_id node_id s action)
    (htaken : register_action host run_id node_id s action = some taken) :
    register.Unassigned (s.register run_id node_id) taken := by
  rintro value rfl
  cases action with
  | ask id run_id' node_id' config inputs =>
    simp only [register_action] at htaken
    split at htaken
    · cases htaken
    · split at htaken <;> cases htaken
  | answer id response =>
    obtain ⟨turn, _, hturn⟩ := Option.map_eq_some_iff.mp htaken
    cases hturn
  | fail id =>
    obtain ⟨call, _, hcall⟩ := Option.bind_eq_some_iff.mp htaken
    split at hcall <;> cases hcall
  | access access =>
    rw [register_action, if_neg (h access rfl)] at htaken
    cases htaken

theorem register_action_alone {s : Conversations} {action : ConversationAction}
    {taken : register.RegisterAction (Option Value) Turn} (h : Serial run_id node_id s action)
    (htaken : register_action host run_id node_id s action = some taken) :
    register.Alone (s.register run_id node_id) taken := by
  refine ⟨register_action_unassigned h.1 htaken, ?_⟩
  rintro id rfl id'
  cases action with
  | ask id run_id' node_id' config inputs =>
    simp only [register_action] at htaken
    split at htaken
    · cases htaken
    · rename_i hcall
      split at htaken
      · rename_i hof
        obtain ⟨_, _, _, _, _, rfl⟩ := begin_call_eq hcall
        obtain ⟨rfl, rfl⟩ := hof
        exact Option.bind_eq_none_iff.mpr fun call hcall => if_neg (h.2 _ _ _ rfl id' call hcall)
      · cases htaken
  | answer id response =>
    obtain ⟨turn, _, hturn⟩ := Option.map_eq_some_iff.mp htaken
    cases hturn
  | fail id =>
    obtain ⟨call, _, hcall⟩ := Option.bind_eq_some_iff.mp htaken
    split at hcall <;> cases hcall
  | access access =>
    simp only [register_action] at htaken
    split at htaken <;> cases htaken

/-- However the calls of a node overlap with one another and with everything else that happens
to the state, its conversation in a run is that of some of the answered calls, in the order of
their answers and up to the last one, and so is what each waiting call has sent. -/
theorem conversation_keeps (hrun : transition.Run (conversation_step host) (Undisturbed run_id node_id) idle actions s) :
    (∃ kept : List Turn, kept.Sublist (answered host run_id node_id actions) ∧
      kept.getLast? = (answered host run_id node_id actions).getLast? ∧
      s.state.get run_id (state_key node_id) = stored host kept) ∧
    ∀ id call, s.calls id = some call → call.Of run_id node_id →
      ∃ before : List Turn, before.Sublist (answered host run_id node_id actions) ∧
        call.messages host = sent host before call.config call.inputs := by
  obtain ⟨taken, hregister, hwritten⟩ := register_run (fun s action taken h => register_action_unassigned h) hrun
  obtain ⟨⟨kept, hkept, hlast, hvalue⟩, hseen⟩ := register.run_woven hregister
  rw [hwritten] at hkept hlast hseen
  refine ⟨⟨kept, hkept, hlast, hvalue.trans (foldl_add_turn host kept)⟩, fun id call hcall hof => ?_⟩
  obtain ⟨before, hbefore, hprior⟩ := hseen id _ (seen_of_call hcall hof)
  exact ⟨before, hbefore, by rw [Call.messages, hprior, foldl_add_turn, build_messages_stored]⟩

/-- If a node does not begin a call in a run while another one waits, its conversation there is
that of all its answered calls, and a waiting call has sent all of it. -/
theorem conversation_serial (hrun : transition.Run (conversation_step host) (Serial run_id node_id) idle actions s) :
    s.state.get run_id (state_key node_id) = stored host (answered host run_id node_id actions) ∧
    ∀ id call, s.calls id = some call → call.Of run_id node_id →
      call.messages host = sent host (answered host run_id node_id actions) call.config call.inputs := by
  obtain ⟨taken, hregister, hwritten⟩ := register_run (fun s action taken h => register_action_alone h) hrun
  obtain ⟨hvalue, hseen⟩ := register.run_alone hregister
  rw [hwritten, foldl_add_turn] at hvalue
  refine ⟨hvalue, fun id call hcall hof => ?_⟩
  obtain ⟨hprior, _⟩ := hseen id _ (seen_of_call hcall hof)
  rw [Call.messages, hprior, hvalue, build_messages_stored]

end Conversations

def sample_host : Host where
  to_string _ := "raw"
  as_f64 _ := none
  llm_provider name := name = "mock"
  available_tools _ := [⟨"search", "Search the web", .object []⟩]

def sample_config : Value :=
  .object [("model", .string "m"), ("provider", .string "mock"), ("system_prompt", .string "Be brief")]

def sample_response (text : String) : LlmResponse := ⟨.string text, none, "m", none, none, "stop"⟩

/-- Two instances of a node that is fanned out call their provider at the same time. -/
def overlapping_calls : List ConversationAction :=
  [.ask 0 "run" "llm" sample_config (.string "a"), .ask 1 "run" "llm" sample_config (.string "b"),
    .access (.set "run" "other" .null .secret), .answer 0 (sample_response "to a"), .answer 1 (sample_response "to b"),
    .ask 2 "run" "llm" sample_config (.array [.string "c"])]

/-- The turn of the first instance is lost. -/
theorem conversation_keeps_sample : ∃ s, transition.Run (conversation_step sample_host) (Undisturbed "run" "llm") idle
      overlapping_calls s ∧
    (s.state.get "run" (state_key "llm")).bind (fun v => v.as_array.map List.length) = some 3 ∧
    (∃ kept : List Turn, kept.Sublist (answered sample_host "run" "llm" overlapping_calls) ∧
      kept.getLast? = (answered sample_host "run" "llm" overlapping_calls).getLast? ∧
      s.state.get "run" (state_key "llm") = stored sample_host kept) ∧
    ∃ call before, s.calls 2 = some call ∧ before.Sublist (answered sample_host "run" "llm" overlapping_calls) ∧
      call.messages sample_host = sent sample_host before call.config call.inputs := by
  have hfold : (overlapping_calls.foldlM (conversation_step sample_host) idle).map (fun s =>
      ((s.state.get "run" (state_key "llm")).bind fun v => v.as_array.map List.length, (s.calls 2).map Call.run_id,
        (s.calls 2).map Call.node_id)) = some (some 3, some "run", some "llm") := by decide +kernel
  obtain ⟨s, hs, hread⟩ := Option.map_eq_some_iff.mp hfold
  simp only [Prod.mk.injEq] at hread
  obtain ⟨hlength, hrun_id, hnode_id⟩ := hread
  obtain ⟨call, hcall, hrun_id⟩ := Option.map_eq_some_iff.mp hrun_id
  rw [hcall, Option.map_some, Option.some.injEq] at hnode_id
  have hrun : transition.Run (conversation_step sample_host) (Undisturbed "run" "llm") idle overlapping_calls s := by
    refine transition.run_of_foldlM_allowed hs ?_
    intro action hmem state access haccess
    simp only [overlapping_calls, List.mem_cons, List.not_mem_nil, or_false] at hmem
    subst haccess
    rcases hmem with h | h | h | h | h | h <;> cases h
    decide
  obtain ⟨hkept, hwaiting⟩ := conversation_keeps hrun
  obtain ⟨before, hbefore, hmessages⟩ := hwaiting 2 call hcall ⟨hrun_id, hnode_id⟩
  exact ⟨s, hrun, hlength, hkept, call, before, hcall, hbefore, hmessages⟩

/-- A node that is run again over a back edge, with the results of its tools. -/
def calls_in_turn : List ConversationAction :=
  [.ask 0 "run" "llm" sample_config (.string "a"), .answer 0 (sample_response "to a"),
    .ask 1 "run" "llm" sample_config (.array [.string "c"])]

theorem conversation_serial_sample : ∃ s call, transition.Run (conversation_step sample_host) (Serial "run" "llm") idle
      calls_in_turn s ∧
    s.state.get "run" (state_key "llm") = stored sample_host (answered sample_host "run" "llm" calls_in_turn) ∧
    (answered sample_host "run" "llm" calls_in_turn).length = 1 ∧ s.calls 1 = some call ∧
    call.messages sample_host =
      sent sample_host (answered sample_host "run" "llm" calls_in_turn) call.config call.inputs := by
  have hserial (s : Conversations) (id : Nat) (inputs : Value) (hfree : ∀ id, s.calls id = none) :
      Serial "run" "llm" s (.ask id "run" "llm" sample_config inputs) := by
    refine ⟨fun access h => by (cases h), fun _ _ _ _ id' call hcall => ?_⟩
    rw [hfree] at hcall
    cases hcall
  let first : Call := ⟨"run", "llm", sample_config, .string "a", "mock", "m", idle.state.get "run" (state_key "llm")⟩
  let asked : Conversations := { idle with calls := Function.update idle.calls 0 (some first) }
  let replied : Conversations :=
    ⟨(end_call sample_host idle.state first (sample_response "to a")).1, Function.update asked.calls 0 none⟩
  let second : Call :=
    ⟨"run", "llm", sample_config, .array [.string "c"], "mock", "m", replied.state.get "run" (state_key "llm")⟩
  let again : Conversations := { replied with calls := Function.update replied.calls 1 (some second) }
  have hfree (id : Nat) : replied.calls id = none := by
    simp [replied, asked, idle, Function.update_idem]
  have hasked : transition.Run (conversation_step sample_host) (Serial "run" "llm") idle
      ([] ++ [.ask 0 "run" "llm" sample_config (.string "a")]) asked := .snoc .nil (hserial idle 0 (.string "a") fun _ => rfl) rfl
  have hreplied : transition.Run (conversation_step sample_host) (Serial "run" "llm") idle
      ([.ask 0 "run" "llm" sample_config (.string "a")] ++ [.answer 0 (sample_response "to a")]) replied :=
    .snoc hasked ⟨fun access h => by (cases h), fun id config inputs h => by (cases h)⟩ rfl
  have hrun : transition.Run (conversation_step sample_host) (Serial "run" "llm") idle
      ([.ask 0 "run" "llm" sample_config (.string "a"), .answer 0 (sample_response "to a")] ++
        [.ask 1 "run" "llm" sample_config (.array [.string "c"])]) again :=
    .snoc hreplied (hserial replied 1 (.array [.string "c"]) hfree) rfl
  obtain ⟨hstored, hwaiting⟩ := conversation_serial hrun
  exact ⟨again, second, hrun, hstored, rfl, rfl, hwaiting 1 second rfl ⟨rfl, rfl⟩⟩

end flow_engine.llm_call
