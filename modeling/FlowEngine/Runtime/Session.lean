import FlowEngine.Pipeline.Runs
import FlowEngine.Pipeline.Secrecy

namespace flow_engine.runtime

open write_pipeline

/-- Configuration for a new session, without the store. -/
structure ExecutionConfig where
  session_name : Option String
  redactor : Redactor
  metadata : List (String × Value)
  pipeline_config : WritePipelineConfig
  critical_capacity : Nat
  advisory_capacity : Nat
  version_id : Option String
  config_hash : Option String
  triggered_by : Option TriggerSource
  trigger_inputs : Option Value
  parent_run_id : Option String

/-- The pipeline `ExecutionSession::start` builds, over a store that fails as given. -/
def session_pipeline (config : ExecutionConfig) (fails : Nat → Bool) : WritePipeline where
  config := config.pipeline_config
  capacity
    | .critical => config.critical_capacity
    | .advisory => config.advisory_capacity
  redactor := config.redactor
  node_meta _ := none
  fails

/-- The first event of a session. -/
def run_started (config : ExecutionConfig) (run_id : String) : WriteEvent :=
  .RunStarted 0 run_id (config.session_name.getD "session") (config.version_id.getD "standalone")
    (config.trigger_inputs.getD (.object config.metadata)) (config.triggered_by.getD (.manual "session"))
    config.config_hash config.parent_run_id

/-- The session `Executor::execute` starts for a graph. -/
def execute_config (redactor : Redactor) (pipeline_config : WritePipelineConfig) (config_hash : GraphDef → String) (graph : GraphDef)
    (version_id : String) (inputs : Value) (trigger_source : TriggerSource) (parent_run_id : Option String) :
    ExecutionConfig where
  session_name := some graph.id
  redactor
  metadata := []
  pipeline_config
  critical_capacity := 1000
  advisory_capacity := 1000
  version_id := some version_id
  config_hash := some (config_hash graph)
  triggered_by := some trigger_source
  trigger_inputs := some inputs
  parent_run_id

/-- The node an event reports the inputs or outputs of, the ports these belong to, and their value. -/
def node_payload : WriteEvent → Option (String × (NodeMeta → List PortDef) × Value)
  | .NodeStarted _ _ node_id inputs _ _ => some (node_id, NodeMeta.inputs, inputs)
  | .NodeCompleted _ _ node_id outputs _ => some (node_id, NodeMeta.outputs, outputs)
  | _ => none

/-- The value under each key of an object is redacted as the ports declare it. -/
def PortsEnforced (redactor : Redactor) (ports : List PortDef) (original stored : Value) : Prop :=
  ∀ fields, original = .object fields → ∀ port value, fields.lookup port = some value →
    ∃ kept, stored.get port = some kept ∧
      if sensitivity_of ports port = .none then kept = value
      else redactor.redact port (sensitivity_of ports port) value = some kept

/-- Redaction would change none of the values. -/
def PortsUntouched (redactor : Redactor) (ports : List PortDef) (original : Value) : Prop :=
  ∀ fields, original = .object fields → ∀ port value, fields.lookup port = some value →
    sensitivity_of ports port ≠ .none → redactor.redact port (sensitivity_of ports port) value = some value

/-- What holds of the ports of the handlers that are registered for a node. -/
def ForHandlers (graph : GraphDef) (node_registry : String → Option NodeMeta) (node_id : String)
    (P : NodeMeta → Prop) : Prop :=
  ∀ node ∈ graph.nodes, node.instance_id = node_id → ∀ m, node_registry node.node_type = some m → P m

/-- A stored event obeys the port sensitivities that the handlers of its node declare. -/
def Enforced (redactor : Redactor) (graph : GraphDef) (node_registry : String → Option NodeMeta)
    (original stored : WriteEvent) : Prop :=
  ∀ node_id ports value, node_payload original = some (node_id, ports, value) →
    ∃ kept, node_payload stored = some (node_id, ports, kept) ∧
      ForHandlers graph node_registry node_id fun m => PortsEnforced redactor (ports m) value kept

/-- An event carries no value that redaction would change. -/
def Untouched (redactor : Redactor) (graph : GraphDef) (node_registry : String → Option NodeMeta)
    (original : WriteEvent) : Prop :=
  ∀ node_id ports value, node_payload original = some (node_id, ports, value) →
    ForHandlers graph node_registry node_id fun m => PortsUntouched redactor (ports m) value

variable {redactor : Redactor} {graph : GraphDef} {node_registry : String → Option NodeMeta}

theorem ports_enforced_self_iff (ports : List PortDef) (value : Value) :
    PortsEnforced redactor ports value value ↔ PortsUntouched redactor ports value := by
  constructor
  · rintro henforced fields rfl port kept hlookup hsensitive
    obtain ⟨stored, hget, hredact⟩ := henforced fields rfl port kept hlookup
    rw [if_neg hsensitive] at hredact
    rw [Value.get_object, hlookup] at hget
    cases hget
    exact hredact
  · rintro huntouched fields rfl port value hlookup
    refine ⟨value, hlookup, ?_⟩
    split
    · rfl
    · rename_i hsensitive
      exact huntouched fields rfl port value hlookup hsensitive

/-- An event that is stored as it was sent obeys the sensitivities exactly if redaction would
not have changed it. -/
theorem enforced_iff_untouched {original stored : WriteEvent} (hsame : node_payload stored = node_payload original) :
    Enforced redactor graph node_registry original stored ↔ Untouched redactor graph node_registry original := by
  constructor
  · intro henforced node_id ports value hpayload node hnode hid m hm
    obtain ⟨kept, hkept, hports⟩ := henforced node_id ports value hpayload
    rw [hsame, hpayload] at hkept
    cases hkept
    exact (ports_enforced_self_iff _ _).mp (hports node hnode hid m hm)
  · intro huntouched node_id ports value hpayload
    refine ⟨value, by rw [hsame, hpayload], ?_⟩
    intro node hnode hid m hm
    exact (ports_enforced_self_iff _ _).mpr (huntouched node_id ports value hpayload node hnode hid m hm)

/-- Without metadata the payloads of node events pass through redaction. -/
theorem redact_event_payload {event redacted : WriteEvent}
    (h : redact_event redactor (fun _ => none) event = some redacted) : node_payload redacted = node_payload event := by
  cases redact_event_cases h with
  | node_started hmeta => cases hmeta
  | node_completed hmeta => cases hmeta
  | llm_invocation => rfl
  | custom hmeta => cases hmeta
  | unchanged => rfl

theorem copy_payload {config : ExecutionConfig} {fails : Nat → Bool} {least : Nat} {entry : Entry}
    (h : Copy (session_pipeline config fails) least entry) : node_payload entry.event = node_payload entry.source.event := by
  obtain ⟨n, _, hn⟩ := h
  exact redact_times_kept (fun _ _ => redact_event_payload) hn

/-- The action stores no node event with a value that redaction would change. -/
def StoresUntouched (p : WritePipeline) (graph : GraphDef) (node_registry : String → Option NodeMeta)
    (s : PipelineState) (action : PipelineAction) : Prop :=
  ∀ entry ∈ s.storing p action, Untouched p.redactor graph node_registry entry.source.event

theorem storing_copy {p : WritePipeline} {s : PipelineState} (h : Sound p s) {action : PipelineAction} {entry : Entry}
    (hmem : entry ∈ s.storing p action) : Copy p 1 entry := by
  cases action with
  | proceed elapsed =>
    simp only [PipelineState.storing] at hmem
    split at hmem
    · cases hmem
    · exact h.conserved.flushing entry hmem
  | _ => cases hmem

/-- In a run of a session's pipeline every stored node event obeys the sensitivities that the
handler of its node declares exactly if no step stores one that redaction would change. -/
theorem sensitivities_enforced_iff {config : ExecutionConfig} {fails : Nat → Bool} {actions : List PipelineAction}
    {s : PipelineState} (hrun : PipelineRun (session_pipeline config fails) actions s) :
    (∀ entry ∈ s.stored, Enforced config.redactor graph node_registry entry.source.event entry.event) ↔
      transition.Run (pipeline_step (session_pipeline config fails))
        (StoresUntouched (session_pipeline config fails) graph node_registry) (spawn (session_pipeline config fails))
        actions s := by
  have hgood := hrun.holds_iff_good
    (fun s => ∀ entry ∈ s.stored, Enforced config.redactor graph node_registry entry.source.event entry.event)
    (StoresUntouched (session_pipeline config fails) graph node_registry) (by simp [spawn]) ?step
  case step =>
    intro _ s action next run _ hstep
    rw [pipeline_step_stored hstep]
    simp only [List.forall_mem_append]
    refine and_congr_right fun _ => forall₂_congr fun entry hmem => ?_
    exact enforced_iff_untouched (copy_payload (storing_copy (run_sound run) hmem))
  refine hgood.trans ⟨?_, ?_⟩
  · exact transition.Run.mono fun _ _ h => h.2
  · exact transition.Run.mono fun _ _ h => ⟨trivial, h⟩

/-- A flow of one login node, whose password and token are secret. -/
def login_flow : executor.RunContext where
  run_id := "run"
  graph := ⟨"flow", [⟨"A", "login", .null⟩], []⟩
  inputs := (login_task "p").inputs
  node_registry node_type := if node_type = "login" then some login_meta else none
  max_traversals := 1
  f64 := executor.no_f64

def login_config : ExecutionConfig :=
  execute_config default_redactor (.default fun _ => true) (fun _ => "hash") login_flow.graph "version"
    login_flow.inputs (.manual "user") none

def login_pipeline : WritePipeline := session_pipeline login_config fun _ => false

/-- What the session and the tasks of the entry nodes write, each write followed by its send. -/
def login_writes : List PipelineAction :=
  (run_started login_config "run" :: (executor.initial_state login_flow).running.flatMap fun task =>
    (executor.execute_node "run" task 1000 ⟨2, none⟩ (login_attempts "t")).1).flatMap fun event => [.write event, .send 0]

def login_actions : List PipelineAction := login_writes ++ List.replicate 19 (.proceed false)

/-- The password in a start of the login node. -/
def started_password : WriteEvent → Option String
  | .NodeStarted _ _ node_id (.object fields) _ _ =>
    match fields.lookup "password" with
    | some (.string password) => if node_id = "A" then some password else none
    | _ => none
  | _ => none

theorem started_password_eq {event : WriteEvent} {password : String} (h : started_password event = some password) :
    ∃ fields, node_payload event = some ("A", NodeMeta.inputs, .object fields) ∧
      fields.lookup "password" = some (.string password) := by
  unfold started_password at h
  split at h
  · split at h
    · rename_i hlookup
      split at h
      · rename_i hnode
        cases h
        exact ⟨_, by rw [hnode]; rfl, hlookup⟩
      · cases h
    · cases h
  · cases h

theorem login_run : ∃ s, PipelineRun login_pipeline login_actions s ∧
    (s.stored.map fun entry => started_password entry.event) = [none, some "p", none, some "p", none, none] := by
  have hstored : ((login_actions.foldlM (pipeline_step login_pipeline) (spawn login_pipeline)).map fun s =>
      s.stored.map fun entry => started_password entry.event) = some [none, some "p", none, some "p", none, none] := by
    decide +kernel
  obtain ⟨s, hfold, hpasswords⟩ := Option.map_eq_some_iff.mp hstored
  exact ⟨s, transition.run_of_foldlM hfold, hpasswords⟩

theorem sensitivities_enforced_iff_sample : ∃ s, PipelineRun login_pipeline login_actions s ∧ s.stored.length = 6 ∧
    ((∀ entry ∈ s.stored,
        Enforced default_redactor login_flow.graph login_flow.node_registry entry.source.event entry.event) ↔
      transition.Run (pipeline_step login_pipeline)
        (StoresUntouched login_pipeline login_flow.graph login_flow.node_registry) (spawn login_pipeline)
        login_actions s) := by
  obtain ⟨s, hrun, hpasswords⟩ := login_run
  exact ⟨s, hrun, by simpa using congrArg List.length hpasswords, sensitivities_enforced_iff hrun⟩

/-- The store holds the password of the login node as it was entered. -/
theorem secret_port_stored_unredacted : ∃ s entry, PipelineRun login_pipeline login_actions s ∧ entry ∈ s.stored ∧
    started_password entry.event = some "p" ∧ sensitivity_of login_meta.inputs "password" = .secret ∧
    ¬ Enforced default_redactor login_flow.graph login_flow.node_registry entry.source.event entry.event := by
  obtain ⟨s, hrun, hpasswords⟩ := login_run
  have hmem : some "p" ∈ s.stored.map fun entry => started_password entry.event := by simp [hpasswords]
  obtain ⟨entry, hentry, hpassword⟩ := List.mem_map.mp hmem
  refine ⟨s, entry, hrun, hentry, hpassword, by decide, fun henforced => ?_⟩
  obtain ⟨fields, hpayload, hlookup⟩ := started_password_eq hpassword
  have hsource := copy_payload ((run_sound hrun).conserved.stored entry hentry)
  obtain ⟨kept, hkept, hports⟩ := henforced "A" NodeMeta.inputs (.object fields) (hsource ▸ hpayload)
  rw [hpayload] at hkept
  cases hkept
  obtain ⟨value, hget, hredact⟩ := hports ⟨"A", "login", .null⟩ (by simp [login_flow]) rfl login_meta (by simp [login_flow])
    fields rfl "password" _ hlookup
  rw [Value.get_object, hlookup] at hget
  cases hget
  have hsecret : sensitivity_of login_meta.inputs "password" = .secret := by decide
  rw [if_neg (by rw [hsecret]; simp), hsecret] at hredact
  simp [default_redactor, DefaultRedactor.redact] at hredact

end flow_engine.runtime
