import FlowEngine.Engine.Triggers
import FlowEngine.Lib.Fallible
import FlowEngine.Versioning.Current

namespace flow_engine.engine

open versioning (FlowStore get_at_version get_current)

/-- A resolved trigger dispatch ready for execution. -/
structure DispatchedRun where
  flow_id : String
  version_id : String
  graph : GraphDef
  inputs : Value
  source : TriggerSource

/-- The arguments of a call of `Executor::execute` for a trigger. -/
structure ExecutorCall where
  graph : GraphDef
  version_id : String
  inputs : Value
  source : TriggerSource

/-- A trigger event and what the store answers while it is processed: the version it resolves
to, and the current version of its flow. -/
structure Received where
  event : TriggerEvent
  version : Lookup
  current : Lookup

/-- The run that an event is dispatched to, if its version resolves. -/
def dispatched_run (r : Received) : Option DispatchedRun :=
  match r.version with
  | .ok (some version) => some ⟨r.event.flow_id, version.version_id, version.graph, r.event.inputs, r.event.source⟩
  | _ => none

/-- One pass of the loop of `TriggerDispatcher::run`: the keys seen so far and the run that is
pushed. -/
def dispatcher_pass (seen_keys : Finset String) (r : Received) : Finset String × Option DispatchedRun :=
  match r.event.idempotency_key with
  | some key => if key ∈ seen_keys then (seen_keys, none) else (insert key seen_keys, dispatched_run r)
  | none => (seen_keys, dispatched_run r)

/-- The passes of a loop over events, each with its event. -/
def passes {α : Type} (pass : Finset String → Received → Finset String × Option α) :
    Finset String → List Received → List (Received × Option α)
  | _, [] => []
  | seen_keys, r :: rest => (r, (pass seen_keys r).2) :: passes pass (pass seen_keys r).1 rest

/-- `TriggerDispatcher::run`: process trigger events until the channel closes. -/
def run (events : List Received) : List DispatchedRun := (passes dispatcher_pass ∅ events).filterMap Prod.snd

/-- `Engine::execute` as far as the call of the executor. -/
def executor_call (flow_id : String) (inputs : Value) (source : TriggerSource) (get_current : Lookup) :
    Except EngineError ExecutorCall :=
  match get_current with
  | .error e => .error (.Versioning e)
  | .ok none => .error (.FlowNotFound flow_id)
  | .ok (some version) => .ok ⟨version.graph, version.version_id, inputs, source⟩

theorem execute_eq (engine : Engine) (flow_id : String) (inputs : Value) (source : TriggerSource) (get_current : Lookup)
    (start : Start) :
    execute engine flow_id inputs get_current start =
      (executor_call flow_id inputs source get_current).bind fun call =>
        (execute_graph engine call.graph call.inputs start).mapError .Executor := by
  unfold execute executor_call
  cases get_current with
  | error e => rfl
  | ok found => cases found <;> rfl

/-- One pass of the dispatch loop of `Engine::start_triggers`. -/
def live_pass (seen_keys : Finset String) (r : Received) : Finset String × Option ExecutorCall :=
  match dispatch seen_keys r.event r.version with
  | (seen_keys, false) => (seen_keys, none)
  | (seen_keys, true) => (seen_keys, (executor_call r.event.flow_id r.event.inputs r.event.source r.current).toOption)

/-- What the dispatch loop hands to `Executor::execute`. -/
def live_calls (events : List Received) : List ExecutorCall := (passes live_pass ∅ events).filterMap Prod.snd

/-- The call that a dispatched run stands for. -/
def DispatchedRun.call (r : DispatchedRun) : ExecutorCall := ⟨r.graph, r.version_id, r.inputs, r.source⟩

/-- The part of a stored version that a run is started with. -/
def snapshot (version : versioning.FlowVersion GraphDef) : FlowVersion := ⟨version.version_id, version.graph⟩

/-- What a fixed store answers while an event is processed. -/
def received {State : Type} (store : FlowStore GraphDef State) (s : State) (event : TriggerEvent) : Received where
  event := event
  version :=
    match event.version_id with
    | some version_id => (get_at_version store s version_id).map fun found => found.map snapshot
    | none => (get_current store s event.flow_id).map fun found => found.map snapshot
  current := (get_current store s event.flow_id).map fun found => found.map snapshot

section Passes

variable {α : Type}

/-- The events that are not skipped as duplicates. -/
def admitted : Finset String → List Received → List Received
  | _, [] => []
  | seen_keys, r :: rest =>
    match r.event.idempotency_key with
    | some key => if key ∈ seen_keys then admitted seen_keys rest else r :: admitted (insert key seen_keys) rest
    | none => r :: admitted seen_keys rest

/-- A loop that remembers the key of each event and skips those whose key it has seen. -/
structure Deduplicates (pass : Finset String → Received → Finset String × Option α) (result : Received → Option α) : Prop where
  keyed : ∀ seen_keys r key, r.event.idempotency_key = some key →
    pass seen_keys r = if key ∈ seen_keys then (seen_keys, none) else (insert key seen_keys, result r)
  unkeyed : ∀ seen_keys r, r.event.idempotency_key = none → pass seen_keys r = (seen_keys, result r)

theorem dispatcher_deduplicates : Deduplicates dispatcher_pass dispatched_run := by
  constructor
  · intro seen_keys r key hkey
    simp only [dispatcher_pass, hkey]
  · intro seen_keys r hkey
    simp only [dispatcher_pass, hkey]

/-- The result of a pass of the live loop for an event that is not a duplicate. -/
def live_result (r : Received) : Option ExecutorCall :=
  match r.version with
  | .ok (some _) => (executor_call r.event.flow_id r.event.inputs r.event.source r.current).toOption
  | _ => none

theorem live_deduplicates : Deduplicates live_pass live_result := by
  constructor
  · intro seen_keys r key hkey
    by_cases hseen : key ∈ seen_keys
    · simp only [live_pass, dispatch, hkey, hseen, if_true]
    · simp only [live_pass, dispatch, hkey, hseen, if_false, live_result]
      cases r.version with
      | ok version => cases version <;> rfl
      | error e => rfl
  · intro seen_keys r hkey
    simp only [live_pass, dispatch, hkey, live_result]
    cases r.version with
    | ok version => cases version <;> rfl
    | error e => rfl

/-- Such a loop gives the results of the events that are no duplicates. -/
theorem Deduplicates.results {pass : Finset String → Received → Finset String × Option α} {result : Received → Option α}
    (h : Deduplicates pass result) (seen_keys : Finset String) (events : List Received) :
    (passes pass seen_keys events).filterMap Prod.snd = (admitted seen_keys events).filterMap result := by
  induction events generalizing seen_keys with
  | nil => rfl
  | cons r rest ih =>
    cases hkey : r.event.idempotency_key with
    | none =>
      simp only [passes, admitted, hkey, h.unkeyed seen_keys r hkey, List.filterMap_cons, ih]
    | some key =>
      by_cases hseen : key ∈ seen_keys
      · simp only [passes, admitted, hkey, h.keyed seen_keys r key hkey, hseen, if_true, List.filterMap_cons, ih]
      · simp only [passes, admitted, hkey, h.keyed seen_keys r key hkey, hseen, if_false, List.filterMap_cons, ih]

theorem mem_of_admitted {seen_keys : Finset String} {events : List Received} {r : Received}
    (h : r ∈ admitted seen_keys events) : r ∈ events := by
  induction events generalizing seen_keys with
  | nil => cases h
  | cons first rest ih =>
    have hrest : ∀ keys, r ∈ first :: admitted keys rest → r ∈ first :: rest := fun keys hmem =>
      (List.mem_cons.mp hmem).elim (fun heq => heq ▸ List.mem_cons_self) fun hin => List.mem_cons_of_mem _ (ih hin)
    simp only [admitted] at h
    split at h
    · split at h
      · exact List.mem_cons_of_mem _ (ih h)
      · exact hrest _ h
    · exact hrest _ h

end Passes

/-- The live loop calls the executor for no event that is not dispatched. -/
theorem dispatched_of_live {r : Received} (h : (live_result r).isSome = true) : (dispatched_run r).isSome = true := by
  unfold live_result at h
  split at h
  · rename_i heq
    simp only [dispatched_run, heq, Option.isSome_some]
  · cases h

/-- The flow of a pinned event has a current version like the one it is pinned to. -/
def PinnedToCurrent {State : Type} (store : FlowStore GraphDef State) (s : State) (event : TriggerEvent) : Prop :=
  ∀ version_id, event.version_id = some version_id → ∀ version, get_at_version store s version_id = .ok (some version) →
    ∃ current, get_current store s event.flow_id = .ok (some current) ∧ current.graph = version.graph ∧
      current.version_id = version.version_id

/-- The store's calls for an event succeed. -/
structure Succeeds {State : Type} (store : FlowStore GraphDef State) (s : State) (event : TriggerEvent) : Prop where
  get_current : ∃ found, get_current store s event.flow_id = .ok found
  get_at_version : ∀ version_id, event.version_id = some version_id → ∃ found, get_at_version store s version_id = .ok found

theorem live_result_eq_iff {State : Type} {store : FlowStore GraphDef State} {s : State} {event : TriggerEvent}
    (hsucceeds : Succeeds store s event) :
    live_result (received store s event) = (dispatched_run (received store s event)).map DispatchedRun.call ↔
      PinnedToCurrent store s event := by
  obtain ⟨current, hcurrent⟩ := hsucceeds.get_current
  cases hpin : event.version_id with
  | none =>
    refine iff_of_true ?_ fun version_id h => by cases hpin.symm.trans h
    simp only [live_result, dispatched_run, received, hpin, hcurrent, Except.map]
    cases current <;> rfl
  | some version_id =>
    obtain ⟨found, hversion⟩ := hsucceeds.get_at_version version_id hpin
    simp only [PinnedToCurrent, hpin, Option.some.injEq, forall_eq', hversion, hcurrent]
    simp only [live_result, dispatched_run, received, hpin, hversion, hcurrent, Except.map]
    cases found with
    | none => simp
    | some version =>
      cases current with
      | none => simp [executor_call, Except.toOption]
      | some current =>
        simp [executor_call, Except.toOption, DispatchedRun.call, snapshot]

/-- The live loop hands to the executor what the dispatcher dispatches exactly if no event that
is not a duplicate is pinned to another version than the current one. -/
theorem live_calls_eq_iff {State : Type} {store : FlowStore GraphDef State} {s : State} {events : List TriggerEvent}
    (hsucceeds : ∀ event ∈ events, Succeeds store s event) :
    live_calls (events.map (received store s)) = (run (events.map (received store s))).map DispatchedRun.call ↔
      ∀ r ∈ admitted ∅ (events.map (received store s)), PinnedToCurrent store s r.event := by
  have hdispatched : (run (events.map (received store s))).map DispatchedRun.call =
      (admitted ∅ (events.map (received store s))).filterMap fun r => (dispatched_run r).map DispatchedRun.call := by
    rw [run, dispatcher_deduplicates.results, List.map_filterMap]
  rw [live_calls, live_deduplicates.results, hdispatched, fallible.filterMap_eq_iff fun r _ h => ?more]
  case more => simpa using dispatched_of_live h
  refine forall₂_congr fun r hmem => ?_
  obtain ⟨event, hevent, rfl⟩ := List.mem_map.mp (mem_of_admitted hmem)
  exact live_result_eq_iff (hsucceeds event hevent)

/-- A store in which a flow has two versions, the second of which is current. -/
def sample_store : FlowStore GraphDef versioning.file_store.FileFlowStore :=
  versioning.file_store.flow_store versioning.sample_serde

def sample_state : versioning.file_store.FileFlowStore := versioning.sample_saves versioning.sample_history

/-- An event that may be pinned to a version. -/
def sample_event (version_id : Option String) : TriggerEvent :=
  ⟨"flow", version_id, .null, .manual "user", none⟩

theorem sample_succeeds (version_id : Option String) (h : version_id = none ∨ version_id = some (versioning.sample_id "A")) :
    Succeeds sample_store sample_state (sample_event version_id) := by
  constructor
  · exact fallible.exists_ok_of_isOk (r := get_current sample_store sample_state "flow") (by decide +kernel)
  · rintro id rfl
    obtain hid | hid := h
    · cases hid
    · cases hid
      exact fallible.exists_ok_of_isOk (by decide +kernel)

theorem live_calls_eq_iff_sample :
    live_calls ([sample_event none].map (received sample_store sample_state)) =
        (run ([sample_event none].map (received sample_store sample_state))).map DispatchedRun.call ↔
      ∀ r ∈ admitted ∅ ([sample_event none].map (received sample_store sample_state)),
        PinnedToCurrent sample_store sample_state r.event := by
  refine live_calls_eq_iff fun event hmem => ?_
  rw [List.mem_singleton.mp hmem]
  exact sample_succeeds none (.inl rfl)

/-- For an event that is pinned to the first version the live loop executes the second one. -/
theorem pinned_version_not_executed :
    Succeeds sample_store sample_state (sample_event (some (versioning.sample_id "A"))) ∧
    live_calls ([sample_event (some (versioning.sample_id "A"))].map (received sample_store sample_state)) ≠
      (run ([sample_event (some (versioning.sample_id "A"))].map (received sample_store sample_state))).map DispatchedRun.call := by
  refine ⟨sample_succeeds _ (.inr rfl), fun hsame => ?_⟩
  have hlive : (live_calls ([sample_event (some (versioning.sample_id "A"))].map (received sample_store sample_state))).map
      (fun call => call.graph.id) = ["B"] := by decide +kernel
  have hdispatched : ((run ([sample_event (some (versioning.sample_id "A"))].map (received sample_store sample_state))).map
      DispatchedRun.call).map (fun call => call.graph.id) = ["A"] := by decide +kernel
  rw [hsame, hdispatched] at hlive
  exact absurd hlive (by decide)

end flow_engine.engine
