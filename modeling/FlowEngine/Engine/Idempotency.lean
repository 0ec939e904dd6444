import FlowEngine.Engine.Dispatch

namespace flow_engine.engine

/-- The event has an idempotency key. -/
def has_key (key : String) (r : Received) : Bool := r.event.idempotency_key = some key

/-- The event is for a flow and has an idempotency key. -/
def is_for (flow_id key : String) (r : Received) : Bool := r.event.flow_id = flow_id && has_key key r

/-- The event's version, or its flow's head, was present and readable. -/
def Resolvable (r : Received) : Prop := ∃ version, r.version = .ok (some version)

/-- The runs that `TriggerDispatcher::run` dispatches for some of its events. -/
def runs_of (wanted : Received → Bool) (events : List Received) : List DispatchedRun :=
  (passes dispatcher_pass ∅ events).filterMap fun p => if wanted p.1 then p.2 else none

/-- The runs for some events are the results of those of them that are no duplicates. -/
theorem results_of (wanted : Received → Bool) (seen_keys : Finset String) (events : List Received) :
    ((passes dispatcher_pass seen_keys events).filterMap fun p => if wanted p.1 then p.2 else none) =
      ((admitted seen_keys events).filter wanted).filterMap dispatched_run := by
  induction events generalizing seen_keys with
  | nil => rfl
  | cons r rest ih =>
    have hadmit : ∀ keys result, result = dispatched_run r →
        ((r, result) :: passes dispatcher_pass keys rest).filterMap (fun p => if wanted p.1 then p.2 else none) =
          ((r :: admitted keys rest).filter wanted).filterMap dispatched_run := by
      rintro keys _ rfl
      by_cases hwanted : wanted r = true
      · simp only [List.filterMap_cons, List.filter_cons, hwanted, if_true, ih]
      · simp only [List.filterMap_cons, List.filter_cons, hwanted, Bool.false_eq_true, if_false, ih]
    cases hkey : r.event.idempotency_key with
    | none =>
      simp only [passes, admitted, hkey, dispatcher_deduplicates.unkeyed seen_keys r hkey]
      exact hadmit seen_keys _ rfl
    | some key =>
      by_cases hseen : key ∈ seen_keys
      · simp only [passes, admitted, hkey, dispatcher_deduplicates.keyed seen_keys r key hkey, hseen, if_true,
          List.filterMap_cons, ite_self, ih]
      · simp only [passes, admitted, hkey, dispatcher_deduplicates.keyed seen_keys r key hkey, hseen, if_false]
        exact hadmit _ _ rfl

/-- Of the events with a key the first is admitted, unless the key has been seen. -/
theorem admitted_with_key (key : String) (seen_keys : Finset String) (events : List Received) :
    (admitted seen_keys events).filter (has_key key) =
      if key ∈ seen_keys then [] else (events.find? (has_key key)).toList := by
  induction events generalizing seen_keys with
  | nil => simp [admitted]
  | cons r rest ih =>
    cases hkey : r.event.idempotency_key with
    | none =>
      have hother : has_key key r = false := by simp [has_key, hkey]
      simp only [admitted, hkey, List.filter_cons, List.find?_cons, hother, ih]
      rfl
    | some other =>
      by_cases hsame : other = key
      · subst hsame
        have hwanted : has_key other r = true := by simp [has_key, hkey]
        by_cases hseen : other ∈ seen_keys
        · simp only [admitted, hkey, hseen, if_true, ih]
        · simp only [admitted, hkey, hseen, if_false, List.filter_cons, List.find?_cons, hwanted, if_true, ih,
            Finset.mem_insert_self, Option.toList_some]
      · have hother : has_key key r = false := by simp [has_key, hkey, hsame]
        have hkeys : key ∈ insert other seen_keys ↔ key ∈ seen_keys := by
          simp only [Finset.mem_insert, or_iff_right_iff_imp]
          exact fun heq => absurd heq.symm hsame
        by_cases hseen : other ∈ seen_keys
        · simp only [admitted, hkey, hseen, if_true, List.find?_cons, hother, ih]
        · simp only [admitted, hkey, hseen, if_false, List.filter_cons, List.find?_cons, hother, Bool.false_eq_true, ih, hkeys]

/-- The runs for a flow and a key are those of the first event with the key, if it is for the
flow. -/
theorem runs_of_is_for (events : List Received) (flow_id key : String) :
    runs_of (is_for flow_id key) events =
      ((events.find? (has_key key)).toList.filter fun r => r.event.flow_id = flow_id).filterMap dispatched_run := by
  have hsplit : (admitted ∅ events).filter (is_for flow_id key) =
      ((admitted ∅ events).filter (has_key key)).filter fun r => r.event.flow_id = flow_id := by
    rw [List.filter_filter]
    rfl
  rw [runs_of, results_of, hsplit, admitted_with_key, if_neg (Finset.notMem_empty key)]

/-- For each flow and key at most one run is dispatched, and exactly one if the first event with
the key is for the flow and could be resolved. -/
theorem dispatched_once (events : List Received) (flow_id key : String) :
    (runs_of (is_for flow_id key) events).length ≤ 1 ∧
      ((∃ r, events.find? (has_key key) = some r ∧ r.event.flow_id = flow_id ∧ Resolvable r) →
        (runs_of (is_for flow_id key) events).length = 1) := by
  rw [runs_of_is_for]
  constructor
  · refine (List.length_filterMap_le _ _).trans ((List.length_filter_le _ _).trans ?_)
    cases events.find? (has_key key) <;> simp
  · rintro ⟨r, hfirst, rfl, version, hversion⟩
    simp [hfirst, dispatched_run, hversion]

/-- An event with a key for a flow, and what it resolves to. -/
def keyed_event (flow_id key : String) (version : Lookup) : Received where
  event := ⟨flow_id, none, .null, .manual "user", some key⟩
  version := version
  current := version

def found_sample : Lookup := .ok (some ⟨"v1", ⟨"flow", [], []⟩⟩)

theorem dispatched_once_sample :
    (runs_of (is_for "flow" "k") [keyed_event "flow" "k" found_sample, keyed_event "flow" "k" found_sample]).length = 1 :=
  (dispatched_once _ "flow" "k").2 ⟨_, rfl, rfl, _, rfl⟩

/-- An event that could be resolved is not dispatched after one of another flow with its key,
nor after a delivery of it that could not be resolved. -/
theorem resolvable_events_not_dispatched :
    (Resolvable (keyed_event "flow" "k" found_sample) ∧
      runs_of (is_for "flow" "k") [keyed_event "other" "k" found_sample, keyed_event "flow" "k" found_sample] = []) ∧
    runs_of (is_for "flow" "k")
      [keyed_event "flow" "k" (.error "failed to read flow head"), keyed_event "flow" "k" found_sample] = [] :=
  ⟨⟨⟨_, rfl⟩, rfl⟩, rfl⟩

end flow_engine.engine
