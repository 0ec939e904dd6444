import FlowEngine.Stores.Reconstruct
import Mathlib.Data.List.Dedup
import Std.Data.TreeMap.Basic

namespace flow_engine

/-- Persistence for execution records, over what an implementation keeps. An error is the
message of a `RunStoreError`. A store that does not count runs by version returns an empty map. -/
structure RunStore (State : Type) where
  write_batch : State → List StampedEvent → Except String State
  events : State → String → Except String (List StampedEvent)
  get_run : State → String → Except String (Option RunRecord)
  list_runs : State → RunFilter → Except String RunPage
  get_node_results : State → String → Except String (List NodeRunResult)
  get_edge_results : State → String → Except String (List EdgeRunResult)
  get_custom_events : State → String → Except String (List CustomEventRecord)
  get_llm_invocations : State → String → Except String (List StoredLlmInvocation)
  count_runs_by_version : State → String → Except String (Std.TreeMap String Nat) := fun _ _ => .ok ∅

/-- `serde_json` on write events: as a line of text and as a value. -/
structure Serde where
  to_string : StampedEvent → Except String String
  from_str : String → Except String StampedEvent
  to_value : StampedEvent → Except String Value
  from_value : Value → Except String StampedEvent

/-- The events of a batch by run. The order of the map is not specified; no two groups have
anything in common. -/
def group_by_run (events : List StampedEvent) : List (String × List StampedEvent) :=
  (events.map StampedEvent.run_id).dedup.map fun run_id => (run_id, events.filter fun event => event.run_id = run_id)

/-- The synthetic completion of an interrupted run. -/
def interrupted_event (run_id : String) (timestamp : Int) : StampedEvent where
  event := .RunCompleted (2 ^ 64 - 1) run_id .Interrupted none
  timestamp
  duration_ms := some 0
  in_u64 := (by decide : 2 ^ 64 - 1 < 2 ^ 64)
  measured := rfl

/-- Mark a run as interrupted (crash recovery). -/
def RunStore.mark_interrupted {State : Type} (store : RunStore State) (s : State) (run_id : String) (timestamp : Int) :
    Except String State :=
  store.write_batch s [interrupted_event run_id timestamp]

end flow_engine
