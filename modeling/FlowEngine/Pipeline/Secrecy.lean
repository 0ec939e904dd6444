import FlowEngine.Executor.Node
import FlowEngine.Executor.Runs
import FlowEngine.Pipeline.Masking

namespace flow_engine.write_pipeline

open executor

/-- Objects with the same keys whose fields differ at secret or personal ports only. -/
def AgreeButSensitive (ports : List PortDef) : Value → Value → Prop
  | .object first, .object second =>
    Map.Ascending first ∧ List.Forall₂ (fun a b => a.1 = b.1 ∧
      (a.2 = b.2 ∨ sensitivity_of ports a.1 = .secret ∨ sensitivity_of ports a.1 = .pii)) first second
  | _, _ => False

/-- The events that carry the inputs and outputs of an execution, with those of some edges. -/
def carries_data (observed : String → Bool) : WriteEvent → Bool
  | .NodeStarted .. | .NodeCompleted .. | .Checkpoint .. => true
  | .EdgeEvaluated _ _ edge_id .. => observed edge_id
  | _ => false

/-- These events as they go to the store. -/
def persisted (node_meta : String → Option NodeMeta) (observed : String → Bool) (events : List WriteEvent) :
    List (Option WriteEvent) :=
  (events.filter (carries_data observed)).map (redact_event default_redactor node_meta)

/-- What an event shows of an execution, the inputs or the outputs, with the ports it is of. -/
def shown (m : NodeMeta) : WriteEvent → Option (List PortDef × Value)
  | .NodeStarted _ _ _ inputs .. => some (m.inputs, inputs)
  | .NodeCompleted _ _ _ outputs _ => some (m.outputs, outputs)
  | .Checkpoint _ _ _ state_snapshot => some (m.outputs, state_snapshot)
  | .EdgeEvaluated _ _ _ _ _ data_summary => some (m.outputs, data_summary)
  | _ => none

variable {node_meta : String → Option NodeMeta} {observed : String → Bool}

variable {ctx : RunContext} {s : RunState} {task : Task} {timeout_ms : Nat} {retry : RetryPolicy}
variable {attempts : Nat → Attempt} {failures : Nat} {outputs : Value}

section Withheld

variable {m : NodeMeta}

/-- Objects that agree but for sensitive values are alike in the order of their keys. -/
theorem AgreeButSensitive.ascending {ports : List PortDef} {first second : Value} (h : AgreeButSensitive ports first second) :
    ∃ fields fields', first = .object fields ∧ second = .object fields' ∧ Map.Ascending fields ∧ Map.Ascending fields' := by
  cases first with
  | object fields =>
    cases second with
    | object fields' =>
      obtain ⟨hordered, hfields⟩ := h
      have hkeys : fields.map Prod.fst = fields'.map Prod.fst := by
        clear hordered
        induction hfields with
        | nil => rfl
        | cons hfield _ ih => rw [List.map_cons, List.map_cons, hfield.1, ih]
      have hascending : (fields.map Prod.fst).Pairwise (· < ·) := List.pairwise_map.mpr hordered
      rw [hkeys] at hascending
      exact ⟨fields, fields', rfl, rfl, hordered, List.pairwise_map.mp hascending⟩
    | _ => exact h.elim
  | _ => exact h.elim

/-- What an event of an execution shows: nothing, its inputs as it starts or its outputs as it
completes, which are redacted, or its outputs elsewhere, which are not. -/
inductive Shows (ctx : RunContext) (task : Task) (outputs : Value) (node_meta : String → Option NodeMeta) (m : NodeMeta) :
    WriteEvent → Prop where
  | nothing {event : WriteEvent} (hshown : shown m event = none) : Shows ctx task outputs node_meta m event
  | started (attempt : Nat) : Shows ctx task outputs node_meta m
      (.NodeStarted 0 ctx.run_id task.node_id task.inputs task.fan_out_index attempt)
  | completed : Shows ctx task outputs node_meta m (.NodeCompleted 0 ctx.run_id task.node_id outputs task.fan_out_index)
  | raw {event : WriteEvent} (hshown : shown m event = some (m.outputs, outputs))
      (hkept : redact_event default_redactor node_meta event = some event) : Shows ctx task outputs node_meta m event

end Withheld

/-- A node that takes a password and returns a token. -/
def login_meta : NodeMeta where
  node_type := "login"
  inputs := [⟨"user", .none⟩, ⟨"password", .secret⟩]
  outputs := [⟨"user", .none⟩, ⟨"token", .secret⟩]

def login_task (password : String) : Task where
  id := ⟨0, 0⟩
  node_id := "A"
  fan_out_index := none
  inputs := .object [("password", .string password), ("user", .string "u")]

def login_outputs (token : String) : Value := .object [("token", .string token), ("user", .string "u")]

/-- The first attempt fails and the second returns a token. -/
def login_attempts (token : String) (attempt : Nat) : Attempt where
  llm_records := []
  result := if attempt = 1 then .error (.Retryable "busy") else .ok (login_outputs token)

end flow_engine.write_pipeline
