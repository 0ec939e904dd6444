import FlowEngine.Executor.Ledger

namespace flow_engine.executor

/-- The outcome with which a task was joined. -/
def outcome_of (cs : List Completion) (id : TaskId) : Option NodeOutcome :=
  (cs.find? fun c => c.task = id).bind fun c =>
    match c.joined with
    | .returned outcome _ => some outcome
    | .panicked _ => none

/-- What the finished instances of a fan-out left, by the position of their item. -/
def slots (cs : List Completion) (activation : Nat) (items : List Value) : List (Option Value) :=
  (List.range items.length).map fun i => (outcome_of cs ⟨activation, i⟩).map (fan_out_result i)

/-- The array of all slots. -/
def gather (results : List (Option Value)) : Value := .array (results.map fun r => r.getD .null)

/-- A fan-out that `handle_fan_out_completion` reports complete, with the value it
reports. -/
structure Report where
  activation : Nat
  node_id : String
  value : Value

/-- What is reported when a task is joined. -/
def report (ctx : RunContext) (s : RunState) (c : Completion) : Option Report :=
  match s.running.find? fun task => task.id = c.task with
  | none => none
  | some task =>
    match task.fan_out_index, c.joined with
    | some index, .returned outcome _ =>
      match handle_fan_out_completion (joined ctx s c task) task.node_id index outcome with
      | .ok (_, some (node_id, value)) => some ⟨task.id.activation, node_id, value⟩
      | _ => none
    | _, _ => none

/-- All reports of a run that starts in `s`. -/
def reports (ctx : RunContext) : RunState → List Completion → List Report
  | _, [] => []
  | s, c :: rest => (report ctx s c).toList ++
    match next_state ctx s c with
    | some next => reports ctx next rest
    | none => []

theorem reports_append {ctx : RunContext} {allowed : RunState → Completion → Prop} {start s : RunState}
    {cs : List Completion} (hrun : transition.Run (next_state ctx) allowed start cs s) (more : List Completion) :
    reports ctx start (cs ++ more) = reports ctx start cs ++ reports ctx s more := by
  induction hrun generalizing more with
  | nil => rfl
  | @snoc cs s next c _ _ hstep ih =>
    rw [List.append_assoc, ih, ih, List.append_assoc]
    simp [reports, hstep]

theorem reports_snoc {ctx : RunContext} {allowed : RunState → Completion → Prop} {start s : RunState}
    {cs : List Completion} (hrun : transition.Run (next_state ctx) allowed start cs s) (c : Completion) :
    reports ctx start (cs ++ [c]) = reports ctx start cs ++ (report ctx s c).toList := by
  rw [reports_append hrun]
  cases hstep : next_state ctx s c <;> simp [reports, hstep]

section Report

variable {ctx : RunContext} {s : RunState} {c : Completion} {task : Task}
  (hfind : s.running.find? (fun task => task.id = c.task) = some task)
include hfind

theorem report_plain (hindex : task.fan_out_index = none) : report ctx s c = none := by
  simp [report, hfind, hindex]

variable {outcome : NodeOutcome} {records : List LlmInvocationRecord} {index : Nat} {state : FanOutState}
  (hjoined : c.joined = .returned outcome records) (hindex : task.fan_out_index = some index)
  (hstate : s.fan_out_states task.node_id = some state) (hbound : index < state.results.length)
include hjoined hindex hstate hbound

theorem report_kept (hmore : state.completed + 1 ≠ state.expected) : report ctx s c = none := by
  simp [report, hfind, hindex, hjoined, handle_fan_out_completion, hstate, hbound, hmore]

theorem report_fan_in (hlast : state.completed + 1 = state.expected) :
    report ctx s c = some ⟨task.id.activation, task.node_id, merged_output (fill_slot state index outcome)⟩ := by
  simp [report, hfind, hindex, hjoined, handle_fan_out_completion, hstate, hbound, hlast, merged_output, fill_slot]

end Report

section Outcome

variable {cs : List Completion} {c : Completion}

/-- A completion tells nothing about other tasks. -/
theorem outcome_of_snoc_other {id : TaskId} (hne : c.task ≠ id) :
    outcome_of (cs ++ [c]) id = outcome_of cs id := by
  simp [outcome_of, List.find?_append, hne]

/-- A task joined for the first time has the outcome it was joined with. -/
theorem outcome_of_snoc_self (hfresh : c.task ∉ cs.map Completion.task) {outcome : NodeOutcome}
    {records : List LlmInvocationRecord} (hjoined : c.joined = .returned outcome records) :
    outcome_of (cs ++ [c]) c.task = some outcome := by
  have hnone : cs.find? (fun other => other.task = c.task) = none := by
    rw [List.find?_eq_none]
    intro other hother
    simp only [decide_eq_true_eq]
    exact fun heq => hfresh (heq ▸ List.mem_map_of_mem hother)
  simp [outcome_of, List.find?_append, hnone, hjoined]

theorem outcome_of_eq_none {id : TaskId} (hfresh : id ∉ cs.map Completion.task) : outcome_of cs id = none := by
  have hnone : cs.find? (fun other => other.task = id) = none := by
    rw [List.find?_eq_none]
    intro other hother
    simp only [decide_eq_true_eq]
    exact fun heq => hfresh (heq ▸ List.mem_map_of_mem hother)
  simp [outcome_of, hnone]

@[simp] theorem slots_length (cs : List Completion) (activation : Nat) (items : List Value) :
    (slots cs activation items).length = items.length := by
  simp [slots]

theorem slots_getElem? (cs : List Completion) (activation : Nat) {items : List Value} {i : Nat}
    (hi : i < items.length) :
    (slots cs activation items)[i]? = some ((outcome_of cs ⟨activation, i⟩).map (fan_out_result i)) := by
  simp [slots, hi]

theorem slots_snoc_other {activation : Nat} (hne : c.task.activation ≠ activation) (items : List Value) :
    slots (cs ++ [c]) activation items = slots cs activation items := by
  unfold slots
  apply List.map_congr_left
  intro i _
  rw [outcome_of_snoc_other]
  intro heq
  exact hne (congrArg TaskId.activation heq)

/-- An instance fills the slot of its position. -/
theorem slots_snoc_self (hfresh : c.task ∉ cs.map Completion.task) {outcome : NodeOutcome}
    {records : List LlmInvocationRecord} (hjoined : c.joined = .returned outcome records) (items : List Value) :
    slots (cs ++ [c]) c.task.activation items =
      (slots cs c.task.activation items).set c.task.position (some (fan_out_result c.task.position outcome)) := by
  apply List.ext_getElem?
  intro i
  by_cases hi : i < items.length
  · rw [slots_getElem? _ _ hi, List.getElem?_set]
    by_cases heq : c.task.position = i
    · subst heq
      have hself := outcome_of_snoc_self hfresh hjoined
      simp [hself, hi]
    · rw [if_neg heq, slots_getElem? _ _ hi, outcome_of_snoc_other]
      intro htask
      exact heq (congrArg TaskId.position htask)
  · have hlong : items.length ≤ i := Nat.le_of_not_lt hi
    rw [List.getElem?_eq_none (by simpa using hlong), List.getElem?_eq_none (by simpa using hlong)]

/-- Filling an empty slot raises the number of filled ones by one. -/
theorem countP_slots_snoc (hfresh : c.task ∉ cs.map Completion.task) {outcome : NodeOutcome}
    {records : List LlmInvocationRecord} (hjoined : c.joined = .returned outcome records) {items : List Value}
    (hposition : c.task.position < items.length) :
    (slots (cs ++ [c]) c.task.activation items).countP Option.isSome =
      (slots cs c.task.activation items).countP Option.isSome + 1 := by
  have hlength : c.task.position < (slots cs c.task.activation items).length := by simpa using hposition
  have hnone : (slots cs c.task.activation items)[c.task.position] = none := by
    have hget := slots_getElem? cs c.task.activation hposition
    rw [outcome_of_eq_none hfresh, List.getElem?_eq_getElem hlength] at hget
    exact Option.some.inj hget
  rw [slots_snoc_self hfresh hjoined, List.countP_set hlength, hnone]
  simp

end Outcome

end flow_engine.executor
