import FlowEngine.Lib.Transition
import Mathlib.Logic.Function.Basic

namespace register

open transition (Run trace)

variable {Value Op : Type*}

/-- A register that clients read, to write back later what they make of the value they saw. -/
structure Register (Value : Type*) where
  value : Value
  seen : Nat → Option Value

inductive RegisterAction (Value Op : Type*) where
  | read (id : Nat)
  | write (id : Nat) (op : Op)
  | abandon (id : Nat)
  | assign (value : Value)

def register_step (apply : Value → Op → Value) (s : Register Value) : RegisterAction Value Op → Option (Register Value)
  | .read id => if (s.seen id).isSome then none else some { s with seen := Function.update s.seen id (some s.value) }
  | .write id op => (s.seen id).map fun value => ⟨apply value op, Function.update s.seen id none⟩
  | .abandon id => (s.seen id).map fun _ => { s with seen := Function.update s.seen id none }
  | .assign value => some { s with value }

/-- Nobody has read the register. -/
def unread (value : Value) : Register Value := ⟨value, fun _ => none⟩

def written_at (_ : Register Value) : RegisterAction Value Op → Option Op
  | .write _ op => some op
  | .read _ | .abandon _ | .assign _ => none

abbrev written (apply : Value → Op → Value) (start : Register Value) : List (RegisterAction Value Op) → List Op :=
  trace (register_step apply) written_at start

/-- Only clients that have read the register write to it. -/
def Unassigned (_ : Register Value) (action : RegisterAction Value Op) : Prop := ∀ value, action ≠ .assign value

/-- Besides, a client reads only when no other is about to write. -/
def Alone (s : Register Value) (action : RegisterAction Value Op) : Prop :=
  Unassigned s action ∧ ∀ id, action = .read id → ∀ id', s.seen id' = none

/-- What one step does to a register without assignments. -/
theorem register_moves {apply : Value → Op → Value} {s next : Register Value} {action : RegisterAction Value Op}
    (hallowed : Unassigned s action) (h : register_step apply s action = some next) :
    (∃ id, action = .read id ∧ next = { s with seen := Function.update s.seen id (some s.value) }) ∨
      (∃ id op value, action = .write id op ∧ s.seen id = some value ∧
        next = ⟨apply value op, Function.update s.seen id none⟩) ∨
      ∃ id, action = .abandon id ∧ next = { s with seen := Function.update s.seen id none } := by
  cases action with
  | read id =>
    simp only [register_step] at h
    split at h
    · cases h
    · cases h
      exact .inl ⟨id, rfl, rfl⟩
  | write id op =>
    obtain ⟨value, hseen, rfl⟩ := Option.map_eq_some_iff.mp h
    exact .inr (.inl ⟨id, op, value, rfl, hseen, rfl⟩)
  | abandon id =>
    obtain ⟨value, _, rfl⟩ := Option.map_eq_some_iff.mp h
    exact .inr (.inr ⟨id, rfl, rfl⟩)
  | assign value => exact absurd rfl (hallowed value)

/-- A value that some of the operations have made, in their order. -/
def Woven (apply : Value → Op → Value) (start : Value) (ops : List Op) (value : Value) : Prop :=
  ∃ kept : List Op, kept.Sublist ops ∧ value = kept.foldl apply start

theorem Woven.later {apply : Value → Op → Value} {start value : Value} {ops : List Op} (h : Woven apply start ops value)
    (more : List Op) : Woven apply start (ops ++ more) value := by
  obtain ⟨kept, hkept, hvalue⟩ := h
  exact ⟨kept, hkept.trans (List.sublist_append_left ops more), hvalue⟩

/-- Whoever is still to write after one client is done is another one. -/
theorem seen_of_done {seen : Nat → Option Value} {id id' : Nat} {value : Value}
    (h : Function.update seen id none id' = some value) : id' ≠ id ∧ seen id' = some value := by
  by_cases hid : id' = id
  · subst hid
    rw [Function.update_self] at h
    cases h
  · exact ⟨hid, by rwa [Function.update_of_ne hid] at h⟩

/-- A client that is to write is the one that has just read, or was to write before. -/
theorem seen_of_read {seen : Nat → Option Value} {id id' : Nat} {current value : Value}
    (h : Function.update seen id (some current) id' = some value) :
    (id' = id ∧ value = current) ∨ (id' ≠ id ∧ seen id' = some value) := by
  by_cases hid : id' = id
  · subst hid
    rw [Function.update_self] at h
    cases h
    exact .inl ⟨rfl, rfl⟩
  · exact .inr ⟨hid, by rwa [Function.update_of_ne hid] at h⟩

variable {apply : Value → Op → Value} {start : Value} {actions : List (RegisterAction Value Op)} {s : Register Value}

theorem written_snoc {allowed : Register Value → RegisterAction Value Op → Prop}
    (hrun : Run (register_step apply) allowed (unread start) actions s) (action : RegisterAction Value Op) :
    written apply (unread start) (actions ++ [action]) =
      written apply (unread start) actions ++ (written_at s action).toList :=
  hrun.trace_snoc action

/-- Writes of clients that have read an old value undo what was written since, and nothing else
is lost: the value is made by some of the operations, in their order, the last one among them.
So is every value that a client has seen. -/
theorem run_woven (hrun : Run (register_step apply) Unassigned (unread start) actions s) :
    (∃ kept : List Op, kept.Sublist (written apply (unread start) actions) ∧
      kept.getLast? = (written apply (unread start) actions).getLast? ∧ s.value = kept.foldl apply start) ∧
    ∀ id value, s.seen id = some value → Woven apply start (written apply (unread start) actions) value := by
  induction hrun with
  | nil => exact ⟨⟨[], .slnil, rfl, rfl⟩, fun _ _ hseen => by cases hseen⟩
  | @snoc actions s next action run hallowed hstep ih =>
    obtain ⟨⟨kept, hkept, hlast, hvalue⟩, hseen⟩ := ih
    rw [written_snoc run]
    rcases register_moves hallowed hstep with ⟨id, rfl, rfl⟩ | ⟨id, op, value, rfl, hread, rfl⟩ | ⟨id, rfl, rfl⟩
    · rw [written_at, Option.toList_none, List.append_nil]
      refine ⟨⟨kept, hkept, hlast, hvalue⟩, fun id' value h => ?_⟩
      rcases seen_of_read h with ⟨rfl, rfl⟩ | ⟨_, hbefore⟩
      · exact ⟨kept, hkept, hvalue⟩
      · exact hseen id' value hbefore
    · -- the operation is applied to the value that was seen
      obtain ⟨before, hbefore, rfl⟩ := hseen id value hread
      rw [written_at, Option.toList_some]
      refine ⟨⟨before ++ [op], hbefore.append (.refl _), ?_, ?_⟩, fun id' value h => ?_⟩
      · rw [List.getLast?_concat, List.getLast?_concat]
      · rw [List.foldl_append]
        rfl
      · exact (hseen id' value (seen_of_done h).2).later [op]
    · rw [written_at, Option.toList_none, List.append_nil]
      exact ⟨⟨kept, hkept, hlast, hvalue⟩, fun id' value h => hseen id' value (seen_of_done h).2⟩

/-- If clients read only when no other is about to write, no operation is lost. -/
theorem run_alone (hrun : Run (register_step apply) Alone (unread start) actions s) :
    s.value = (written apply (unread start) actions).foldl apply start ∧
      ∀ id value, s.seen id = some value → value = s.value ∧ ∀ id', id' ≠ id → s.seen id' = none := by
  induction hrun with
  | nil => exact ⟨rfl, fun _ _ hseen => by cases hseen⟩
  | @snoc actions s next action run hallowed hstep ih =>
    obtain ⟨hvalue, hseen⟩ := ih
    rw [written_snoc run]
    rcases register_moves hallowed.1 hstep with ⟨id, rfl, rfl⟩ | ⟨id, op, value, rfl, hread, rfl⟩ | ⟨id, rfl, rfl⟩
    · rw [written_at, Option.toList_none, List.append_nil]
      refine ⟨hvalue, fun id' value h => ?_⟩
      have hfree := hallowed.2 id rfl
      rcases seen_of_read h with ⟨rfl, rfl⟩ | ⟨_, hbefore⟩
      · exact ⟨rfl, fun other hother => (Function.update_of_ne hother _ _).trans (hfree other)⟩
      · rw [hfree] at hbefore
        cases hbefore
    · obtain ⟨rfl, hothers⟩ := hseen id value hread
      rw [written_at, Option.toList_some, List.foldl_append, ← hvalue]
      refine ⟨rfl, fun id' value h => ?_⟩
      obtain ⟨hid, h⟩ := seen_of_done h
      rw [hothers id' hid] at h
      cases h
    · rw [written_at, Option.toList_none, List.append_nil]
      refine ⟨hvalue, fun id' value h => ?_⟩
      obtain ⟨hcurrent, hothers⟩ := hseen id' value (seen_of_done h).2
      refine ⟨hcurrent, fun other hother => ?_⟩
      by_cases hself : other = id
      · subst hself
        exact Function.update_self other _ _
      · exact (Function.update_of_ne hself _ _).trans (hothers other hother)

end register
