import FlowEngine.Expression
import Mathlib.Data.String.Basic

namespace flow_engine.expression

/-- What an operand means. Of an array or an object it matters only that it is there. -/
inductive Operand where
  | nothing
  | truth (b : Bool)
  | number (n : UInt64)
  | text (s : String)
  | composite

namespace Operand

variable (ops : F64Ops)

/-- What a JSON value means as an operand. -/
def of_json : Value → Operand
  | .null => .nothing
  | .bool b => .truth b
  | .number n => .number (EvalValue.number_as_f64 ops n)
  | .string s => .text s
  | .array _ | .object _ => .composite

/-- A dotted path leads from field to field; where one is missing there is nothing. -/
def looked_up (data : Value) (path : String) : Operand :=
  (((path.toList.splitOn '.').map String.ofList).foldlM Value.get data).elim .nothing (of_json ops)

/-- Nothing, zero and the empty text do not hold. -/
def truthy : Operand → Bool
  | .nothing => false
  | .truth b => b
  | .number n => !ops.eq n F64_ZERO
  | .text s => s ≠ ""
  | .composite => true

/-- Numbers are equal when they are less than `f64::EPSILON` apart. -/
def numbers_hold (op : CompOp) (l r : UInt64) : Bool :=
  let apart := ops.abs (ops.sub l r)
  match op with
  | .eq => ops.lt apart F64_EPSILON
  | .ne => ops.le F64_EPSILON apart
  | .gt => ops.lt r l
  | .lt => ops.lt l r
  | .ge => ops.le r l || ops.lt apart F64_EPSILON
  | .le => ops.le l r || ops.lt apart F64_EPSILON

/-- The relation of two texts in their order that an operator asks for. -/
def asks_for : CompOp → Ordering → Bool
  | .eq, ordering => ordering = .eq
  | .ne, ordering => ordering ≠ .eq
  | .gt, ordering => ordering = .gt
  | .lt, ordering => ordering = .lt
  | .ge, ordering => ordering ≠ .lt
  | .le, ordering => ordering ≠ .gt

/-- Whether a comparison holds. Nothing equals only nothing; operands of different types, and
arrays and objects, stand in no relation. -/
def holds : CompOp → Operand → Operand → Bool
  | .eq, .nothing, .nothing => true
  | _, .nothing, .nothing => false
  | .ne, .nothing, _ | .ne, _, .nothing => true
  | _, .nothing, _ | _, _, .nothing => false
  | op, .number l, .number r => numbers_hold ops op l r
  | op, .text l, .text r => asks_for op (cmp l r)
  | .eq, .truth l, .truth r => l = r
  | .ne, .truth l, .truth r => l ≠ r
  | _, _, _ => false

end Operand

/-- What an evaluated operand means. The evaluator leaves only arrays and objects as JSON. -/
inductive Means : EvalValue → Operand → Prop where
  | null : Means .null .nothing
  | bool (b : Bool) : Means (.bool b) (.truth b)
  | num (n : UInt64) : Means (.num n) (.number n)
  | str (s : String) : Means (.str s) (.text s)
  | array (items : List Value) : Means (.json (.array items)) .composite
  | object (fields : List (String × Value)) : Means (.json (.object fields)) .composite

section Means

variable {ops : F64Ops} {data : Value} {l r : EvalValue} {x y : Operand}

theorem follow_path_eq (data : Value) (segments : List String) :
    follow_path data segments = segments.foldlM Value.get data := by
  induction segments generalizing data with
  | nil => rfl
  | cons segment rest ih =>
    rw [follow_path, List.foldlM_cons]
    cases data.get segment with
    | none => rfl
    | some v => exact ih v

theorem means_resolve_path (path : String) : Means (resolve_path ops data path) (Operand.looked_up ops data path) := by
  unfold resolve_path Operand.looked_up
  rw [follow_path_eq]
  cases ((path.toList.splitOn '.').map String.ofList).foldlM Value.get data with
  | none => exact .null
  | some v =>
    cases v with
    | null => exact .null
    | bool b => exact .bool b
    | number n => exact .num _
    | string s => exact .str s
    | array items => exact .array items
    | object fields => exact .object fields

theorem Means.as_bool (h : Means l x) : l.as_bool ops = x.truthy ops := by
  cases h with
  | str s =>
    rw [EvalValue.as_bool, Operand.truthy, Bool.eq_iff_iff]
    simp
  | _ => rfl

theorem compare_strings_eq (l r : String) (op : CompOp) : compare_strings l r op = Operand.asks_for op (cmp l r) := by
  rcases lt_trichotomy l r with hlt | rfl | hgt
  · rw [hlt.cmp_eq_lt]
    cases op <;> simp [compare_strings, Operand.asks_for, hlt, hlt.ne, hlt.le, hlt.not_gt, hlt.not_ge]
  · rw [cmp_self_eq_eq]
    cases op <;> simp [compare_strings, Operand.asks_for]
  · rw [hgt.cmp_eq_gt]
    cases op <;> simp [compare_strings, Operand.asks_for, hgt, hgt.ne', hgt.le, hgt.not_gt, hgt.not_ge]

/-- The evaluator compares operands as what they mean. -/
theorem Means.compare (hl : Means l x) (hr : Means r y) (op : CompOp) :
    compare ops l r op = Operand.holds ops op x y := by
  cases hl with
  | str s =>
    cases hr with
    | str t => exact (compare_strings_eq s t op).trans (by cases op <;> rfl)
    | _ => cases op <;> rfl
  | bool b =>
    cases hr with
    | bool c => cases b <;> cases c <;> cases op <;> rfl
    | _ => cases op <;> rfl
  | _ => cases hr <;> cases op <;> rfl

end Means

end flow_engine.expression
