import FlowEngine.Expression.Lexemes

namespace flow_engine.expression

variable {ops : F64Ops} {data : Value}

/-- A tree with a hole for a comparison, which may stand behind `!`s. -/
structure Context (ops : F64Ops) where
  before_or : List (AndExpr (Literal ops))
  before_and : List (NotExpr (Literal ops))
  marks : Nat
  after_and : List (NotExpr (Literal ops))
  after_or : List (AndExpr (Literal ops))

namespace Context

/-- The comparison standing alone. -/
def top : Context ops := ⟨[], [], 0, [], []⟩

def plug (context : Context ops) (hole : Comparison (Literal ops)) : OrExpr (Literal ops) :=
  .around context.before_or (.around context.before_and ⟨context.marks, hole⟩ context.after_and) context.after_or

/-- A comparison counts in its context as its truth value. -/
theorem denote_plug_congr (context : Context ops) {c d : Comparison (Literal ops)}
    (h : Comparison.denote Literal.primary ops data c = Comparison.denote Literal.primary ops data d) :
    OrExpr.denote Literal.primary ops data (context.plug c) = OrExpr.denote Literal.primary ops data (context.plug d) := by
  have hnot : NotExpr.denote Literal.primary ops data ⟨context.marks, c⟩
      = NotExpr.denote Literal.primary ops data ⟨context.marks, d⟩ := congrArg (Nat.iterate not context.marks) h
  exact grammar.Chain.meaning_around_congr (grammar.Chain.meaning_around_congr hnot)

end Context

/-- The literal `false` in the place of a comparison. -/
def falsehood : Comparison (Literal ops) := ⟨.bool false, none⟩

/-- The comparison evaluates as `false` would in its place, wherever it stands. -/
def ContributesFalse (ops : F64Ops) (data : Value) (comparison : Comparison (Literal ops)) : Prop :=
  ∀ (gap : Nat → Nat) (context : Context ops), evaluate ops (OrExpr.render gap (context.plug comparison)) data
    = .ok (OrExpr.denote Literal.primary ops data (context.plug falsehood))

/-- A string, a number or a truth value. -/
def Literal.constant : Literal ops → Prop
  | .str _ | .num _ | .bool _ => True
  | .null | .ident _ => False

/-- A segment of the path is absent, or looked for in what is no object. -/
def Unresolved (data : Value) (path : String) : Prop :=
  follow_path data ((path.toList.splitOn '.').map String.ofList) = none

theorem resolve_path_of_unresolved (ops : F64Ops) {path : String} (h : Unresolved data path) : resolve_path ops data path = .null := by
  rw [resolve_path, h]

theorem Literal.is_null_of_constant (data : Value) {l : Literal ops} (h : l.constant) :
    (l.primary.value ops data).is_null = false := by
  cases l with
  | null => cases h
  | ident i => cases h
  | _ => rfl

/-- The null branch of `compare`, with one side null: only `!=` holds. -/
theorem compare_null_left {v : EvalValue} (h : v.is_null = false) (op : CompOp) :
    compare ops .null v op = true ↔ op = .ne := by
  delta compare
  rw [h]
  cases op <;> simp [EvalValue.is_null]

theorem compare_null_right {v : EvalValue} (h : v.is_null = false) (op : CompOp) :
    compare ops v .null op = true ↔ op = .ne := by
  delta compare
  rw [h]
  cases op <;> simp [EvalValue.is_null]

theorem contributes_false_iff (comparison : Comparison (Literal ops)) :
    ContributesFalse ops data comparison ↔ Comparison.denote Literal.primary ops data comparison = false := by
  have hrender (gap : Nat → Nat) (context : Context ops) : evaluate ops (OrExpr.render gap (context.plug comparison)) data
      = .ok (OrExpr.denote Literal.primary ops data (context.plug comparison)) := by
    rw [evaluate_of_tokenize (tokenize_render gap _), evaluate_tokens_tokens]
  constructor
  · intro h
    have htop := h (fun _ => 0) Context.top
    rw [hrender] at htop
    exact Except.ok.inj htop
  · intro h gap context
    rw [hrender, context.denote_plug_congr (d := falsehood) h]

/-- A comparison of a missing field with a constant is false in its context
exactly if its operator is not `!=`, whichever side it is on. -/
theorem missing_contributes_false_iff (i : Identifier) (h : Unresolved data i.path) (l : Literal ops) (hl : l.constant)
    (op : CompOp) :
    (ContributesFalse ops data ⟨.ident i, some (op, l)⟩ ↔ op ≠ .ne) ∧
      (ContributesFalse ops data ⟨l, some (op, .ident i)⟩ ↔ op ≠ .ne) := by
  have hnull : (Literal.ident i : Literal ops).primary.value ops data = .null := resolve_path_of_unresolved ops h
  have hl' := Literal.is_null_of_constant data hl
  have hdenote (left right : Literal ops) : Comparison.denote Literal.primary ops data ⟨left, some (op, right)⟩ =
      compare ops (left.primary.value ops data) (right.primary.value ops data) op := by
    rw [Comparison.denote_eq]
    rfl
  rw [contributes_false_iff, contributes_false_iff]
  constructor
  · rw [hdenote, hnull, ← Bool.not_eq_true, compare_null_left hl']
  · rw [hdenote, hnull, ← Bool.not_eq_true, compare_null_right hl']

/-- The path `missing`. -/
def missing_path : Identifier :=
  ⟨'m', ['i', 's', 's', 'i', 'n', 'g'], Or.inl rfl, List.all_eq_true.mp rfl, by decide⟩

/-- The literal `"x"`. -/
def x_literal : StringLiteral := ⟨'\x22', ['x'], Or.inl rfl, by decide⟩

/-- `missing == "x"` and `"x" == missing` are false on an empty object, in every context. -/
theorem missing_eq_contributes_false : missing_path.path = "missing" ∧ ∀ ops,
    ContributesFalse ops (.object []) ⟨.ident missing_path, some (.eq, .str x_literal)⟩ ∧
      ContributesFalse ops (.object []) ⟨.str x_literal, some (.eq, .ident missing_path)⟩ := by
  refine ⟨rfl, fun ops => ?_⟩
  have hmissing : Unresolved (.object []) missing_path.path := rfl
  have hiff := missing_contributes_false_iff missing_path hmissing (.str x_literal : Literal ops) trivial .eq
  exact ⟨hiff.1.mpr nofun, hiff.2.mpr nofun⟩

/-- `missing != "x"` is true on an empty object. -/
theorem missing_ne_is_true : Unresolved (.object []) "missing" ∧
    ∀ ops, evaluate ops "missing != \"x\"" (.object []) = .ok true := by
  exact ⟨rfl, fun ops => rfl⟩

end flow_engine.expression
