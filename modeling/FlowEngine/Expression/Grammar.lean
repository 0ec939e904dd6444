import FlowEngine.Expression.Operands
import FlowEngine.Lib.Grammar

namespace flow_engine.expression

variable {P : Type} {ops : F64Ops} {data : Value}

/-- primary = Str | Num | Bool | Null | Ident -/
inductive Primary where
  | str (s : String)
  | num (n : UInt64)
  | bool (b : Bool)
  | null
  | ident (path : String)

namespace Primary

def token : Primary → Token
  | .str s => .str s
  | .num n => .num n
  | .bool b => .bool b
  | .null => .null
  | .ident path => .ident path

/-- What a primary means; an identifier is looked up in the data. -/
def operand (ops : F64Ops) (data : Value) : Primary → Operand
  | .str s => .text s
  | .num n => .number n
  | .bool b => .truth b
  | .null => .nothing
  | .ident path => .looked_up ops data path

/-- What the parser makes of a primary. -/
def value (ops : F64Ops) (data : Value) : Primary → EvalValue
  | .str s => .str s
  | .num n => .num n
  | .bool b => .bool b
  | .null => .null
  | .ident path => resolve_path ops data path

theorem means (p : Primary) : Means (p.value ops data) (p.operand ops data) := by
  cases p with
  | str s => exact .str s
  | num n => exact .num n
  | bool b => exact .bool b
  | null => exact .null
  | ident path => exact means_resolve_path path

end Primary

def CompOp.token : CompOp → Token
  | .eq => .eq
  | .ne => .ne
  | .gt => .gt
  | .lt => .lt
  | .ge => .ge
  | .le => .le

/-- comparison = primary ( op primary )? -/
abbrev Comparison (P : Type) := grammar.Optional CompOp P

/-- not_expr = "!" not_expr | comparison -/
abbrev NotExpr (P : Type) := grammar.Marked (Comparison P)

/-- and_expr = not_expr ( "&&" not_expr )* -/
abbrev AndExpr (P : Type) := grammar.Chain (NotExpr P)

/-- or_expr = and_expr ( "||" and_expr )* -/
abbrev OrExpr (P : Type) := grammar.Chain (AndExpr P)

section Trees

variable (item : P → Primary) (ops : F64Ops) (data : Value)

def Comparison.tokens : Comparison P → List Token :=
  grammar.Optional.text (fun op : CompOp => [op.token]) fun p => [(item p).token]

def NotExpr.tokens : NotExpr P → List Token := grammar.Marked.text .not (Comparison.tokens item)

def AndExpr.tokens : AndExpr P → List Token := grammar.Chain.text .and (NotExpr.tokens item)

def OrExpr.tokens : OrExpr P → List Token := grammar.Chain.text .or (AndExpr.tokens item)

/-- A primary alone counts as its truth value. -/
def Comparison.denote : Comparison P → Bool :=
  grammar.Optional.meaning (Operand.holds ops) (Operand.truthy ops) fun p => (item p).operand ops data

def NotExpr.denote : NotExpr P → Bool := grammar.Marked.meaning not (Comparison.denote item ops data)

def AndExpr.denote : AndExpr P → Bool := grammar.Chain.meaning and (NotExpr.denote item ops data)

def OrExpr.denote : OrExpr P → Bool := grammar.Chain.meaning or (AndExpr.denote item ops data)

end Trees

/-- The evaluator computes what a comparison denotes from the values of its primaries. -/
theorem Comparison.denote_eq (item : P → Primary) (ops : F64Ops) (data : Value) : Comparison.denote item ops data =
    grammar.Optional.meaning (fun op l r => compare ops l r op) (EvalValue.as_bool ops) fun p => (item p).value ops data := by
  funext s
  obtain ⟨left, right⟩ := s
  cases right with
  | none => exact (item left).means.as_bool.symm
  | some right => exact ((item left).means.compare (item right.2).means right.1).symm

/-- The tokens are those of a tree of the grammar. -/
def Derivable (tokens : List Token) : Prop := ∃ tree : OrExpr Primary, tokens = OrExpr.tokens id tree

/-- The part of `evaluate` behind the tokenizer. -/
def evaluate_tokens (ops : F64Ops) (tokens : List Token) (data : Value) : Except ExpressionError Bool :=
  if tokens.isEmpty then .error .empty_expression
  else do
    let (val, rest) ← parse_or ops data tokens
    match rest with
    | [] => .ok (val.as_bool ops)
    | token :: _ => .error (.unexpected_token token)

theorem evaluate_of_tokenize {expression : String} {tokens : List Token} (h : tokenize ops expression = .ok tokens)
    (data : Value) : evaluate ops expression data = evaluate_tokens ops tokens data := by
  rw [evaluate, grammar.ok_bind h]
  rfl

theorem comp_op_token (op : CompOp) : comp_op op.token = some op := by
  cases op <;> rfl

theorem token_of_comp_op (token : Token) (op : CompOp) (h : comp_op token = some op) : token = op.token := by
  cases token <;> cases h <;> rfl

def is_not (token : Token) : Bool := token = .not

def is_and (token : Token) : Bool := token = .and

def is_or (token : Token) : Bool := token = .or

theorem Comparison.tokens_eq_cons (item : P → Primary) (s : Comparison P) :
    ∃ token after, Comparison.tokens item s = token :: after ∧ is_not token = false := by
  refine ⟨(item s.left).token, _, rfl, ?_⟩
  cases item s.left <;> rfl

theorem sound_parse_primary :
    grammar.Sound (parse_primary ops data) (fun p : Primary => [p.token]) id (Primary.value ops data) := by
  intro input rest v hread
  cases input with
  | nil => cases hread
  | cons token after =>
    cases token with
    | str s => cases hread; exact ⟨.str s, rfl, rfl⟩
    | num n => cases hread; exact ⟨.num n, rfl, rfl⟩
    | bool b => cases hread; exact ⟨.bool b, rfl, rfl⟩
    | null => cases hread; exact ⟨.null, rfl, rfl⟩
    | ident path => cases hread; exact ⟨.ident path, rfl, rfl⟩
    | _ => cases hread

theorem accepts_parse_primary :
    grammar.Accepts (parse_primary ops data) (fun p : Primary => [p.token]) id (Primary.value ops data) fun _ => True := by
  intro p rest _
  refine ⟨p.value ops data, ?_, rfl⟩
  cases p <;> rfl

theorem parse_comparison_eq (tokens : List Token) : parse_comparison ops data tokens =
    grammar.optional (parse_primary ops data) comp_op (fun op l r => .bool (compare ops l r op)) tokens := by
  cases hleft : parse_primary ops data tokens with
  | error e => simp only [parse_comparison, grammar.optional, hleft]; rfl
  | ok read =>
    obtain ⟨left, rest⟩ := read
    rw [parse_comparison, grammar.optional, grammar.ok_bind hleft, grammar.ok_bind hleft]
    cases rest with
    | nil => rfl
    | cons token after => cases hop : comp_op token <;> simp only [hop]

theorem parse_not_eq (tokens : List Token) : parse_not ops data tokens =
    grammar.marked (parse_comparison ops data) is_not (fun v => .bool (!v.as_bool ops)) tokens := by
  induction tokens with
  | nil => rfl
  | cons token rest ih =>
    cases token with
    | not =>
      rw [parse_not, ih]
      rfl
    | _ => rfl

theorem parse_and_loop_eq (fuel : Nat) (left : EvalValue) (tokens : List Token) : parse_and_loop ops data fuel left tokens =
    grammar.chain_loop (parse_not ops data) is_and (fun l r => .bool (l.as_bool ops && r.as_bool ops)) fuel left tokens := by
  induction fuel generalizing left tokens with
  | zero => cases tokens <;> rfl
  | succ fuel ih =>
    cases tokens with
    | nil => rfl
    | cons token rest =>
      cases token with
      | and =>
        rw [parse_and_loop]
        simp only [ih]
        rfl
      | _ => rfl

theorem parse_or_loop_eq (fuel : Nat) (left : EvalValue) (tokens : List Token) : parse_or_loop ops data fuel left tokens =
    grammar.chain_loop (parse_and ops data) is_or (fun l r => .bool (l.as_bool ops || r.as_bool ops)) fuel left tokens := by
  induction fuel generalizing left tokens with
  | zero => cases tokens <;> rfl
  | succ fuel ih =>
    cases tokens with
    | nil => rfl
    | cons token rest =>
      cases token with
      | or =>
        rw [parse_or_loop]
        simp only [ih]
        rfl
      | _ => rfl

theorem parse_and_eq : parse_and ops data =
    grammar.chain (parse_not ops data) is_and fun l r => .bool (l.as_bool ops && r.as_bool ops) := by
  funext tokens
  simp only [parse_and, parse_and_loop_eq]
  rfl

theorem parse_or_eq : parse_or ops data =
    grammar.chain (parse_and ops data) is_or fun l r => .bool (l.as_bool ops || r.as_bool ops) := by
  funext tokens
  simp only [parse_or, parse_or_loop_eq]
  rfl

/-- Negation, conjunction and disjunction are computed on the truth values. -/
theorem as_bool_not (v : EvalValue) : (EvalValue.bool (!v.as_bool ops)).as_bool ops = not (v.as_bool ops) := rfl

theorem as_bool_and (l r : EvalValue) :
    (EvalValue.bool (l.as_bool ops && r.as_bool ops)).as_bool ops = and (l.as_bool ops) (r.as_bool ops) := rfl

theorem as_bool_or (l r : EvalValue) :
    (EvalValue.bool (l.as_bool ops || r.as_bool ops)).as_bool ops = or (l.as_bool ops) (r.as_bool ops) := rfl

theorem sound_parse_or :
    grammar.Sound (parse_or ops data) (OrExpr.tokens id) (EvalValue.as_bool ops) (OrExpr.denote id ops data) := by
  have hcomparison : grammar.Sound (parse_comparison ops data) (Comparison.tokens id) (EvalValue.as_bool ops)
      (Comparison.denote id ops data) := by
    rw [show parse_comparison ops data = _ from funext parse_comparison_eq, Comparison.denote_eq]
    exact grammar.sound_optional sound_parse_primary token_of_comp_op
  have hnot : grammar.Sound (parse_not ops data) (NotExpr.tokens id) (EvalValue.as_bool ops) (NotExpr.denote id ops data) := by
    rw [show parse_not ops data = _ from funext parse_not_eq]
    exact grammar.sound_marked hcomparison (fun token h => of_decide_eq_true h) as_bool_not
  have hand : grammar.Sound (parse_and ops data) (AndExpr.tokens id) (EvalValue.as_bool ops) (AndExpr.denote id ops data) := by
    rw [parse_and_eq]
    exact grammar.sound_chain hnot (fun token h => of_decide_eq_true h) as_bool_and
  rw [parse_or_eq]
  exact grammar.sound_chain hand (fun token h => of_decide_eq_true h) as_bool_or

/-- What may follow a chain of comparisons: anything but an operator that would go on with it. -/
def ends_or (rest : List Token) : Prop :=
  ((∀ token ∈ rest.head?, comp_op token = none) ∧ ∀ token ∈ rest.head?, is_and token = false) ∧
    ∀ token ∈ rest.head?, is_or token = false

theorem accepts_parse_or (ops : F64Ops) (data : Value) (item : P → Primary) :
    grammar.Accepts (parse_or ops data) (OrExpr.tokens item) (EvalValue.as_bool ops) (OrExpr.denote item ops data) ends_or := by
  have hcomparison : grammar.Accepts (parse_comparison ops data) (Comparison.tokens item) (EvalValue.as_bool ops)
      (Comparison.denote item ops data) fun rest => ∀ token ∈ rest.head?, comp_op token = none := by
    rw [show parse_comparison ops data = _ from funext parse_comparison_eq, Comparison.denote_eq]
    exact grammar.accepts_optional (accepts_parse_primary.comap item) comp_op_token
  have hnot : grammar.Accepts (parse_not ops data) (NotExpr.tokens item) (EvalValue.as_bool ops)
      (NotExpr.denote item ops data) fun rest => ∀ token ∈ rest.head?, comp_op token = none := by
    rw [show parse_not ops data = _ from funext parse_not_eq]
    exact grammar.accepts_marked hcomparison rfl (Comparison.tokens_eq_cons item) as_bool_not
  have hand : grammar.Accepts (parse_and ops data) (AndExpr.tokens item) (EvalValue.as_bool ops)
      (AndExpr.denote item ops data) fun rest =>
        (∀ token ∈ rest.head?, comp_op token = none) ∧ ∀ token ∈ rest.head?, is_and token = false := by
    rw [parse_and_eq]
    have hfollow (rest : List Token) : ∀ token ∈ (Token.and :: rest).head?, comp_op token = none := by
      rintro token ⟨⟩
      rfl
    exact grammar.accepts_chain hnot rfl hfollow as_bool_and
  rw [parse_or_eq]
  have hfollow (rest : List Token) : (∀ token ∈ (Token.or :: rest).head?, comp_op token = none) ∧
      ∀ token ∈ (Token.or :: rest).head?, is_and token = false := by
    constructor
    · rintro token ⟨⟩
      rfl
    · rintro token ⟨⟩
      rfl
  exact grammar.accepts_chain hand rfl hfollow as_bool_or

theorem ends_or_nil : ends_or [] := by
  refine ⟨⟨?_, ?_⟩, ?_⟩ <;> exact fun token h => nomatch h

/-- The tokens of a tree evaluate to what the tree denotes. -/
theorem evaluate_tokens_tokens (ops : F64Ops) (item : P → Primary) (tree : OrExpr P) (data : Value) :
    evaluate_tokens ops (OrExpr.tokens item tree) data = .ok (OrExpr.denote item ops data tree) := by
  obtain ⟨v, hread, hv⟩ := accepts_parse_or ops data item tree ends_or_nil
  rw [List.append_nil] at hread
  have hne : (OrExpr.tokens item tree).isEmpty = false := by
    cases htokens : OrExpr.tokens item tree with
    | nil =>
      rw [htokens] at hread
      cases hread
    | cons token after => rfl
  rw [evaluate_tokens, hne, if_neg Bool.false_ne_true, grammar.ok_bind hread, ← hv]

/-- Evaluation succeeds on exactly the derivable token lists. -/
theorem evaluate_tokens_ok_iff (ops : F64Ops) (tokens : List Token) (data : Value) :
    (∃ b, evaluate_tokens ops tokens data = .ok b) ↔ Derivable tokens := by
  constructor
  · rintro ⟨b, h⟩
    rw [evaluate_tokens] at h
    split at h
    · cases h
    · obtain ⟨⟨v, rest⟩, hread, hdone⟩ := grammar.bind_eq_ok h
      cases rest with
      | nil => exact (grammar.read_all_iff sound_parse_or (accepts_parse_or ops data id) ends_or_nil tokens).mp ⟨v, hread⟩
      | cons token after => cases hdone
  · rintro ⟨tree, rfl⟩
    exact ⟨_, evaluate_tokens_tokens ops id tree data⟩

end flow_engine.expression
