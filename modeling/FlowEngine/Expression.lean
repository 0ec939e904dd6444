import FlowEngine.Json

namespace flow_engine.expression

/-- The binary64 operations of the evaluator, on bit patterns. Everything that
depends on rounding or on reading decimals is a parameter of the model. -/
structure F64Ops where
  parse : String → Option UInt64
  of_u64 : UInt64 → UInt64
  of_i64 : Int64 → UInt64
  sub : UInt64 → UInt64 → UInt64
  abs : UInt64 → UInt64
  eq : UInt64 → UInt64 → Bool
  lt : UInt64 → UInt64 → Bool
  le : UInt64 → UInt64 → Bool

/-- The bit pattern of `0.0`. -/
def F64_ZERO : UInt64 := 0

/-- The bit pattern of `f64::EPSILON`. -/
def F64_EPSILON : UInt64 := 0x3CB0000000000000

inductive Token where
  | ident (path : String)
  | str (s : String)
  | num (n : UInt64)
  | bool (b : Bool)
  | null
  | eq
  | ne
  | gt
  | lt
  | ge
  | le
  | and
  | or
  | not
  deriving DecidableEq

/-- The parse errors, one constructor for each message: "empty expression",
"unexpected token: ..", "unterminated string literal", "invalid number: ..",
"unexpected character: ..", "unexpected end of expression" and
"expected value, got ..". -/
inductive ExpressionError where
  | empty_expression
  | unexpected_token (token : Token)
  | unterminated_string
  | invalid_number (text : String)
  | unexpected_character (c : Char)
  | unexpected_end
  | expected_value (token : Token)
  deriving DecidableEq

/-- A word is a keyword or a dotted identifier. -/
def word_token (word : String) : Token :=
  if word = "true" then .bool true
  else if word = "false" then .bool false
  else if word = "null" then .null
  else .ident word

/-- The tokenizer's loop over the remaining characters. Every pass consumes a
character, so the number of characters is enough fuel. -/
def tokenize_loop (ops : F64Ops) : Nat → List Char → List Token → Except ExpressionError (List Token)
  | _, [], tokens => .ok tokens
  | 0, _ :: _, tokens => .ok tokens
  | fuel + 1, c :: rest, tokens =>
    if c = ' ' ∨ c = '\t' ∨ c = '\r' ∨ c = '\n' then tokenize_loop ops fuel rest tokens
    else if c = '=' ∧ rest.head? = some '=' then tokenize_loop ops fuel rest.tail (tokens ++ [.eq])
    else if c = '!' ∧ rest.head? = some '=' then tokenize_loop ops fuel rest.tail (tokens ++ [.ne])
    else if c = '!' then tokenize_loop ops fuel rest (tokens ++ [.not])
    else if c = '>' ∧ rest.head? = some '=' then tokenize_loop ops fuel rest.tail (tokens ++ [.ge])
    else if c = '>' then tokenize_loop ops fuel rest (tokens ++ [.gt])
    else if c = '<' ∧ rest.head? = some '=' then tokenize_loop ops fuel rest.tail (tokens ++ [.le])
    else if c = '<' then tokenize_loop ops fuel rest (tokens ++ [.lt])
    else if c = '&' ∧ rest.head? = some '&' then tokenize_loop ops fuel rest.tail (tokens ++ [.and])
    else if c = '|' ∧ rest.head? = some '|' then tokenize_loop ops fuel rest.tail (tokens ++ [.or])
    else if c = '\x22' ∨ c = '\x27' then
      match rest.dropWhile (· ≠ c) with
      | [] => .error .unterminated_string
      | _ :: after =>
        tokenize_loop ops fuel after (tokens ++ [.str (String.ofList (rest.takeWhile (· ≠ c)))])
    else if c.isDigit ∨ (c = '-' ∧ rest.head?.any Char.isDigit) then
      let text := String.ofList (c :: rest.takeWhile (fun d => d.isDigit || d = '.'))
      match ops.parse text with
      | none => .error (.invalid_number text)
      | some n =>
        tokenize_loop ops fuel (rest.dropWhile (fun d => d.isDigit || d = '.')) (tokens ++ [.num n])
    else if c.isAlpha ∨ c = '_' then
      let word := String.ofList (c :: rest.takeWhile (fun d => d.isAlphanum || d = '_' || d = '.'))
      tokenize_loop ops fuel (rest.dropWhile (fun d => d.isAlphanum || d = '_' || d = '.'))
        (tokens ++ [word_token word])
    else .error (.unexpected_character c)

def tokenize (ops : F64Ops) (input : String) : Except ExpressionError (List Token) :=
  tokenize_loop ops input.toList.length input.toList []

/-- An evaluated operand. -/
inductive EvalValue where
  | bool (b : Bool)
  | num (n : UInt64)
  | str (s : String)
  | null
  | json (v : Value)

namespace EvalValue

def as_bool (ops : F64Ops) : EvalValue → Bool
  | .bool b => b
  | .null => false
  | .num n => !ops.eq n F64_ZERO
  | .str s => !s.isEmpty
  | .json (.bool b) => b
  | .json .null => false
  | .json _ => true

/-- The binary64 value of a JSON number. -/
def number_as_f64 (ops : F64Ops) : Number → UInt64
  | .pos_int n => ops.of_u64 n
  | .neg_int n => ops.of_i64 n
  | .float bits => bits

def as_f64 (ops : F64Ops) : EvalValue → Option UInt64
  | .num n => some n
  | .json (.number n) => some (number_as_f64 ops n)
  | _ => none

def as_str_value : EvalValue → Option String
  | .str s => some s
  | .json (.string s) => some s
  | _ => none

def is_null : EvalValue → Bool
  | .null => true
  | .json .null => true
  | _ => false

end EvalValue

inductive CompOp where
  | eq
  | ne
  | gt
  | lt
  | ge
  | le

/-- Equality of floats within `f64::EPSILON`. -/
def near (ops : F64Ops) (l r : UInt64) : Bool := ops.lt (ops.abs (ops.sub l r)) F64_EPSILON

def compare_numbers (ops : F64Ops) (l r : UInt64) : CompOp → Bool
  | .eq => near ops l r
  | .ne => ops.le F64_EPSILON (ops.abs (ops.sub l r))
  | .gt => ops.lt r l
  | .lt => ops.lt l r
  | .ge => ops.le r l || near ops l r
  | .le => ops.le l r || near ops l r

def compare_strings (l r : String) : CompOp → Bool
  | .eq => l = r
  | .ne => l ≠ r
  | .gt => r < l
  | .lt => l < r
  | .ge => r ≤ l
  | .le => l ≤ r

/-- Null comparisons come first, then numbers, strings and booleans; operands of
different types compare false. -/
def compare (ops : F64Ops) (left right : EvalValue) (op : CompOp) : Bool :=
  if left.is_null || right.is_null then
    match op with
    | .eq => left.is_null && right.is_null
    | .ne => !(left.is_null && right.is_null)
    | _ => false
  else
    match left.as_f64 ops, right.as_f64 ops with
    | some l, some r => compare_numbers ops l r op
    | _, _ =>
      match left.as_str_value, right.as_str_value with
      | some l, some r => compare_strings l r op
      | _, _ =>
        match left, right, op with
        | .bool l, .bool r, .eq => l == r
        | .bool l, .bool r, .ne => l != r
        | _, _, _ => false

/-- The segments of a dotted path, followed from `data`. -/
def follow_path (data : Value) : List String → Option Value
  | [] => some data
  | segment :: rest =>
    match data.get segment with
    | some v => follow_path v rest
    | none => none

def resolve_path (ops : F64Ops) (data : Value) (path : String) : EvalValue :=
  match follow_path data ((path.toList.splitOn '.').map String.ofList) with
  | none => .null
  | some .null => .null
  | some (.bool b) => .bool b
  | some (.number n) => .num (EvalValue.number_as_f64 ops n)
  | some (.string s) => .str s
  | some other => .json other

abbrev ParseResult := Except ExpressionError (EvalValue × List Token)

/-- primary = Str | Num | Bool | Null | Ident (resolved against data) -/
def parse_primary (ops : F64Ops) (data : Value) : List Token → ParseResult
  | [] => .error .unexpected_end
  | .str s :: rest => .ok (.str s, rest)
  | .num n :: rest => .ok (.num n, rest)
  | .bool b :: rest => .ok (.bool b, rest)
  | .null :: rest => .ok (.null, rest)
  | .ident path :: rest => .ok (resolve_path ops data path, rest)
  | other :: _ => .error (.expected_value other)

/-- The comparison operator a token stands for, if it is one. -/
def comp_op : Token → Option CompOp
  | .eq => some .eq
  | .ne => some .ne
  | .gt => some .gt
  | .lt => some .lt
  | .ge => some .ge
  | .le => some .le
  | _ => none

/-- comparison = primary ( op primary )? -/
def parse_comparison (ops : F64Ops) (data : Value) (tokens : List Token) : ParseResult := do
  let (left, rest) ← parse_primary ops data tokens
  match rest with
  | [] => .ok (left, rest)
  | token :: after =>
    match comp_op token with
    | none => .ok (left, rest)
    | some op =>
      let (right, rest) ← parse_primary ops data after
      .ok (.bool (compare ops left right op), rest)

/-- not_expr = "!" not_expr | comparison -/
def parse_not (ops : F64Ops) (data : Value) : List Token → ParseResult
  | .not :: rest => do
    let (val, rest) ← parse_not ops data rest
    .ok (.bool (!val.as_bool ops), rest)
  | tokens => parse_comparison ops data tokens

/-- The loop of `parse_and`; every pass consumes a token, so the number of
remaining tokens is enough fuel. -/
def parse_and_loop (ops : F64Ops) (data : Value) : Nat → EvalValue → List Token → ParseResult
  | fuel + 1, left, .and :: rest => do
    let (right, rest) ← parse_not ops data rest
    parse_and_loop ops data fuel (.bool (left.as_bool ops && right.as_bool ops)) rest
  | _, left, rest => .ok (left, rest)

/-- and_expr = not_expr ( "&&" not_expr )* -/
def parse_and (ops : F64Ops) (data : Value) (tokens : List Token) : ParseResult := do
  let (left, rest) ← parse_not ops data tokens
  parse_and_loop ops data rest.length left rest

/-- The loop of `parse_or`, fuelled as `parse_and_loop` is. -/
def parse_or_loop (ops : F64Ops) (data : Value) : Nat → EvalValue → List Token → ParseResult
  | fuel + 1, left, .or :: rest => do
    let (right, rest) ← parse_and ops data rest
    parse_or_loop ops data fuel (.bool (left.as_bool ops || right.as_bool ops)) rest
  | _, left, rest => .ok (left, rest)

/-- or_expr = and_expr ( "||" and_expr )* -/
def parse_or (ops : F64Ops) (data : Value) (tokens : List Token) : ParseResult := do
  let (left, rest) ← parse_and ops data tokens
  parse_or_loop ops data rest.length left rest

/-- Evaluate an expression against a node's output. -/
def evaluate (ops : F64Ops) (expression : String) (data : Value) : Except ExpressionError Bool := do
  let tokens ← tokenize ops expression
  if tokens.isEmpty then .error .empty_expression
  else
    let (val, rest) ← parse_or ops data tokens
    match rest with
    | [] => .ok (val.as_bool ops)
    | token :: _ => .error (.unexpected_token token)

end flow_engine.expression
