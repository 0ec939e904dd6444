import FlowEngine.Expression.Grammar

namespace flow_engine.expression

variable {ops : F64Ops}

/-- A string between quotes that it does not contain. -/
structure StringLiteral where
  quote : Char
  text : List Char
  is_quote : quote = '\x22' ∨ quote = '\x27'
  unquoted : quote ∉ text

def StringLiteral.chars (s : StringLiteral) : List Char := s.quote :: (s.text ++ [s.quote])

/-- The characters of a number behind its first one. -/
def number_char (c : Char) : Bool := c.isDigit || c = '.'

/-- A number as it may be written, with the value that its text parses to. -/
structure NumberLiteral (ops : F64Ops) where
  negative : Bool
  digit : Char
  others : List Char
  value : UInt64
  is_digit : digit.isDigit = true
  are_number_chars : ∀ c ∈ others, number_char c = true
  parses : ops.parse (String.ofList (if negative then '-' :: digit :: others else digit :: others)) = some value

def NumberLiteral.chars (n : NumberLiteral ops) : List Char :=
  if n.negative then '-' :: n.digit :: n.others else n.digit :: n.others

/-- The characters of a word behind its first one. -/
def word_char (c : Char) : Bool := c.isAlphanum || c = '_' || c = '.'

/-- A dotted path, which is no keyword. -/
structure Identifier where
  first : Char
  others : List Char
  is_first : first.isAlpha = true ∨ first = '_'
  are_word_chars : ∀ c ∈ others, word_char c = true
  no_keyword : String.ofList (first :: others) ∉ ["true", "false", "null"]

namespace Identifier

def chars (i : Identifier) : List Char := i.first :: i.others

def path (i : Identifier) : String := String.ofList i.chars

end Identifier

/-- A primary as it is written. -/
inductive Literal (ops : F64Ops) where
  | str (s : StringLiteral)
  | num (n : NumberLiteral ops)
  | bool (b : Bool)
  | null
  | ident (i : Identifier)

namespace Literal

def primary : Literal ops → Primary
  | .str s => .str (String.ofList s.text)
  | .num n => .num n.value
  | .bool b => .bool b
  | .null => .null
  | .ident i => .ident i.path

def chars : Literal ops → List Char
  | .str s => s.chars
  | .num n => n.chars
  | .bool true => ['t', 'r', 'u', 'e']
  | .bool false => ['f', 'a', 'l', 's', 'e']
  | .null => ['n', 'u', 'l', 'l']
  | .ident i => i.chars

end Literal

def CompOp.chars : CompOp → List Char
  | .eq => ['=', '=']
  | .ne => ['!', '=']
  | .gt => ['>']
  | .lt => ['<']
  | .ge => ['>', '=']
  | .le => ['<', '=']

/-- A token as it is written. -/
inductive Lexeme (ops : F64Ops) where
  | literal (l : Literal ops)
  | comp (op : CompOp)
  | and
  | or
  | not

namespace Lexeme

def token : Lexeme ops → Token
  | .literal l => l.primary.token
  | .comp op => op.token
  | .and => .and
  | .or => .or
  | .not => .not

def chars : Lexeme ops → List Char
  | .literal l => l.chars
  | .comp op => op.chars
  | .and => ['&', '&']
  | .or => ['|', '|']
  | .not => ['!']

theorem one_le_length_chars (l : Lexeme ops) : 1 ≤ l.chars.length := by
  cases l with
  | literal l =>
    cases l with
    | str s => simp [chars, Literal.chars, StringLiteral.chars]
    | num n =>
      rw [chars, Literal.chars, NumberLiteral.chars]
      split <;> simp
    | bool b => cases b <;> simp [chars, Literal.chars]
    | null => simp [chars, Literal.chars]
    | ident i => simp [chars, Literal.chars, Identifier.chars]
  | comp op => cases op <;> simp [chars, CompOp.chars]
  | _ => simp [chars]

end Lexeme

/-- The lexemes of a tree, in the order in which they are written. -/
def OrExpr.lexemes : OrExpr (Literal ops) → List (Lexeme ops) :=
  grammar.Chain.text .or <| grammar.Chain.text .and <| grammar.Marked.text .not <|
    grammar.Optional.text (fun op : CompOp => [.comp op]) fun l => [.literal l]

theorem OrExpr.tokens_eq_map (tree : OrExpr (Literal ops)) :
    OrExpr.tokens Literal.primary tree = (OrExpr.lexemes tree).map Lexeme.token := by
  rw [OrExpr.lexemes, grammar.Chain.map_text]
  simp only [grammar.Chain.map_text, grammar.Marked.map_text, grammar.Optional.map_text]
  rfl

/-- Lexemes separated by spaces, at least one in each gap. -/
def spaced (gap : Nat → Nat) : List (Lexeme ops) → List Char
  | [] => []
  | [l] => l.chars
  | l :: next :: rest => l.chars ++ (List.replicate (gap 0 + 1) ' ' ++ spaced (fun i => gap (i + 1)) (next :: rest))

/-- The text of a tree. -/
def OrExpr.render (gap : Nat → Nat) (tree : OrExpr (Literal ops)) : String := String.ofList (spaced gap (OrExpr.lexemes tree))

/-- Nothing or a space follows. -/
def Separated (rest : List Char) : Prop := ∀ c ∈ rest.head?, c = ' '

theorem Separated.not_head {rest : List Char} (h : Separated rest) {p : Char → Bool} (hp : p ' ' = false) :
    ∀ c ∈ rest.head?, p c = false := by
  intro c hc
  rw [h c hc, hp]

theorem Separated.head_ne {rest : List Char} (h : Separated rest) {c : Char} (hc : c ≠ ' ') : rest.head? ≠ some c :=
  fun hhead => hc (h c hhead)

section Runs

variable {p : Char → Bool} {word rest : List Char}

theorem takeWhile_run (hword : ∀ c ∈ word, p c = true) (hrest : ∀ c ∈ rest.head?, p c = false) :
    (word ++ rest).takeWhile p = word := by
  rw [List.takeWhile_append_of_pos hword]
  cases rest with
  | nil => exact List.append_nil word
  | cons c rest => simp [hrest c rfl]

theorem dropWhile_run (hword : ∀ c ∈ word, p c = true) (hrest : ∀ c ∈ rest.head?, p c = false) :
    (word ++ rest).dropWhile p = rest := by
  rw [List.dropWhile_append_of_pos hword]
  cases rest with
  | nil => rfl
  | cons c rest => simp [hrest c rfl]

end Runs

/-- The characters that the tokenizer looks for before numbers and words. -/
def special : List Char := [' ', '\t', '\r', '\n', '=', '!', '>', '<', '&', '|', '\x22', '\x27']

theorem not_special {p : Char → Bool} (hspecial : special.any p = false) {c : Char} (hc : p c = true) : c ∉ special := by
  intro hmem
  exact List.any_eq_false.mp hspecial c hmem hc

theorem tokenize_loop_of_not_special {fuel : Nat} {c : Char} {rest : List Char} {tokens : List Token} (h : c ∉ special) :
    tokenize_loop ops (fuel + 1) (c :: rest) tokens =
      if c.isDigit ∨ (c = '-' ∧ rest.head?.any Char.isDigit) then
        let text := String.ofList (c :: rest.takeWhile number_char)
        match ops.parse text with
        | none => .error (.invalid_number text)
        | some n => tokenize_loop ops fuel (rest.dropWhile number_char) (tokens ++ [.num n])
      else if c.isAlpha ∨ c = '_' then
        tokenize_loop ops fuel (rest.dropWhile word_char)
          (tokens ++ [word_token (String.ofList (c :: rest.takeWhile word_char))])
      else .error (.unexpected_character c) := by
  simp only [special, List.mem_cons, List.not_mem_nil, or_false, not_or] at h
  simp only [tokenize_loop, h, false_and, or_self, if_false]
  rfl

theorem tokenize_loop_quote {fuel : Nat} {c : Char} {text after : List Char} {tokens : List Token}
    (h : c = '\x22' ∨ c = '\x27') (htake : (text ++ c :: after).takeWhile (· ≠ c) = text)
    (hdrop : (text ++ c :: after).dropWhile (· ≠ c) = c :: after) :
    tokenize_loop ops (fuel + 1) (c :: (text ++ c :: after)) tokens =
      tokenize_loop ops fuel after (tokens ++ [.str (String.ofList text)]) := by
  rcases h with rfl | rfl
  all_goals
    simp only [tokenize_loop, Char.reduceEq, or_self, or_true, true_or, false_and, if_true, if_false]
    rw [htake, hdrop]

theorem isDigit_of_isAlpha {c : Char} (h : c.isAlpha = true) : c.isDigit = false := by
  have hnine : '9'.val.toNat = 57 := rfl
  have hletter : (decide ('A'.val ≤ c.val ∧ c.val ≤ 'Z'.val) || decide ('a'.val ≤ c.val) && decide (c.val ≤ 'z'.val)) = true :=
    h
  have hdigit : c.isDigit = (decide ('0'.val ≤ c.val) && decide (c.val ≤ '9'.val)) := rfl
  rw [hdigit]
  simp only [Bool.or_eq_true, Bool.and_eq_true, decide_eq_true_eq, Bool.and_eq_false_iff, decide_eq_false_iff_not,
    UInt32.le_iff_toNat_le] at hletter ⊢
  have hupper : 'A'.val.toNat = 65 := rfl
  have hlower : 'a'.val.toNat = 97 := rfl
  omega

/-- A lexeme is read as its token, before a space or at the end of the text. -/
def Lexes (ops : F64Ops) (chars : List Char) (token : Token) : Prop :=
  ∀ ⦃fuel rest tokens⦄, Separated rest →
    tokenize_loop ops (fuel + 1) (chars ++ rest) tokens = tokenize_loop ops fuel rest (tokens ++ [token])

theorem lexes_str (s : StringLiteral) : Lexes ops s.chars (.str (String.ofList s.text)) := by
  intro fuel rest tokens _
  have hfree : ∀ c ∈ s.text, decide (c ≠ s.quote) = true := fun c hc => decide_eq_true fun heq => s.unquoted (heq ▸ hc)
  have hstop : ∀ c ∈ (s.quote :: rest).head?, decide (c ≠ s.quote) = false := by
    rintro c ⟨⟩
    exact decide_eq_false (not_not_intro rfl)
  have hchars : s.chars ++ rest = s.quote :: (s.text ++ s.quote :: rest) := by
    simp [StringLiteral.chars]
  rw [hchars]
  exact tokenize_loop_quote s.is_quote (takeWhile_run hfree hstop) (dropWhile_run hfree hstop)

theorem lexes_num (n : NumberLiteral ops) : Lexes ops n.chars (.num n.value) := by
  intro fuel rest tokens hrest
  have hstop := hrest.not_head (p := number_char) (by decide)
  have hdigit : n.digit ∉ special := not_special (p := Char.isDigit) rfl n.is_digit
  have hparse := n.parses
  rw [NumberLiteral.chars]
  cases hnegative : n.negative with
  | false =>
    rw [hnegative] at hparse
    simp only [Bool.false_eq_true, if_false, List.cons_append] at hparse ⊢
    rw [tokenize_loop_of_not_special hdigit, if_pos (Or.inl n.is_digit), takeWhile_run n.are_number_chars hstop,
      dropWhile_run n.are_number_chars hstop]
    simp only [hparse]
  | true =>
    rw [hnegative] at hparse
    have hall : ∀ c ∈ n.digit :: n.others, number_char c = true := by
      intro c hc
      cases hc with
      | head => simp [number_char, n.is_digit]
      | tail _ hc => exact n.are_number_chars c hc
    have htake := takeWhile_run hall hstop
    have hdrop := dropWhile_run hall hstop
    have hminus : '-' ∉ special := by decide
    simp only [if_true, List.cons_append] at hparse htake hdrop ⊢
    rw [tokenize_loop_of_not_special hminus, if_pos (Or.inr ⟨rfl, n.is_digit⟩), htake, hdrop]
    simp only [hparse]

/-- A run of word characters behind a letter or an underscore. -/
theorem lexes_word {first : Char} {others : List Char} (hfirst : first.isAlpha = true ∨ first = '_')
    (hothers : ∀ c ∈ others, word_char c = true) :
    Lexes ops (first :: others) (word_token (String.ofList (first :: others))) := by
  intro fuel rest tokens hrest
  have hstop := hrest.not_head (p := word_char) (by decide)
  have hletter : (first.isAlpha || first = '_') = true := by simpa using hfirst
  have hspecial : first ∉ special := not_special (p := fun c => c.isAlpha || c = '_') rfl hletter
  have hnumber : ¬(first.isDigit = true ∨ first = '-' ∧ (others ++ rest).head?.any Char.isDigit = true) := by
    rcases hfirst with halpha | rfl
    · rw [isDigit_of_isAlpha halpha]
      rintro (hdigit | ⟨rfl, _⟩)
      · cases hdigit
      · cases halpha
    · rintro (hdigit | ⟨hminus, _⟩)
      · cases hdigit
      · cases hminus
  rw [List.cons_append, tokenize_loop_of_not_special hspecial, if_neg hnumber, if_pos hfirst, takeWhile_run hothers hstop,
    dropWhile_run hothers hstop]

theorem lexes_ident (i : Identifier) : Lexes ops i.chars (.ident i.path) := by
  have hword : Lexes ops i.chars (word_token i.path) := lexes_word i.is_first i.are_word_chars
  have hkeyword := i.no_keyword
  simp only [List.mem_cons, List.not_mem_nil, or_false, not_or] at hkeyword
  rwa [word_token, Identifier.path, Identifier.chars, if_neg hkeyword.1, if_neg hkeyword.2.1, if_neg hkeyword.2.2] at hword

theorem lexes_bool (b : Bool) : Lexes ops (Literal.bool b : Literal ops).chars (.bool b) := by
  cases b with
  | true => exact lexes_word (Or.inl rfl) (List.all_eq_true.mp rfl)
  | false => exact lexes_word (Or.inl rfl) (List.all_eq_true.mp rfl)

theorem lexes_null : Lexes ops (Literal.null : Literal ops).chars .null :=
  lexes_word (Or.inl rfl) (List.all_eq_true.mp rfl)

/-- An operator of one character could go on with `=`, but never before a space. -/
theorem lexes_comp (op : CompOp) : Lexes ops op.chars op.token := by
  intro fuel rest tokens hrest
  have hequals : rest.head? ≠ some '=' := hrest.head_ne (by decide)
  cases op <;> simp [CompOp.chars, CompOp.token, tokenize_loop, hequals]

theorem lexes_not : Lexes ops ['!'] .not := by
  intro fuel rest tokens hrest
  have hequals : rest.head? ≠ some '=' := hrest.head_ne (by decide)
  simp [tokenize_loop, hequals]

theorem Lexeme.lexes (l : Lexeme ops) : Lexes ops l.chars l.token := by
  cases l with
  | literal l =>
    cases l with
    | str s => exact lexes_str s
    | num n => exact lexes_num n
    | bool b => exact lexes_bool b
    | null => exact lexes_null
    | ident i => exact lexes_ident i
  | comp op => exact lexes_comp op
  | and => exact fun fuel rest tokens _ => by simp [chars, token, tokenize_loop]
  | or => exact fun fuel rest tokens _ => by simp [chars, token, tokenize_loop]
  | not => exact lexes_not

theorem tokenize_loop_spaces {fuel n : Nat} {rest : List Char} {tokens : List Token} :
    tokenize_loop ops (fuel + n) (List.replicate n ' ' ++ rest) tokens = tokenize_loop ops fuel rest tokens := by
  induction n with
  | zero => rfl
  | succ n ih =>
    rw [List.replicate_succ, List.cons_append, ← Nat.add_assoc, tokenize_loop, if_pos (Or.inl rfl)]
    exact ih

theorem tokenize_loop_spaced (lexemes : List (Lexeme ops)) :
    ∀ {gap fuel tokens}, (spaced gap lexemes).length ≤ fuel →
      tokenize_loop ops fuel (spaced gap lexemes) tokens = .ok (tokens ++ lexemes.map Lexeme.token) := by
  induction lexemes with
  | nil =>
    intro gap fuel tokens _
    rw [spaced, List.map_nil, List.append_nil]
    cases fuel <;> rfl
  | cons l rest ih =>
    intro gap fuel tokens hfuel
    have hone := l.one_le_length_chars
    cases rest with
    | nil =>
      rw [spaced] at hfuel ⊢
      obtain ⟨fuel, rfl⟩ : ∃ less, fuel = less + 1 := ⟨fuel - 1, by omega⟩
      have hlex := @Lexeme.lexes ops l fuel [] tokens nofun
      rw [List.append_nil] at hlex
      rw [hlex]
      cases fuel <;> rfl
    | cons next rest =>
      rw [spaced] at hfuel ⊢
      simp only [List.length_append, List.length_replicate] at hfuel
      obtain ⟨less, rfl⟩ : ∃ less, fuel = less + (gap 0 + 1) + 1 := ⟨fuel - (gap 0 + 1) - 1, by omega⟩
      have hspace : Separated (List.replicate (gap 0 + 1) ' ' ++ spaced (fun i => gap (i + 1)) (next :: rest)) := by
        rintro c ⟨⟩
        rfl
      rw [l.lexes hspace, tokenize_loop_spaces, ih (by omega), List.append_assoc]
      rfl

theorem tokenize_render (gap : Nat → Nat) (tree : OrExpr (Literal ops)) :
    tokenize ops (OrExpr.render gap tree) = .ok (OrExpr.tokens Literal.primary tree) := by
  rw [tokenize, OrExpr.render, String.toList_ofList, tokenize_loop_spaced _ (Nat.le_refl _), List.nil_append,
    OrExpr.tokens_eq_map]

/-- The evaluator implements its grammar: a tree's text is read as its tokens
and evaluates to what the tree denotes, and a token list is evaluated exactly
if it is derivable. -/
theorem evaluate_implements_grammar (ops : F64Ops) :
    (∀ (tree : OrExpr (Literal ops)) (gap : Nat → Nat),
      tokenize ops (OrExpr.render gap tree) = .ok (OrExpr.tokens Literal.primary tree) ∧
      ∀ data, evaluate ops (OrExpr.render gap tree) data = .ok (OrExpr.denote Literal.primary ops data tree)) ∧
    ∀ tokens data, (∃ b, evaluate_tokens ops tokens data = .ok b) ↔ Derivable tokens := by
  refine ⟨fun tree gap => ⟨tokenize_render gap tree, fun data => ?_⟩, evaluate_tokens_ok_iff ops⟩
  rw [evaluate_of_tokenize (tokenize_render gap tree), evaluate_tokens_tokens]

end flow_engine.expression
