import Mathlib.Logic.Function.Iterate

namespace grammar

variable {ε τ σ α β γ S T : Type}

/-- A reader takes a value off the front of its tokens. -/
abbrev Reader (ε τ α : Type) := List τ → Except ε (α × List τ)

/-- What is read is a text of the syntax, and the value is observed as its meaning. -/
def Sound (read : Reader ε τ α) (text : S → List τ) (observe : α → β) (meaning : S → β) : Prop :=
  ∀ ⦃input rest v⦄, read input = .ok (v, rest) → ∃ s, input = text s ++ rest ∧ observe v = meaning s

/-- A text of the syntax is read to its end, as its meaning, before any tokens that may follow it. -/
def Accepts (read : Reader ε τ α) (text : S → List τ) (observe : α → β) (meaning : S → β) (follow : List τ → Prop) : Prop :=
  ∀ s ⦃rest⦄, follow rest → ∃ v, read (text s ++ rest) = .ok (v, rest) ∧ observe v = meaning s

theorem bind_eq_ok {e : Except ε α} {f : α → Except ε β} {b : β} (h : (e >>= f) = .ok b) :
    ∃ a, e = .ok a ∧ f a = .ok b := by
  cases e with
  | error e => cases h
  | ok a => exact ⟨a, rfl, h⟩

theorem ok_bind {e : Except ε α} {f : α → Except ε β} {a : α} (h : e = .ok a) : (e >>= f) = f a := by
  rw [h]
  rfl

section Rules

variable {read : Reader ε τ α} {text : S → List τ} {observe : α → β} {meaning : S → β} {follow : List τ → Prop}

/-- A syntax that is mapped into another is read through it. -/
theorem Accepts.comap (h : Accepts read text observe meaning follow) (f : T → S) :
    Accepts read (fun t => text (f t)) observe (fun t => meaning (f t)) follow :=
  fun t _ hrest => h (f t) hrest

/-- All of the tokens are read exactly if they are a text of the syntax. -/
theorem read_all_iff (hsound : Sound read text observe meaning) (haccepts : Accepts read text observe meaning follow)
    (hend : follow []) (input : List τ) : (∃ v, read input = .ok (v, [])) ↔ ∃ s, input = text s := by
  constructor
  · rintro ⟨v, hread⟩
    obtain ⟨s, hinput, _⟩ := hsound hread
    exact ⟨s, hinput.trans (List.append_nil _)⟩
  · rintro ⟨s, rfl⟩
    obtain ⟨v, hread, _⟩ := haccepts s hend
    rw [List.append_nil] at hread
    exact ⟨v, hread⟩

end Rules

/-- A text, perhaps with an operator and a second one behind it. -/
structure Optional (σ S : Type) where
  left : S
  right : Option (σ × S)

namespace Optional

def text (operator : σ → List τ) (item : S → List τ) (s : Optional σ S) : List τ :=
  item s.left ++ s.right.elim [] fun right => operator right.1 ++ item right.2

theorem map_text (f : τ → ε) (operator : σ → List τ) (item : S → List τ) (s : Optional σ S) :
    (text operator item s).map f = text (fun op => (operator op).map f) (fun t => (item t).map f) s := by
  obtain ⟨left, right⟩ := s
  cases right <;> simp [text]

def meaning (apply : σ → β → β → γ) (alone : β → γ) (item : S → β) (s : Optional σ S) : γ :=
  s.right.elim (alone (item s.left)) fun right => apply right.1 (item s.left) (item right.2)

end Optional

/-- Reading an item, and a second one behind an operator. -/
def optional (read : Reader ε τ α) (operator : τ → Option σ) (apply : σ → α → α → α) : Reader ε τ α := fun tokens => do
  let (left, rest) ← read tokens
  match rest with
  | [] => .ok (left, rest)
  | token :: after =>
    match operator token with
    | none => .ok (left, rest)
    | some op =>
      let (right, rest) ← read after
      .ok (apply op left right, rest)

section Optional

variable {read : Reader ε τ α} {item : S → List τ} {means : S → α} {operator : τ → Option σ} {token_of : σ → τ}
  {apply : σ → α → α → α} {observe : α → β}

theorem sound_optional (h : Sound read item id means) (hoperator : ∀ token op, operator token = some op → token = token_of op) :
    Sound (optional read operator apply) (Optional.text (fun op => [token_of op]) item) observe
      (Optional.meaning (fun op l r => observe (apply op l r)) observe means) := by
  intro input rest v hread
  obtain ⟨⟨left, middle⟩, hleft, hread⟩ := bind_eq_ok hread
  obtain ⟨s, rfl, rfl⟩ := h hleft
  cases middle with
  | nil =>
    cases hread
    exact ⟨⟨s, none⟩, by simp [Optional.text], rfl⟩
  | cons token after =>
    cases hop : operator token with
    | none =>
      simp only [hop] at hread
      cases hread
      exact ⟨⟨s, none⟩, by simp [Optional.text], rfl⟩
    | some op =>
      simp only [hop] at hread
      obtain ⟨⟨right, last⟩, hright, hdone⟩ := bind_eq_ok hread
      cases hdone
      obtain ⟨t, rfl, rfl⟩ := h hright
      rw [hoperator token op hop]
      exact ⟨⟨s, some (op, t)⟩, by simp [Optional.text], rfl⟩

theorem accepts_optional (h : Accepts read item id means fun _ => True)
    (hoperator : ∀ op, operator (token_of op) = some op) :
    Accepts (optional read operator apply) (Optional.text (fun op => [token_of op]) item) observe
      (Optional.meaning (fun op l r => observe (apply op l r)) observe means)
      (fun rest => ∀ token ∈ rest.head?, operator token = none) := by
  rintro ⟨s, right⟩ rest hrest
  cases right with
  | none =>
    obtain ⟨_, hleft, rfl⟩ := @h s rest trivial
    refine ⟨means s, ?_, rfl⟩
    rw [optional, Optional.text]
    simp only [Option.elim_none, List.append_nil]
    rw [ok_bind hleft]
    cases rest with
    | nil => rfl
    | cons token after => simp only [hrest token rfl]
  | some right =>
    obtain ⟨op, t⟩ := right
    obtain ⟨_, hleft, rfl⟩ := @h s (token_of op :: (item t ++ rest)) trivial
    obtain ⟨_, hright, rfl⟩ := @h t rest trivial
    refine ⟨apply op (means s) (means t), ?_, rfl⟩
    rw [optional, Optional.text]
    simp only [Option.elim_some, List.append_assoc, List.cons_append, List.nil_append]
    rw [ok_bind hleft]
    simp only [hoperator]
    rw [ok_bind hright]

end Optional

/-- A text with some number of marks before it. -/
structure Marked (S : Type) where
  marks : Nat
  body : S

namespace Marked

def text (mark : τ) (item : S → List τ) (s : Marked S) : List τ := List.replicate s.marks mark ++ item s.body

def meaning (apply : β → β) (item : S → β) (s : Marked S) : β := apply^[s.marks] (item s.body)

theorem map_text (f : τ → σ) (mark : τ) (item : S → List τ) (s : Marked S) :
    (text mark item s).map f = text (f mark) (fun t => (item t).map f) s := by
  simp [text]

end Marked

/-- Reading an item behind its marks, each of which changes its value. -/
def marked (read : Reader ε τ α) (is_mark : τ → Bool) (apply : α → α) : Reader ε τ α
  | [] => read []
  | token :: rest =>
    if is_mark token then do
      let (v, rest) ← marked read is_mark apply rest
      .ok (apply v, rest)
    else read (token :: rest)

section Marked

variable {read : Reader ε τ α} {item : S → List τ} {observe : α → β} {means : S → β} {follow : List τ → Prop}
  {is_mark : τ → Bool} {mark : τ} {apply : α → α} {change : β → β}

theorem sound_marked (h : Sound read item observe means) (hmark : ∀ token, is_mark token → token = mark)
    (happly : ∀ v, observe (apply v) = change (observe v)) :
    Sound (marked read is_mark apply) (Marked.text mark item) observe (Marked.meaning change means) := by
  intro input
  induction input with
  | nil =>
    intro rest v hread
    obtain ⟨s, hinput, hv⟩ := h hread
    exact ⟨⟨0, s⟩, hinput, hv⟩
  | cons token after ih =>
    intro rest v hread
    rw [marked] at hread
    by_cases his : is_mark token
    · rw [if_pos his] at hread
      obtain ⟨⟨body, last⟩, hbody, hdone⟩ := bind_eq_ok hread
      cases hdone
      obtain ⟨s, hinput, hv⟩ := ih hbody
      refine ⟨⟨s.marks + 1, s.body⟩, ?_, ?_⟩
      · rw [hmark token his, hinput]
        rfl
      · rw [happly, hv]
        exact (Function.iterate_succ_apply' change s.marks (means s.body)).symm
    · rw [if_neg his] at hread
      obtain ⟨s, hinput, hv⟩ := h hread
      exact ⟨⟨0, s⟩, hinput, hv⟩

theorem accepts_marked (h : Accepts read item observe means follow) (hmark : is_mark mark)
    (hitem : ∀ s, ∃ token after, item s = token :: after ∧ is_mark token = false)
    (happly : ∀ v, observe (apply v) = change (observe v)) :
    Accepts (marked read is_mark apply) (Marked.text mark item) observe (Marked.meaning change means) follow := by
  rintro ⟨marks, s⟩ rest hrest
  induction marks with
  | zero =>
    obtain ⟨v, hread, hv⟩ := h s hrest
    obtain ⟨token, after, hs, hnot⟩ := hitem s
    refine ⟨v, ?_, hv⟩
    rw [← hread]
    simp only [Marked.text, List.replicate_zero, List.nil_append, hs, List.cons_append, marked, hnot]
    rfl
  | succ marks ih =>
    obtain ⟨v, hread, hv⟩ := ih
    refine ⟨apply v, ?_, ?_⟩
    · simp only [Marked.text, List.replicate_succ, List.cons_append, marked, hmark, if_true] at hread ⊢
      rw [ok_bind hread]
    · rw [happly, hv]
      exact (Function.iterate_succ_apply' change marks (means s)).symm

end Marked

/-- A text and any number of further ones, with separators between them. -/
structure Chain (S : Type) where
  first : S
  others : List S

namespace Chain

def tail_text (separator : τ) (item : S → List τ) (others : List S) : List τ :=
  others.flatMap fun other => separator :: item other

def text (separator : τ) (item : S → List τ) (s : Chain S) : List τ := item s.first ++ tail_text separator item s.others

/-- The operation groups to the left. -/
def meaning (apply : β → β → β) (item : S → β) (s : Chain S) : β :=
  s.others.foldl (fun left other => apply left (item other)) (item s.first)

theorem map_text (f : τ → σ) (separator : τ) (item : S → List τ) (s : Chain S) :
    (text separator item s).map f = text (f separator) (fun t => (item t).map f) s := by
  simp [text, tail_text, List.map_flatMap]

/-- The chain with a given item between others. -/
def around (before : List S) (item : S) (after : List S) : Chain S :=
  match before with
  | [] => ⟨item, after⟩
  | first :: others => ⟨first, others ++ item :: after⟩

/-- An item counts in its chain as its meaning. -/
theorem meaning_around_congr {apply : β → β → β} {item : S → β} {before after : List S} {s t : S} (h : item s = item t) :
    meaning apply item (around before s after) = meaning apply item (around before t after) := by
  cases before with
  | nil => simp only [meaning, around, h]
  | cons first others => simp only [meaning, around, List.foldl_append, List.foldl_cons, h]

theorem length_le_tail_text (separator : τ) (item : S → List τ) (others : List S) :
    others.length ≤ (tail_text separator item others).length := by
  induction others with
  | nil => exact Nat.le_refl 0
  | cons other others ih =>
    simp only [tail_text, List.flatMap_cons, List.length_append, List.length_cons] at ih ⊢
    omega

end Chain

/-- Reading what follows the first item of a chain, a separator and an item at a time. -/
def chain_loop (read : Reader ε τ α) (is_separator : τ → Bool) (apply : α → α → α) : Nat → α → Reader ε τ α
  | _, left, [] => .ok (left, [])
  | 0, left, tokens => .ok (left, tokens)
  | fuel + 1, left, token :: rest =>
    if is_separator token then do
      let (right, rest) ← read rest
      chain_loop read is_separator apply fuel (apply left right) rest
    else .ok (left, token :: rest)

/-- Reading a chain of items. -/
def chain (read : Reader ε τ α) (is_separator : τ → Bool) (apply : α → α → α) : Reader ε τ α := fun tokens => do
  let (left, rest) ← read tokens
  chain_loop read is_separator apply rest.length left rest

section Chain

variable {read : Reader ε τ α} {item : S → List τ} {observe : α → β} {means : S → β} {follow : List τ → Prop}
  {is_separator : τ → Bool} {separator : τ} {apply : α → α → α} {combine : β → β → β}

theorem sound_chain_loop (h : Sound read item observe means) (hseparator : ∀ token, is_separator token → token = separator)
    (happly : ∀ l r, observe (apply l r) = combine (observe l) (observe r)) {fuel : Nat} :
    ∀ {left input rest v}, chain_loop read is_separator apply fuel left input = .ok (v, rest) →
      ∃ others, input = Chain.tail_text separator item others ++ rest ∧
        observe v = others.foldl (fun l other => combine l (means other)) (observe left) := by
  induction fuel with
  | zero =>
    intro left input rest v hread
    cases input <;> cases hread <;> exact ⟨[], rfl, rfl⟩
  | succ fuel ih =>
    intro left input rest v hread
    cases input with
    | nil =>
      cases hread
      exact ⟨[], rfl, rfl⟩
    | cons token after =>
      rw [chain_loop] at hread
      by_cases his : is_separator token
      · rw [if_pos his] at hread
        obtain ⟨⟨right, middle⟩, hright, hloop⟩ := bind_eq_ok hread
        obtain ⟨s, hs, hv⟩ := h hright
        obtain ⟨others, hothers, hvalue⟩ := ih hloop
        refine ⟨s :: others, ?_, ?_⟩
        · rw [hseparator token his, hs, hothers]
          simp [Chain.tail_text]
        · rw [hvalue, happly, hv]
          rfl
      · rw [if_neg his] at hread
        cases hread
        exact ⟨[], rfl, rfl⟩

theorem sound_chain (h : Sound read item observe means) (hseparator : ∀ token, is_separator token → token = separator)
    (happly : ∀ l r, observe (apply l r) = combine (observe l) (observe r)) :
    Sound (chain read is_separator apply) (Chain.text separator item) observe (Chain.meaning combine means) := by
  intro input rest v hread
  obtain ⟨⟨left, middle⟩, hleft, hloop⟩ := bind_eq_ok hread
  obtain ⟨s, rfl, hs⟩ := h hleft
  obtain ⟨others, rfl, hv⟩ := sound_chain_loop h hseparator happly hloop
  rw [hs] at hv
  exact ⟨⟨s, others⟩, (List.append_assoc ..).symm, hv⟩

theorem accepts_chain_loop (h : Accepts read item observe means follow) (hseparator : is_separator separator)
    (hfollow : ∀ rest, follow (separator :: rest)) (happly : ∀ l r, observe (apply l r) = combine (observe l) (observe r))
    {rest : List τ} (hrest : follow rest) (hend : ∀ token ∈ rest.head?, is_separator token = false) (others : List S) :
    ∀ fuel left, others.length ≤ fuel →
      ∃ v, chain_loop read is_separator apply fuel left (Chain.tail_text separator item others ++ rest) = .ok (v, rest) ∧
        observe v = others.foldl (fun l other => combine l (means other)) (observe left) := by
  induction others with
  | nil =>
    intro fuel left _
    refine ⟨left, ?_, rfl⟩
    cases rest with
    | nil => cases fuel <;> rfl
    | cons token after =>
      cases fuel with
      | zero => rfl
      | succ fuel =>
        have hnot := hend token rfl
        change (if is_separator token then _ else _) = _
        rw [hnot]
        rfl
  | cons other others ih =>
    intro fuel left hfuel
    cases fuel with
    | zero => cases hfuel
    | succ fuel =>
      have hnext : follow (Chain.tail_text separator item others ++ rest) := by
        cases others with
        | nil => exact hrest
        | cons next others => exact hfollow _
      obtain ⟨right, hright, hobserved⟩ := h other hnext
      obtain ⟨v, hloop, hv⟩ := ih fuel (apply left right) (Nat.le_of_succ_le_succ hfuel)
      refine ⟨v, ?_, ?_⟩
      · have htext : Chain.tail_text separator item (other :: others) ++ rest
            = separator :: (item other ++ (Chain.tail_text separator item others ++ rest)) := by
          simp [Chain.tail_text]
        rw [htext, chain_loop, if_pos hseparator, ok_bind hright]
        exact hloop
      · rw [hv, happly, hobserved]
        rfl

theorem accepts_chain (h : Accepts read item observe means follow) (hseparator : is_separator separator)
    (hfollow : ∀ rest, follow (separator :: rest)) (happly : ∀ l r, observe (apply l r) = combine (observe l) (observe r)) :
    Accepts (chain read is_separator apply) (Chain.text separator item) observe (Chain.meaning combine means)
      (fun rest => follow rest ∧ ∀ token ∈ rest.head?, is_separator token = false) := by
  rintro ⟨first, others⟩ rest ⟨hrest, hend⟩
  have hnext : follow (Chain.tail_text separator item others ++ rest) := by
    cases others with
    | nil => exact hrest
    | cons next others => exact hfollow _
  obtain ⟨left, hleft, hobserved⟩ := h first hnext
  have hfuel : others.length ≤ (Chain.tail_text separator item others ++ rest).length := by
    have hlength := Chain.length_le_tail_text separator item others
    simp only [List.length_append]
    omega
  obtain ⟨v, hloop, hv⟩ := accepts_chain_loop h hseparator hfollow happly hrest hend others _ left hfuel
  refine ⟨v, ?_, ?_⟩
  · rw [Chain.text, List.append_assoc, chain, ok_bind hleft]
    exact hloop
  · rw [hv, hobserved]
    rfl

end Chain

end grammar
