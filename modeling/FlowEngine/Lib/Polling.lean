import Mathlib.Algebra.Ring.Nat
import Mathlib.Data.List.Infix

namespace polling

variable {State Line Item : Type*} (read : State → Line → State × Option Item)

/-- The items of lines that are read one by one. -/
def items : State → List Line → List Item
  | _, [] => []
  | s, line :: lines => (read s line).2.toList ++ items (read s line).1 lines

def after (s : State) (lines : List Line) : State := lines.foldl (fun s line => (read s line).1) s

/-- Lines are read up to the first item, and the others are left. -/
def next : State → List Line → State × List Line × Option Item
  | s, [] => (s, [], none)
  | s, line :: lines =>
    match read s line with
    | (s, some item) => (s, lines, some item)
    | (s, none) => next s lines

/-- Each batch of lines comes behind those that are left, and then one item is taken. -/
def polled : State → List Line → List (List Line) → List Item
  | _, _, [] => []
  | s, left, batch :: batches =>
    (next read s (left ++ batch)).2.2.toList ++
      polled (next read s (left ++ batch)).1 (next read s (left ++ batch)).2.1 batches

/-- The number of items in each batch. -/
def completed : State → List (List Line) → List Nat
  | _, [] => []
  | s, batch :: batches => (items read s batch).length :: completed (after read s batch) batches

/-- How many are left where some arrive and then one is taken, again and again. -/
def backlog : Nat → List Nat → Nat
  | left, [] => left
  | left, count :: counts => backlog (left + count - 1) counts

/-- The greatest number by which the last arrivals exceed the number of times they come. -/
def excess : List Nat → Nat
  | [] => 0
  | count :: counts => max (excess counts) ((count :: counts).sum - (count :: counts).length)

theorem excess_le_iff (counts : List Nat) (d : Nat) :
    excess counts ≤ d ↔ ∀ last, last <:+ counts → last.sum ≤ last.length + d := by
  induction counts with
  | nil => simp [excess]
  | cons count counts ih =>
    rw [excess, Nat.max_le, ih]
    constructor
    · rintro ⟨hlast, hall⟩ last hsuffix
      cases List.suffix_cons_iff.mp hsuffix with
      | inl heq =>
        rw [heq]
        omega
      | inr hsuffix => exact hlast last hsuffix
    · intro hlast
      have hall := hlast _ (List.suffix_refl _)
      exact ⟨fun last hsuffix => hlast last (hsuffix.trans (List.suffix_cons count counts)), by omega⟩

/-- What arrives last is left where it exceeds what is taken. -/
theorem backlog_eq (left : Nat) (counts : List Nat) :
    backlog left counts = max (excess counts) (left + counts.sum - counts.length) := by
  induction counts generalizing left with
  | nil => simp [backlog, excess]
  | cons count counts ih =>
    have hall := (excess_le_iff counts _).mp le_rfl counts (List.suffix_refl counts)
    rw [backlog, ih, excess, List.sum_cons, List.length_cons]
    omega

theorem items_append (s : State) (first second : List Line) :
    items read s (first ++ second) = items read s first ++ items read (after read s first) second := by
  induction first generalizing s with
  | nil => rfl
  | cons line first ih =>
    rw [List.cons_append, items, ih, items, List.append_assoc]
    rfl

theorem after_append (s : State) (first second : List Line) :
    after read s (first ++ second) = after read (after read s first) second := List.foldl_append

/-- Reading up to the first item takes it off the items of the lines. -/
theorem next_spec (s : State) (lines : List Line) :
    items read s lines = (next read s lines).2.2.toList ++ items read (next read s lines).1 (next read s lines).2.1 ∧
      after read s lines = after read (next read s lines).1 (next read s lines).2.1 ∧
      ((next read s lines).2.2 = none → (next read s lines).2.1 = []) := by
  induction lines generalizing s with
  | nil => exact ⟨rfl, rfl, fun _ => rfl⟩
  | cons line lines ih =>
    rw [items, after, List.foldl_cons, next]
    split
    · rename_i s' item hread
      rw [hread]
      exact ⟨rfl, rfl, fun hnone => nomatch hnone⟩
    · rename_i s' hread
      rw [hread]
      exact ih s'

/-- What is taken is a beginning of all items, and the backlog is the rest. -/
theorem polled_spec (s : State) (left : List Line) (batches : List (List Line)) :
    ∃ rest, items read s (left ++ batches.flatten) = polled read s left batches ++ rest ∧
      rest.length = backlog (items read s left).length (completed read (after read s left) batches) := by
  induction batches generalizing s left with
  | nil => exact ⟨items read s left, by simp [polled], rfl⟩
  | cons batch batches ih =>
    obtain ⟨hitems, hafter, hnone⟩ := next_spec read s (left ++ batch)
    obtain ⟨rest, hrest, hlength⟩ := ih (next read s (left ++ batch)).1 (next read s (left ++ batch)).2.1
    refine ⟨rest, ?_, ?_⟩
    · calc items read s (left ++ (batch :: batches).flatten)
        _ = items read s (left ++ batch) ++ items read (after read s (left ++ batch)) batches.flatten := by
          rw [List.flatten_cons, ← List.append_assoc, items_append]
        _ = (next read s (left ++ batch)).2.2.toList ++
            items read (next read s (left ++ batch)).1 ((next read s (left ++ batch)).2.1 ++ batches.flatten) := by
          rw [hitems, hafter, List.append_assoc, ← items_append]
        _ = polled read s left (batch :: batches) ++ rest := by
          rw [hrest, polled, List.append_assoc]
    · have hcount := congrArg List.length hitems
      rw [items_append, List.length_append, List.length_append] at hcount
      have hleft : (items read (next read s (left ++ batch)).1 (next read s (left ++ batch)).2.1).length =
          (items read s left).length + (items read (after read s left) batch).length - 1 := by
        cases hitem : (next read s (left ++ batch)).2.2 with
        | none =>
          rw [hitem, hnone hitem] at hcount
          rw [hnone hitem]
          simp only [items, Option.toList_none, List.length_nil] at hcount ⊢
          omega
        | some item =>
          rw [hitem] at hcount
          simp only [Option.toList_some, List.length_singleton] at hcount
          omega
      rw [hlength, hleft, completed, backlog, ← hafter, after_append]

/-- Taking one item with each batch gives the expected ones exactly if these are the first
items, and as many others are there as the last batches have in excess. -/
theorem polled_eq_iff (s : State) (batches : List (List Line)) (expected : List Item) :
    polled read s [] batches = expected ↔ expected <+: items read s batches.flatten ∧
      (items read s batches.flatten).length = expected.length + excess (completed read s batches) := by
  obtain ⟨rest, hitems, hlength⟩ := polled_spec read s [] batches
  have hrest : rest.length = excess (completed read s batches) := by
    have hall := (excess_le_iff (completed read s batches) _).mp le_rfl _ (List.suffix_refl _)
    rw [hlength, backlog_eq]
    simp only [items, after, List.foldl_nil, List.length_nil]
    omega
  rw [List.nil_append] at hitems
  rw [hitems, List.length_append, hrest]
  constructor
  · rintro rfl
    exact ⟨List.prefix_append _ _, rfl⟩
  · rintro ⟨hfirst, hcount⟩
    have hsame : expected.length = (polled read s [] batches).length := by omega
    exact ((List.prefix_of_prefix_length_le hfirst (List.prefix_append _ _) hsame.le).eq_of_length hsame).symm

end polling
