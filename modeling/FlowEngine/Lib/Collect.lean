import Mathlib.Data.List.Basic
import Mathlib.Order.Basic

namespace collecting

variable {ε α β : Type} {visit : α → Except ε (Option β)} {limit : Nat}

/-- Visiting the elements of a list in turn, until enough results have been
found. The limit is only looked at behind a result. -/
def collect (visit : α → Except ε (Option β)) (limit : Nat) : List α → List β → Except ε (List β)
  | [], found => .ok found
  | a :: rest, found =>
    match visit a with
    | .error e => .error e
    | .ok none => collect visit limit rest found
    | .ok (some b) =>
      if limit ≤ (found ++ [b]).length then .ok (found ++ [b]) else collect visit limit rest (found ++ [b])

/-- The loop goes on for as many results as are missing, and for one at least. -/
theorem collect_eq_ok {f : α → Option β} {list : List α} (hvisit : ∀ a ∈ list, visit a = .ok (f a)) :
    ∀ {found}, found.length < max 1 limit →
      collect visit limit list found = .ok (found ++ (list.filterMap f).take (max 1 limit - found.length)) := by
  induction list with
  | nil =>
    intro found _
    simp [collect]
  | cons a rest ih =>
    intro found hfound
    have hrest := @ih fun b hb => hvisit b (List.mem_cons_of_mem _ hb)
    rw [collect, hvisit a List.mem_cons_self]
    cases hfa : f a with
    | none => rw [List.filterMap_cons_none hfa, hrest hfound]
    | some b =>
      rw [List.filterMap_cons_some hfa]
      by_cases hlimit : limit ≤ (found ++ [b]).length
      · have hone : max 1 limit - found.length = 1 := by
          rw [List.length_append, List.length_singleton] at hlimit
          omega
        simp only [if_pos hlimit, hone, List.take_succ_cons, List.take_zero]
      · have hmore : (found ++ [b]).length < max 1 limit := by omega
        have hleft : max 1 limit - found.length = max 1 limit - (found ++ [b]).length + 1 := by
          rw [List.length_append, List.length_singleton] at hmore ⊢
          omega
        simp only [if_neg hlimit, hrest hmore, hleft, List.take_succ_cons, List.append_assoc, List.singleton_append]

theorem collect_nil_eq_ok {f : α → Option β} {list : List α} (hvisit : ∀ a ∈ list, visit a = .ok (f a)) :
    collect visit limit list [] = .ok ((list.filterMap f).take (max 1 limit)) := by
  have hstart : ([] : List β).length < max 1 limit := by
    rw [List.length_nil]
    omega
  exact collect_eq_ok hvisit hstart

/-- Taking one element at least is taking up to the limit, unless that is zero. -/
theorem take_max_one_eq_iff (limit : Nat) (list : List β) :
    list.take (max 1 limit) = list.take limit ↔ limit ≠ 0 ∨ list = [] := by
  cases limit with
  | zero => cases list <;> simp
  | succ limit => simp

end collecting
