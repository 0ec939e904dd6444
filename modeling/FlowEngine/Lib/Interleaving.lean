import Mathlib.Data.List.Perm.Basic

namespace interleaving

variable {κ α : Type*} [DecidableEq κ]

/-- What one writer has put into a list that several write to, in its order. -/
def thread (k : κ) (xs : List (κ × α)) : List α := (xs.filter fun x => x.1 = k).map Prod.snd

/-- Two lists differ at most in how the writers take turns. -/
def SameThreads (xs ys : List (κ × α)) : Prop := ∀ k, thread k xs = thread k ys

variable {k : κ} {xs ys : List (κ × α)}

@[simp] theorem thread_nil : thread k ([] : List (κ × α)) = [] := rfl

@[simp] theorem thread_append : thread k (xs ++ ys) = thread k xs ++ thread k ys := by simp [thread]

theorem thread_cons_self (a : α) : thread k ((k, a) :: xs) = a :: thread k xs := by simp [thread]

theorem thread_cons_of_ne {other : κ} (h : other ≠ k) (a : α) : thread k ((other, a) :: xs) = thread k xs := by
  simp [thread, h]

theorem thread_filter (p : α → Bool) : thread k (xs.filter fun x => p x.2) = (thread k xs).filter p := by
  rw [thread, thread, List.filter_map, List.filter_comm]
  rfl

/-- The writers of a list made of one whose elements tell their writers. -/
theorem thread_map {β : Type*} (writer : β → κ) (value : β → α) (zs : List β) :
    thread k (zs.map fun z => (writer z, value z)) = (zs.filter fun z => writer z = k).map value := by
  rw [thread, List.filter_map, List.map_map]
  rfl

/-- A writer's part of a list is told by its thread. -/
theorem filter_eq_map_thread : (xs.filter fun x => x.1 = k) = (thread k xs).map fun a => (k, a) := by
  rw [thread, List.map_map]
  refine (List.map_id _).symm.trans (List.map_congr_left fun x hx => ?_)
  obtain ⟨_, hkey⟩ := List.mem_filter.mp hx
  exact Prod.ext (of_decide_eq_true hkey) rfl

/-- Lists with the same threads have the same elements. -/
theorem SameThreads.perm (h : SameThreads xs ys) : xs.Perm ys := by
  classical
  rw [List.perm_iff_count]
  rintro ⟨k, a⟩
  have hcount : ∀ zs : List (κ × α), zs.count (k, a) = (zs.filter fun z => z.1 = k).count (k, a) := by
    intro zs
    rw [List.count_filter]
    exact decide_eq_true rfl
  rw [hcount xs, hcount ys, filter_eq_map_thread, filter_eq_map_thread, h k]

end interleaving
