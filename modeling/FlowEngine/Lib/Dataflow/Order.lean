import Mathlib.Logic.Relation
import Mathlib.Data.List.Basic
import Mathlib.Data.List.Nodup
import Mathlib.Data.List.Induction

namespace dataflow

/-- A network whose nodes wait for all their sources. A node without sources
has its work from the start; any other node gets its work, or is skipped for
good, when the last of its sources finishes. The decision reads only the
results of the node's own sources. -/
structure Net (V W R : Type*) where
  sources : V → List V
  root : V → Option W
  wake : (V → Option R) → V → V → Option W
  wake_congr : ∀ (found found' : V → Option R) (x v : V), x ∈ sources v →
    (∀ u ∈ sources v, found u = found' u) → wake found x v = wake found' x v

variable {V W R : Type*} (net : Net V W R)

/-- The nodes of an order of finished nodes. -/
def keys (order : List (V × R)) : List V := order.map Prod.fst

@[simp] theorem keys_nil : keys ([] : List (V × R)) = [] := rfl

@[simp] theorem keys_append (first second : List (V × R)) :
    keys (first ++ second) = keys first ++ keys second := List.map_append

@[simp] theorem keys_cons (entry : V × R) (order : List (V × R)) :
    keys (entry :: order) = entry.1 :: keys order := rfl

theorem mem_keys {order : List (V × R)} {v : V} : v ∈ keys order ↔ ∃ r, (v, r) ∈ order := by
  simp [keys]

/-- `x` is the source of `v` that finished last, all others before it. -/
def Closes (order : List (V × R)) (x v : V) : Prop :=
  x ∈ net.sources v ∧ ∃ before r after, order = before ++ (x, r) :: after ∧
    ∀ u ∈ net.sources v, u = x ∨ u ∈ keys before

variable {net}

theorem Closes.sources_mem {order : List (V × R)} {x v : V} (h : Closes net order x v) :
    ∀ u ∈ net.sources v, u ∈ keys order := by
  obtain ⟨_, before, r, after, rfl, hbefore⟩ := h
  intro u hu
  rcases hbefore u hu with rfl | hu
  · simp
  · simp [hu]

/-- A newly finished node closes exactly the nodes it was the last source of. -/
theorem closes_snoc {order : List (V × R)} {x y v : V} {r : R} :
    Closes net (order ++ [(x, r)]) y v ↔ Closes net order y v ∨
      (y = x ∧ x ∈ net.sources v ∧ ∀ u ∈ net.sources v, u = x ∨ u ∈ keys order) := by
  constructor
  · rintro ⟨hy, before, r', after, heq, hbefore⟩
    rcases List.eq_nil_or_concat after with rfl | ⟨after', last, rfl⟩
    · obtain ⟨rfl, hlast⟩ := List.append_inj' heq (by simp)
      simp only [List.cons.injEq, Prod.mk.injEq, and_true] at hlast
      obtain ⟨rfl, _⟩ := hlast
      exact Or.inr ⟨rfl, hy, hbefore⟩
    · have hsplit : order ++ [(x, r)] = (before ++ (y, r') :: after') ++ [last] := by
        simpa using heq
      obtain ⟨rfl, _⟩ := List.append_inj' hsplit (by simp)
      exact Or.inl ⟨hy, before, r', after', rfl, hbefore⟩
  · rintro (⟨hy, before, r', after, rfl, hbefore⟩ | ⟨rfl, hy, hbefore⟩)
    · exact ⟨hy, before, r', after ++ [(x, r)], by simp, hbefore⟩
    · exact ⟨hy, order, r, [], rfl, hbefore⟩

/-- At most one source closes a node. -/
theorem Closes.unique {order : List (V × R)} (hnodup : (keys order).Nodup) {x y v : V}
    (hx : Closes net order x v) (hy : Closes net order y v) : x = y := by
  induction order using List.reverseRecOn with
  | nil => obtain ⟨_, before, r, after, h, _⟩ := hx; simp at h
  | append_singleton order entry ih =>
    obtain ⟨z, r⟩ := entry
    rw [keys_append, List.nodup_append] at hnodup
    obtain ⟨hleft, _, hdisjoint⟩ := hnodup
    have hz : z ∉ keys order := fun hmem => hdisjoint z hmem z (by simp) rfl
    rcases closes_snoc.mp hx with hold | ⟨rfl, hxs, _⟩
    · rcases closes_snoc.mp hy with hold' | ⟨rfl, hys, _⟩
      · exact ih hleft hold hold'
      · exact absurd (hold.sources_mem _ hys) hz
    · rcases closes_snoc.mp hy with hold' | ⟨rfl, _, _⟩
      · exact absurd (hold'.sources_mem _ hxs) hz
      · rfl

/-- A node all of whose sources have finished was closed by one of them. -/
theorem exists_closes {order : List (V × R)} {v : V} (hne : net.sources v ≠ [])
    (hall : ∀ u ∈ net.sources v, u ∈ keys order) : ∃ x, Closes net order x v := by
  induction order using List.reverseRecOn with
  | nil =>
    obtain ⟨u, hu⟩ := List.exists_mem_of_ne_nil _ hne
    exact absurd (hall u hu) (by simp)
  | append_singleton order entry ih =>
    obtain ⟨z, r⟩ := entry
    by_cases hbefore : ∀ u ∈ net.sources v, u ∈ keys order
    · obtain ⟨x, hx⟩ := ih hbefore
      exact ⟨x, closes_snoc.mpr (Or.inl hx)⟩
    · push Not at hbefore
      obtain ⟨u, hu, hnot⟩ := hbefore
      have huz : u = z := by
        have := hall u hu
        simp only [keys_append, List.mem_append, hnot, false_or, keys_cons, keys_nil,
          List.mem_singleton] at this
        exact this
      subst u
      refine ⟨z, closes_snoc.mpr (Or.inr ⟨rfl, hu, ?_⟩)⟩
      intro u hu'
      have := hall u hu'
      simp only [keys_append, List.mem_append, keys_cons, keys_nil, List.mem_singleton] at this
      exact this.symm

variable [DecidableEq V]

/-- The result a finished node has in an order. -/
def found (order : List (V × R)) (v : V) : Option R := order.lookup v

theorem found_append_of_mem {order rest : List (V × R)} {v : V} (hv : v ∈ keys order) :
    found (order ++ rest) v = found order v := by
  obtain ⟨r, hr⟩ := mem_keys.mp hv
  have hsome : order.lookup v ≠ none := by
    intro hnone
    have := (List.lookup_eq_none_iff.mp hnone) (v, r) hr
    simp at this
  obtain ⟨r', hr'⟩ := Option.ne_none_iff_exists'.mp hsome
  simp [found, List.lookup_append, hr']

theorem found_snoc_other {order : List (V × R)} {x v : V} {r : R} (hne : v ≠ x) :
    found (order ++ [(x, r)]) v = found order v := by
  have hnone : [(x, r)].lookup v = none := by simp [hne]
  simp [found, List.lookup_append, hnone]

theorem mem_of_found {order : List (V × R)} {v : V} {r : R} (h : found order v = some r) : (v, r) ∈ order := by
  obtain ⟨before, after, rfl, _⟩ := List.lookup_eq_some_iff.mp h
  simp

/-- A node that has not finished has no result. -/
theorem found_eq_none {order : List (V × R)} {v : V} (hv : v ∉ keys order) : found order v = none := by
  rw [found, List.lookup_eq_none_iff]
  intro entry hentry
  simp only [ne_eq, bne_iff_ne]
  intro heq
  exact hv (mem_keys.mpr ⟨entry.2, by rw [heq]; exact hentry⟩)

theorem found_snoc_self {order : List (V × R)} {v : V} {r : R} (hv : v ∉ keys order) :
    found (order ++ [(v, r)]) v = some r := by
  have hnone : order.lookup v = none := found_eq_none hv
  simp [found, List.lookup_append, hnone]

variable (net) in
/-- An order of finished nodes gives `v` the work `w`. -/
def Activated (order : List (V × R)) (v : V) (w : W) : Prop :=
  (net.sources v = [] ∧ net.root v = some w) ∨
    ∃ x, Closes net order x v ∧ net.wake (found order) x v = some w

theorem activated_iff_wake {order : List (V × R)} (hnodup : (keys order).Nodup) {x v : V} {w : W}
    (hx : Closes net order x v) :
    Activated net order v w ↔ net.wake (found order) x v = some w := by
  constructor
  · rintro (⟨hnil, _⟩ | ⟨y, hy, hw⟩)
    · exact absurd hx.1 (by simp [hnil])
    · rwa [hx.unique hnodup hy]
  · exact fun hw => Or.inr ⟨x, hx, hw⟩

/-- A node has at most one work. -/
theorem Activated.unique {order : List (V × R)} (hnodup : (keys order).Nodup) {v : V} {w w' : W}
    (h : Activated net order v w) (h' : Activated net order v w') : w = w' := by
  rcases h with ⟨hnil, hw⟩ | ⟨x, hx, hw⟩
  · rcases h' with ⟨_, hw'⟩ | ⟨x', hx', _⟩
    · exact Option.some.inj (hw.symm.trans hw')
    · exact absurd hx'.1 (by simp [hnil])
  · exact Option.some.inj (hw.symm.trans ((activated_iff_wake hnodup hx).mp h'))

theorem Activated.sources_mem {order : List (V × R)} {v : V} {w : W} (h : Activated net order v w) :
    ∀ u ∈ net.sources v, u ∈ keys order := by
  rcases h with ⟨hnil, _⟩ | ⟨x, hx, _⟩
  · simp [hnil]
  · exact hx.sources_mem

/-- What one more finished node activates: the earlier activations stand, and the
nodes it closes are decided. -/
theorem activated_snoc {order : List (V × R)} {x v : V} {r : R} {w : W} :
    Activated net (order ++ [(x, r)]) v w ↔ Activated net order v w ∨
      (x ∈ net.sources v ∧ (∀ u ∈ net.sources v, u = x ∨ u ∈ keys order) ∧
        net.wake (found (order ++ [(x, r)])) x v = some w) := by
  have hagree : ∀ y, Closes net order y v →
      net.wake (found (order ++ [(x, r)])) y v = net.wake (found order) y v := fun y hy =>
    net.wake_congr _ _ y v hy.1 fun u hu => found_append_of_mem (hy.sources_mem u hu)
  constructor
  · rintro (hroot | ⟨y, hy, hw⟩)
    · exact Or.inl (Or.inl hroot)
    · rcases closes_snoc.mp hy with hy | ⟨rfl, hmem, hall⟩
      · exact Or.inl (Or.inr ⟨y, hy, hagree y hy ▸ hw⟩)
      · exact Or.inr ⟨hmem, hall, hw⟩
  · rintro ((hroot | ⟨y, hy, hw⟩) | ⟨hmem, hall, hw⟩)
    · exact Or.inl hroot
    · exact Or.inr ⟨y, closes_snoc.mpr (Or.inl hy), (hagree y hy).trans hw⟩
    · exact Or.inr ⟨x, closes_snoc.mpr (Or.inr ⟨rfl, hmem, hall⟩), hw⟩

theorem Activated.append {order rest : List (V × R)} {v : V} {w : W} (h : Activated net order v w) :
    Activated net (order ++ rest) v w := by
  induction rest using List.reverseRecOn with
  | nil => simpa using h
  | append_singleton rest entry ih =>
    rw [← List.append_assoc]
    exact activated_snoc.mpr (Or.inl ih)

end dataflow
