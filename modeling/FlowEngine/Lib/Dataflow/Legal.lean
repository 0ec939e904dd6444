import FlowEngine.Lib.Dataflow.Order
import Mathlib.Data.Finset.Card

namespace dataflow

variable {V W R : Type*} [DecidableEq V]

/-- The orders in which nodes can finish: each has its work when it finishes,
and finishes once with a result that work can have. -/
inductive Legal (net : Net V W R) (result : V → W → R → Prop) : List (V × R) → Prop
  | nil : Legal net result []
  | snoc {order : List (V × R)} {v : V} {w : W} {r : R} (legal : Legal net result order)
      (hfresh : v ∉ keys order) (hactivated : Activated net order v w) (hresult : result v w r) :
      Legal net result (order ++ [(v, r)])

/-- Every node with work has finished. -/
def Maximal (net : Net V W R) (order : List (V × R)) : Prop :=
  ∀ v w, Activated net order v w → v ∈ keys order

/-- `u` is a source of `v`. -/
def Source (net : Net V W R) (u v : V) : Prop := u ∈ net.sources v

/-- `x` is a source of `v` that no other source of `v` has to wait for: some
order can bring it in last. -/
def Last (net : Net V W R) (x v : V) : Prop :=
  x ∈ net.sources v ∧ ∀ y ∈ net.sources v, ¬ Relation.TransGen (Source net) x y

variable {net : Net V W R} {result : V → W → R → Prop} {order : List (V × R)}

theorem Legal.nodup (h : Legal net result order) : (keys order).Nodup := by
  induction h with
  | nil => exact List.nodup_nil
  | @snoc order v w r _ hfresh _ _ ih =>
    rw [keys_append, List.nodup_append]
    refine ⟨ih, by simp, ?_⟩
    intro a ha b hb hab
    subst hab
    have hav : a = v := by simpa using hb
    exact hfresh (hav ▸ ha)

/-- What the last entry of a legal order has to satisfy. -/
theorem legal_snoc {v : V} {r : R} :
    Legal net result (order ++ [(v, r)]) ↔
      Legal net result order ∧ v ∉ keys order ∧ ∃ w, Activated net order v w ∧ result v w r := by
  constructor
  · intro h
    generalize hfull : order ++ [(v, r)] = full at h
    cases h with
    | nil => simp at hfull
    | snoc legal hfresh hactivated hresult =>
      obtain ⟨rfl, hlast⟩ := List.append_inj' hfull (by simp)
      obtain ⟨rfl, rfl⟩ := Prod.mk.inj (List.head_eq_of_cons_eq hlast)
      exact ⟨legal, hfresh, _, hactivated, hresult⟩
  · rintro ⟨legal, hfresh, w, hactivated, hresult⟩
    exact legal.snoc hfresh hactivated hresult

/-- A prefix of a legal order is legal. -/
theorem Legal.prefix_left {rest : List (V × R)} (h : Legal net result (order ++ rest)) :
    Legal net result order := by
  induction rest using List.reverseRecOn with
  | nil => simpa using h
  | append_singleton rest entry ih =>
    rw [← List.append_assoc] at h
    exact ih (legal_snoc.mp h).1

/-- A finished node had its work, and finished with a result of that work. -/
theorem Legal.activated (h : Legal net result order) {v : V} (hv : v ∈ keys order) :
    ∃ w r, Activated net order v w ∧ found order v = some r ∧ result v w r := by
  induction h with
  | nil => simp at hv
  | @snoc order x w r legal hfresh hactivated hresult ih =>
    rw [keys_append, List.mem_append] at hv
    by_cases hmem : v ∈ keys order
    · obtain ⟨w', r', hact, hfound, hres⟩ := ih hmem
      exact ⟨w', r', hact.append, (found_append_of_mem hmem).trans hfound, hres⟩
    · have hvx : v = x := by
        rcases hv with hv | hv
        · exact absurd hv hmem
        · simpa using hv
      subst v
      exact ⟨w, r, hactivated.append, found_snoc_self hfresh, hresult⟩

theorem Legal.source_mem (h : Legal net result order) {u v : V} (huv : u ∈ net.sources v)
    (hv : v ∈ keys order) : u ∈ keys order := by
  obtain ⟨w, r, hact, _, _⟩ := h.activated hv
  exact hact.sources_mem u huv

theorem Legal.ancestor_mem (h : Legal net result order) {u v : V}
    (huv : Relation.TransGen (Source net) u v) (hv : v ∈ keys order) : u ∈ keys order := by
  induction huv using Relation.TransGen.head_induction_on with
  | single hsrc => exact h.source_mem hsrc hv
  | head hsrc _ ih => exact h.source_mem hsrc ih

/-- The source that closes a node is one that no other source waits for. -/
theorem Legal.closes_last (h : Legal net result order) {x v : V} (hx : Closes net order x v) :
    Last net x v := by
  obtain ⟨hmem, before, r, after, heq, hbefore⟩ := hx
  refine ⟨hmem, ?_⟩
  intro y hy hxy
  have hlegal : Legal net result (before ++ [(x, r)]) := by
    have hwhole : Legal net result ((before ++ [(x, r)]) ++ after) := by simpa [heq] using h
    exact hwhole.prefix_left
  obtain ⟨hearlier, hfresh, w, hact, _⟩ := legal_snoc.mp hlegal
  rcases hbefore y hy with rfl | hy
  · obtain ⟨z, hyz, hzy⟩ := Relation.TransGen.tail'_iff.mp hxy
    have hz : z ∈ keys before := hact.sources_mem z hzy
    rcases Relation.reflTransGen_iff_eq_or_transGen.mp hyz with rfl | hyz
    · exact hfresh hz
    · exact hfresh (hearlier.ancestor_mem hyz hz)
  · exact hfresh (hearlier.ancestor_mem hxy hy)

/-- Every legal order extends by allowed ends to one in which no further node can
come to an allowed end. -/
theorem Legal.exists_saturated (nodes : Finset V)
    (hnodes : ∀ order v w, Activated net order v w → v ∈ nodes) (allowed : V → R → Prop)
    (h : Legal net result order) :
    ∃ rest, Legal net result (order ++ rest) ∧ (∀ v r, (v, r) ∈ rest → allowed v r) ∧
      ∀ v w r, Activated net (order ++ rest) v w → result v w r → allowed v r → v ∈ keys (order ++ rest) := by
  have hbound : ∀ order, Legal net result order → (keys order).length ≤ nodes.card := by
    intro order horder
    rw [← List.toFinset_card_of_nodup horder.nodup]
    apply Finset.card_le_card
    intro v hv
    obtain ⟨w, _, hact, _, _⟩ := horder.activated (List.mem_toFinset.mp hv)
    exact hnodes _ _ _ hact
  generalize hm : nodes.card - (keys order).length = m
  induction m using Nat.strong_induction_on generalizing order with
  | h m ih =>
    by_cases hdone : ∀ v w r, Activated net order v w → result v w r → allowed v r → v ∈ keys order
    · exact ⟨[], by simpa using h, by simp, by simpa using hdone⟩
    · push Not at hdone
      obtain ⟨v, w, r, hact, hr, hallowed, hv⟩ := hdone
      have hlonger := h.snoc hv hact hr
      have hlength : (keys (order ++ [(v, r)])).length = (keys order).length + 1 := by simp
      have hle := hbound _ hlonger
      obtain ⟨rest, hrest, hkept, hmax⟩ := ih _ (by omega) hlonger rfl
      refine ⟨(v, r) :: rest, by simpa using hrest, ?_, by simpa using hmax⟩
      intro u r' hu
      rcases List.mem_cons.mp hu with heq | hu
      · cases heq
        exact hallowed
      · exact hkept u r' hu

/-- Every legal order extends to one in which all nodes with work have finished,
apart from those the extension is told to avoid. -/
theorem Legal.exists_maximal_avoiding (avoid : V → Prop) (nodes : Finset V)
    (hnodes : ∀ order v w, Activated net order v w → v ∈ nodes)
    (htotal : ∀ v w, ∃ r, result v w r) (h : Legal net result order) :
    ∃ rest, Legal net result (order ++ rest) ∧ (∀ v ∈ keys rest, ¬ avoid v) ∧
      ∀ v w, Activated net (order ++ rest) v w → ¬ avoid v → v ∈ keys (order ++ rest) := by
  obtain ⟨rest, hrest, hkept, hmax⟩ := h.exists_saturated nodes hnodes fun v _ => ¬ avoid v
  refine ⟨rest, hrest, ?_, ?_⟩
  · intro v hv
    obtain ⟨r, hr⟩ := mem_keys.mp hv
    exact hkept v r hr
  · intro v w hact havoid
    obtain ⟨r, hr⟩ := htotal v w
    exact hmax v w r hact hr havoid

theorem Legal.exists_maximal (nodes : Finset V)
    (hnodes : ∀ order v w, Activated net order v w → v ∈ nodes)
    (htotal : ∀ v w, ∃ r, result v w r) (h : Legal net result order) :
    ∃ rest, Legal net result (order ++ rest) ∧ Maximal net (order ++ rest) := by
  obtain ⟨rest, hrest, _, hmax⟩ := h.exists_maximal_avoiding (fun _ => False) nodes hnodes htotal
  exact ⟨rest, hrest, fun v w hact => hmax v w hact id⟩

end dataflow
