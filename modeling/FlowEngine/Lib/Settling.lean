import FlowEngine.Lib.Fallible
import Mathlib.Logic.Function.Basic

namespace settling

variable {α β γ : Type*}

/-- An operation that may fail changes nothing of what it has made of a value. -/
def Settles (f : α → Option α) (a : α) : Prop := ∀ ⦃b⦄, f a = some b → f b = some b

theorem settles_of_eq_none {f : α → Option α} {a : α} (h : f a = none) : Settles f a := by
  intro b hb
  rw [h] at hb
  cases hb

theorem settles_of_eq_self {f : α → Option α} {a : α} (h : f a = some a) : Settles f a := by
  intro b hb
  obtain rfl := Option.some.inj (h.symm.trans hb)
  exact h

theorem settles_iff {f : α → Option α} {a b : α} (h : f a = some b) : Settles f a ↔ f b = some b := by
  constructor
  · exact fun hsettles => hsettles h
  · intro hb c hc
    obtain rfl := Option.some.inj (h.symm.trans hc)
    exact hb

/-- Operations that agree on a value and on what they make of it settle together. -/
theorem settles_congr {f g : α → Option α} {a : α} (ha : f a = g a) (hb : ∀ b, g a = some b → f b = g b) :
    Settles f a ↔ Settles g a := by
  constructor
  · intro hsettles b hgb
    rw [← hb b hgb]
    exact hsettles (ha.trans hgb)
  · intro hsettles b hfb
    have hgb := ha.symm.trans hfb
    rw [hb b hgb]
    exact hsettles hgb

/-- An operation on what is wrapped settles with the operation inside. -/
theorem settles_wrap_iff {wrap : α → β} (hwrap : Function.Injective wrap) {f : β → Option β} {g : α → Option α}
    (h : ∀ a, f (wrap a) = (g a).map wrap) (a : α) : Settles f (wrap a) ↔ Settles g a := by
  cases hg : g a with
  | none => exact ⟨fun _ => settles_of_eq_none hg, fun _ => settles_of_eq_none (by rw [h, hg]; rfl)⟩
  | some b =>
    have hf : f (wrap a) = some (wrap b) := by rw [h, hg]; rfl
    rw [settles_iff hf, settles_iff hg, h, Option.map_eq_some_iff]
    constructor
    · rintro ⟨c, hc, hsame⟩
      rwa [hwrap hsame] at hc
    · exact fun hb => ⟨b, hb, rfl⟩

/-- One on two parts settles if a part fails, or with both. -/
theorem settles_pair_iff {pair : α → β → γ} (hpair : Function.Injective2 pair) {f : γ → Option γ} {g : α → Option α}
    {k : β → Option β} (h : ∀ a b, f (pair a b) = (g a).bind fun a => (k b).map (pair a)) (a : α) (b : β) :
    Settles f (pair a b) ↔ (g a = none ∨ k b = none) ∨ (Settles g a ∧ Settles k b) := by
  cases hg : g a with
  | none => exact ⟨fun _ => .inl (.inl rfl), fun _ => settles_of_eq_none (by rw [h, hg]; rfl)⟩
  | some a' =>
    cases hk : k b with
    | none => exact ⟨fun _ => .inl (.inr rfl), fun _ => settles_of_eq_none (by rw [h, hg, hk]; rfl)⟩
    | some b' =>
      have hf : f (pair a b) = some (pair a' b') := by rw [h, hg, hk]; rfl
      simp only [settles_iff hf, settles_iff hg, settles_iff hk, h, reduceCtorEq, or_self, false_or,
        Option.bind_eq_some_iff, Option.map_eq_some_iff]
      constructor
      · rintro ⟨c, hc, d, hd, hsame⟩
        obtain ⟨rfl, rfl⟩ := hpair hsame
        exact ⟨hc, hd⟩
      · rintro ⟨ha, hb⟩
        exact ⟨a', ha, b', hb, rfl⟩

/-- A loop settles if one of its calls fails, or with all of them. -/
theorem settles_mapM_iff {f : α → Option α} {list : List α} :
    Settles (fun list : List α => list.mapM f) list ↔ (∃ a ∈ list, f a = none) ∨ ∀ a ∈ list, Settles f a := by
  cases hlist : list.mapM f with
  | none => exact ⟨fun _ => .inl (fallible.mapM_eq_none_iff.mp hlist), fun _ => settles_of_eq_none hlist⟩
  | some results =>
    have hall := fallible.mapM_eq_some_iff.mp hlist
    have hsome : ¬ ∃ a ∈ list, f a = none := by
      rw [← fallible.mapM_eq_none_iff, hlist]
      exact Option.some_ne_none results
    simp only [settles_iff (f := fun list : List α => list.mapM f) hlist, fallible.mapM_eq_some_iff, List.forall₂_same,
      hsome, false_or]
    constructor
    · intro hsettled a hmem
      obtain ⟨b, hb, hab⟩ := fallible.mem_forall₂ hall.flip hmem
      exact (settles_iff hab).mpr (hsettled b hb)
    · intro hsettles b hmem
      obtain ⟨a, ha, hab⟩ := fallible.mem_forall₂ hall hmem
      exact hsettles a ha hab

end settling
