import Mathlib.Order.WellFoundedSet
import Mathlib.Logic.Relation

namespace digraph

variable {V : Type*} {edge : V → V → Prop}

/-- No node reaches itself over one or more edges. -/
def Acyclic (edge : V → V → Prop) : Prop := ∀ v, ¬ Relation.TransGen edge v v

/-- A relation along which a rank grows is acyclic. -/
theorem Acyclic.of_rank (rank : V → ℕ) (hgrows : ∀ u v, edge u v → rank u < rank v) : Acyclic edge := by
  intro v hcycle
  have hlt : ∀ u w, Relation.TransGen edge u w → rank u < rank w := by
    intro u w hpath
    induction hpath with
    | single hedge => exact hgrows _ _ hedge
    | tail _ hedge ih => exact ih.trans (hgrows _ _ hedge)
  exact Nat.lt_irrefl _ (hlt v v hcycle)

/-- An acyclic relation with finitely many sources is well founded. -/
theorem Acyclic.wellFounded (hacyclic : Acyclic edge) {support : Set V} (hfinite : support.Finite)
    (hsource : ∀ u v, edge u v → u ∈ support) : WellFounded edge := by
  have : IsStrictOrder V (Relation.TransGen edge) :=
    { irrefl := hacyclic, trans := fun _ _ _ hab hbc => hab.trans hbc }
  have hon : support.WellFoundedOn (Relation.TransGen edge) := hfinite.wellFoundedOn
  have hacc : ∀ u ∈ support, Acc edge u := by
    intro u hu
    refine hon.induction hu ?_
    intro v _ ih
    exact ⟨v, fun w hw => ih w (hsource w v hw) (.single hw)⟩
  exact ⟨fun v => ⟨v, fun u hu => hacc u (hsource u v hu)⟩⟩

end digraph
