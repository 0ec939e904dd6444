import FlowEngine.Lib.Dataflow.Legal

namespace dataflow

variable {V W R : Type*} (net : Net V W R) (result : V → W → R → Prop)

/-- `v` has more than one source. -/
def Join (v : V) : Prop := ∃ x ∈ net.sources v, ∃ y ∈ net.sources v, x ≠ y

/-- The works `v` can get from sources that ended in a given way: any source that no
other source waits for may be the last of them. -/
def Given (ends : V → R) (v : V) (w : W) : Prop :=
  (net.sources v = [] ∧ net.root v = some w) ∨
    ∃ x, Last net x v ∧ net.wake (fun u => some (ends u)) x v = some w

/-- Ends that the ancestors of `v` can come to together. -/
def Possible (ends : V → R) (v : V) : Prop :=
  ∀ u, Relation.TransGen (Source net) u v → ∃ w, Given net ends u w ∧ result u w (ends u)

/-- Whatever the ancestors of `v` came to and whichever of its sources is last, the
decision about `v` is the same. -/
def Decided (v : V) : Prop :=
  ∀ ends ends', Possible net result ends v → Possible net result ends' v → ∀ x y, Last net x v → Last net y v →
    net.wake (fun u => some (ends u)) x v = net.wake (fun u => some (ends' u)) y v

variable {net result}

theorem Possible.ancestor {ends : V → R} {u v : V} (h : Possible net result ends v)
    (huv : Relation.TransGen (Source net) u v) : Possible net result ends u :=
  fun s hs => h s (hs.trans huv)

variable [DecidableEq V] {order : List (V × R)}

variable (net result) in
/-- Any two orders that come to give `v` a work give it the same one. -/
def AgreeAt (v : V) : Prop :=
  ∀ first second, Legal net result first → Legal net result second →
    ∀ w w', Activated net first v w → Activated net second v w' → w = w'

/-- The ends in a legal order are ends that the ancestors of an activated node can
come to together. -/
theorem Legal.exists_possible (h : Legal net result order) {x v : V} (hx : Closes net order x v) :
    ∃ ends, Possible net result ends v ∧ net.wake (found order) x v = net.wake (fun u => some (ends u)) x v := by
  have hmem : ∀ u, Relation.TransGen (Source net) u v → u ∈ keys order := by
    intro u huv
    obtain ⟨s, hus, hsv⟩ := Relation.TransGen.tail'_iff.mp huv
    have hs : s ∈ keys order := hx.sources_mem s hsv
    rcases Relation.reflTransGen_iff_eq_or_transGen.mp hus with rfl | hus
    · exact hs
    · exact h.ancestor_mem hus hs
  obtain ⟨_, fallback, _, _, _⟩ := h.activated (hx.sources_mem x hx.1)
  let ends : V → R := fun u => (found order u).getD fallback
  have hfound : ∀ u ∈ keys order, found order u = some (ends u) := by
    intro u hu
    obtain ⟨_, r, _, hr, _⟩ := h.activated hu
    simp [ends, hr]
  refine ⟨ends, ?_, net.wake_congr _ _ x v hx.1 fun u hu => hfound u (hx.sources_mem u hu)⟩
  intro u huv
  obtain ⟨w, r, hact, hr, hresult⟩ := h.activated (hmem u huv)
  have hends : ends u = r := by simp [ends, hr]
  refine ⟨w, ?_, hends ▸ hresult⟩
  rcases hact with hroot | ⟨y, hy, hwake⟩
  · exact Or.inl hroot
  · refine Or.inr ⟨y, h.closes_last hy, ?_⟩
    rw [← hwake]
    exact net.wake_congr _ _ y u hy.1 fun s hs => (hfound s (hy.sources_mem s hs)).symm

/-- Where the decision about a node is settled the orders agree on it. -/
theorem AgreeAt.of_decided {v : V} (h : Decided net result v) : AgreeAt net result v := by
  intro first second hfirst hsecond w w' hact hact'
  rcases hact with ⟨hnil, hroot⟩ | ⟨x, hx, hwake⟩
  · rcases hact' with ⟨_, hroot'⟩ | ⟨y, hy, _⟩
    · exact Option.some.inj (hroot.symm.trans hroot')
    · exact absurd hy.1 (by simp [hnil])
  · rcases hact' with ⟨hnil, _⟩ | ⟨y, hy, hwake'⟩
    · exact absurd hx.1 (by simp [hnil])
    · obtain ⟨ends, hpossible, hsame⟩ := hfirst.exists_possible hx
      obtain ⟨ends', hpossible', hsame'⟩ := hsecond.exists_possible hy
      have hdecided := h ends ends' hpossible hpossible' x y (hfirst.closes_last hx) (hsecond.closes_last hy)
      rw [← hsame, ← hsame', hwake, hwake'] at hdecided
      exact Option.some.inj hdecided

section Realise

variable {v x : V} {ends : V → R}

/-- A node whose sources have come to possible ends has a work of which its own
possible end is a result. -/
private theorem Legal.exists_work (h : Legal net result order) {u : V} (hpossible : Possible net result ends u)
    (hdecided : Join net u → Decided net result u) (hgiven : ∃ w, Given net ends u w ∧ result u w (ends u))
    (hsources : ∀ s ∈ net.sources u, found order s = some (ends s)) :
    ∃ w, Activated net order u w ∧ result u w (ends u) := by
  obtain ⟨w, hw, hresult⟩ := hgiven
  refine ⟨w, ?_, hresult⟩
  rcases hw with hroot | ⟨y, hlast, hwake⟩
  · exact Or.inl hroot
  · have hmem : ∀ s ∈ net.sources u, s ∈ keys order := by
      intro s hs
      by_contra hnot
      have hnone := hsources s hs
      rw [found_eq_none hnot] at hnone
      cases hnone
    obtain ⟨z, hz⟩ := exists_closes (List.ne_nil_of_mem hlast.1) hmem
    refine Or.inr ⟨z, hz, ?_⟩
    rw [net.wake_congr _ (fun s => some (ends s)) z u hz.1 hsources, ← hwake]
    -- The source that came last may be another one than the source of the given work.
    by_cases hzy : z = y
    · rw [hzy]
    · exact hdecided ⟨z, hz.1, y, hlast.1, hzy⟩ ends ends hpossible hpossible z y (h.closes_last hz) hlast

/-- Possible ends of the ancestors of `v` are those of an order in which the source
`x` is the last to end. -/
private theorem exists_order_of_possible (hwf : WellFounded (Source net)) (nodes : Finset V)
    (hnodes : ∀ order v w, Activated net order v w → v ∈ nodes)
    (hdecided : ∀ u, Relation.TransGen (Source net) u v → Join net u → Decided net result u)
    (hpossible : Possible net result ends v) (hlast : Last net x v) :
    ∃ order, Legal net result order ∧ Closes net order x v ∧
      net.wake (found order) x v = net.wake (fun u => some (ends u)) x v := by
  have hnil : Legal net result [] := .nil
  obtain ⟨order, horder, hkept, hmax⟩ := hnil.exists_saturated nodes hnodes
    fun u r => Relation.TransGen (Source net) u v ∧ u ≠ x ∧ r = ends u
  rw [List.nil_append] at horder hmax
  have hfound : ∀ u ∈ keys order, found order u = some (ends u) := by
    intro u hu
    obtain ⟨_, r, _, hr, _⟩ := horder.activated hu
    rw [hr, (hkept u r (mem_of_found hr)).2.2]
  have hwork : ∀ u, Relation.TransGen (Source net) u v → (∀ s ∈ net.sources u, s ∈ keys order) →
      ∃ w, Activated net order u w ∧ result u w (ends u) := fun u huv hsources =>
    horder.exists_work (hpossible.ancestor huv) (hdecided u huv) (hpossible u huv)
      fun s hs => hfound s (hsources s hs)
  have hfree : ∀ s, Source net s v → ¬ Relation.TransGen (Source net) x s := hlast.2
  have hbelow : ∀ u, Relation.TransGen (Source net) u v → ¬ Relation.TransGen (Source net) x u := by
    intro u huv hxu
    obtain ⟨s, hus, hsv⟩ := Relation.TransGen.tail'_iff.mp huv
    exact hfree s hsv (hxu.trans_left hus)
  have hall : ∀ u, Relation.TransGen (Source net) u v → u ≠ x → u ∈ keys order := by
    intro u
    induction u using hwf.induction with
    | h u ih =>
      intro huv hne
      obtain ⟨w, hact, hresult⟩ := hwork u huv fun s hs =>
        ih s hs (.head hs huv) fun heq => hbelow u huv (heq ▸ .single hs)
      exact hmax u w _ hact hresult ⟨huv, hne, rfl⟩
  have hxv : Relation.TransGen (Source net) x v := .single hlast.1
  have hheld : x ∉ keys order := by
    intro hmem
    obtain ⟨r, hr⟩ := mem_keys.mp hmem
    exact (hkept x r hr).2.1 rfl
  obtain ⟨w, hact, hresult⟩ := hwork x hxv fun s hs =>
    hall s (.head hs hxv) fun heq => hbelow x hxv (.single (heq ▸ hs))
  refine ⟨order ++ [(x, ends x)], horder.snoc hheld hact hresult, ?_, ?_⟩
  · refine closes_snoc.mpr (Or.inr ⟨rfl, hlast.1, fun u hu => ?_⟩)
    by_cases hux : u = x
    · exact Or.inl hux
    · exact Or.inr (hall u (.single hu) hux)
  · refine net.wake_congr _ _ x v hlast.1 fun u hu => ?_
    by_cases hux : u = x
    · rw [hux, found_snoc_self hheld]
    · rw [found_snoc_other hux, hfound u (hall u (.single hu) hux)]

end Realise

/-- Where the orders agree on the joins the decision about each join is settled, if some
work is always decided on. -/
theorem Decided.of_joins (hwf : WellFounded (Source net)) (nodes : Finset V)
    (hnodes : ∀ order v w, Activated net order v w → v ∈ nodes)
    (hwakes : ∀ ends v x, Possible net result ends v → Last net x v →
      (net.wake (fun u => some (ends u)) x v).isSome)
    (hjoins : ∀ v, Join net v → AgreeAt net result v) (v : V) (hjoin : Join net v) : Decided net result v := by
  induction v using hwf.transGen.induction with
  | h v ih =>
    intro ends ends' hpossible hpossible' x y hx hy
    obtain ⟨first, hfirst, hcloses, hsame⟩ := exists_order_of_possible hwf nodes hnodes ih hpossible hx
    obtain ⟨second, hsecond, hcloses', hsame'⟩ := exists_order_of_possible hwf nodes hnodes ih hpossible' hy
    obtain ⟨w, hw⟩ := Option.isSome_iff_exists.mp (hwakes ends v x hpossible hx)
    obtain ⟨w', hw'⟩ := Option.isSome_iff_exists.mp (hwakes ends' v y hpossible' hy)
    have hagree := hjoins v hjoin first second hfirst hsecond w w' (Or.inr ⟨x, hcloses, hsame.trans hw⟩)
      (Or.inr ⟨y, hcloses', hsame'.trans hw'⟩)
    rw [hw, hw', hagree]

/-- The orders agree on every join exactly when the decision about every join is
settled. -/
theorem joins_agree_iff_decided (hwf : WellFounded (Source net)) (nodes : Finset V)
    (hnodes : ∀ order v w, Activated net order v w → v ∈ nodes)
    (hwakes : ∀ ends v x, Possible net result ends v → Last net x v →
      (net.wake (fun u => some (ends u)) x v).isSome) :
    (∀ v, Join net v → AgreeAt net result v) ↔ ∀ v, Join net v → Decided net result v :=
  ⟨Decided.of_joins hwf nodes hnodes hwakes, fun h v hjoin => .of_decided (h v hjoin)⟩

end dataflow
