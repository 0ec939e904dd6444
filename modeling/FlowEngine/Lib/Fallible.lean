import Mathlib.Data.List.Forall2

namespace fallible

variable {α β ε : Type*}

/-- A loop over a list succeeds exactly if each of its calls does. -/
theorem mapM_eq_ok_iff {f : α → Except ε β} {list : List α} {results : List β} :
    list.mapM f = .ok results ↔ List.Forall₂ (fun a b => f a = .ok b) list results := by
  induction list generalizing results with
  | nil =>
    rw [List.mapM_nil, List.forall₂_nil_left_iff]
    exact ⟨fun h => by cases h; rfl, fun h => h ▸ rfl⟩
  | cons a rest ih =>
    rw [List.mapM_cons, List.forall₂_cons_left_iff]
    constructor
    · intro h
      cases hfirst : f a with
      | error e =>
        rw [hfirst] at h
        cases h
      | ok b =>
        cases hrest : rest.mapM f with
        | error e =>
          rw [hfirst, hrest] at h
          cases h
        | ok bs =>
          rw [hfirst, hrest] at h
          cases h
          exact ⟨b, bs, rfl, ih.mp hrest, rfl⟩
    · rintro ⟨b, bs, hfirst, hrest, rfl⟩
      rw [hfirst, ih.mpr hrest]
      rfl

/-- So does a loop of calls that can fail in one way only. -/
theorem mapM_eq_some_iff {f : α → Option β} {list : List α} {results : List β} :
    list.mapM f = some results ↔ List.Forall₂ (fun a b => f a = some b) list results := by
  induction list generalizing results with
  | nil =>
    rw [List.mapM_nil, List.forall₂_nil_left_iff]
    exact ⟨fun h => (Option.some.inj h).symm, fun h => h ▸ rfl⟩
  | cons a rest ih =>
    rw [List.mapM_cons, List.forall₂_cons_left_iff]
    constructor
    · intro h
      obtain ⟨b, hfirst, hmore⟩ := Option.bind_eq_some_iff.mp h
      obtain ⟨bs, hrest, hdone⟩ := Option.bind_eq_some_iff.mp hmore
      exact ⟨b, bs, hfirst, ih.mp hrest, (Option.some.inj hdone).symm⟩
    · rintro ⟨b, bs, hfirst, hrest, rfl⟩
      rw [hfirst, ih.mpr hrest]
      rfl

theorem mapM_eq_none_iff {f : α → Option β} {list : List α} : list.mapM f = none ↔ ∃ a ∈ list, f a = none := by
  induction list with
  | nil => simp
  | cons a rest ih =>
    rw [List.mapM_cons, List.exists_mem_cons_iff, ← ih]
    cases f a with
    | none => simp
    | some b => cases rest.mapM f <;> simp

/-- A loop with one more call, which succeeds, ends in the same error, or gives one more result. -/
theorem mapM_insert {f : α → Except ε β} {a : α} {b : β} (hsuccess : f a = .ok b) (before after : List α) :
    match (before ++ after).mapM f with
    | .ok results => ∃ more, (before ++ a :: after).mapM f = .ok more ∧ more.length = results.length + 1
    | .error e => (before ++ a :: after).mapM f = .error e := by
  induction before with
  | nil =>
    rw [List.nil_append, List.nil_append, List.mapM_cons, hsuccess]
    cases after.mapM f with
    | error e => rfl
    | ok results => exact ⟨b :: results, rfl, rfl⟩
  | cons c rest ih =>
    rw [List.cons_append, List.cons_append, List.mapM_cons, List.mapM_cons]
    cases f c with
    | error e => rfl
    | ok d =>
      cases hrest : (rest ++ after).mapM f with
      | error e =>
        rw [hrest] at ih
        simp only at ih
        rw [ih]
        rfl
      | ok results =>
        rw [hrest] at ih
        obtain ⟨more, hmore, hlength⟩ := ih
        rw [hmore]
        exact ⟨d :: more, rfl, congrArg (· + 1) hlength⟩

theorem exists_forall₂ {R : α → β → Prop} {list : List α} (h : ∀ a ∈ list, ∃ b, R a b) :
    ∃ results, List.Forall₂ R list results := by
  induction list with
  | nil => exact ⟨[], .nil⟩
  | cons a rest ih =>
    obtain ⟨b, hb⟩ := h a List.mem_cons_self
    obtain ⟨bs, hbs⟩ := ih fun other hmem => h other (List.mem_cons_of_mem _ hmem)
    exact ⟨b :: bs, .cons hb hbs⟩

theorem mem_forall₂ {R : α → β → Prop} {list : List α} {results : List β} (h : List.Forall₂ R list results) {b : β}
    (hmem : b ∈ results) : ∃ a ∈ list, R a b := by
  induction h with
  | nil => cases hmem
  | cons hab _ ih =>
    cases List.mem_cons.mp hmem with
    | inl heq => exact ⟨_, List.mem_cons_self, heq ▸ hab⟩
    | inr hrest =>
      obtain ⟨a, ha, hR⟩ := ih hrest
      exact ⟨a, List.mem_cons_of_mem _ ha, hR⟩

/-- Of two loops, the first of which gives no more results, both give the same results exactly
if they do so for each element. -/
theorem filterMap_eq_iff {f g : α → Option β} {list : List α} (h : ∀ a ∈ list, (f a).isSome = true → (g a).isSome = true) :
    list.filterMap f = list.filterMap g ↔ ∀ a ∈ list, f a = g a := by
  have hshorter : ∀ rest : List α, (∀ a ∈ rest, (f a).isSome = true → (g a).isSome = true) →
      (rest.filterMap f).length ≤ (rest.filterMap g).length := by
    intro rest hrest
    rw [List.length_filterMap_eq_countP, List.length_filterMap_eq_countP]
    exact List.countP_mono_left hrest
  refine ⟨fun hsame => ?_, fun hsame => List.filterMap_congr hsame⟩
  induction list with
  | nil => exact fun a hmem => by cases hmem
  | cons a rest ih =>
    have hrest : ∀ b ∈ rest, (f b).isSome = true → (g b).isSome = true := fun b hmem => h b (List.mem_cons_of_mem _ hmem)
    have hlength := hshorter rest hrest
    have hfirst : f a = g a ∧ rest.filterMap f = rest.filterMap g := by
      cases hg : g a with
      | none =>
        have hf : f a = none := by
          by_contra hsome
          have hg' := h a List.mem_cons_self (Option.isSome_iff_ne_none.mpr hsome)
          rw [hg] at hg'
          cases hg'
        rw [List.filterMap_cons_none hf, List.filterMap_cons_none hg] at hsame
        exact ⟨hf, hsame⟩
      | some b =>
        cases hf : f a with
        | none =>
          have hlonger := congrArg List.length hsame
          rw [List.filterMap_cons_none hf, List.filterMap_cons_some hg, List.length_cons] at hlonger
          omega
        | some b' =>
          rw [List.filterMap_cons_some hf, List.filterMap_cons_some hg, List.cons.injEq] at hsame
          exact ⟨congrArg some hsame.1, hsame.2⟩
    intro b hmem
    cases List.mem_cons.mp hmem with
    | inl heq => exact heq ▸ hfirst.1
    | inr hin => exact ih hrest hfirst.2 b hin

/-- A loop all of whose calls succeed. -/
theorem mapM_of_ok {f : α → Except ε β} {g : α → β} {list : List α} (h : ∀ a ∈ list, f a = .ok (g a)) :
    list.mapM f = .ok (list.map g) := by
  rw [mapM_eq_ok_iff, List.forall₂_map_right_iff]
  exact List.forall₂_same.mpr h

theorem map_eq_ok {f : α → β} {r : Except ε α} {b : β} : r.map f = .ok b ↔ ∃ a, r = .ok a ∧ f a = b := by
  cases r <;> simp [Except.map]

theorem bind_eq_ok {α β : Type u} {f : α → Except ε β} {r : Except ε α} {b : β} :
    (r >>= f) = .ok b ↔ ∃ a, r = .ok a ∧ f a = .ok b := by
  cases r <;> simp [bind, Except.bind]

theorem toOption_eq_some {r : Except ε α} {a : α} : r.toOption = some a ↔ r = .ok a := by
  cases r <;> simp [Except.toOption]

theorem exists_ok_of_isOk {r : Except ε α} (h : r.isOk = true) : ∃ a, r = .ok a := by
  cases r with
  | ok a => exact ⟨a, rfl⟩
  | error e => cases h

/-- A loop succeeds where one does whose calls succeed no more often. -/
theorem foldlM_ok_mono {f g : β → α → Except ε β} (hcalls : ∀ b a c, f b a = .ok c → g b a = .ok c) (list : List α)
    (b c : β) (h : list.foldlM f b = .ok c) : list.foldlM g b = .ok c := by
  induction list generalizing b with
  | nil => exact h
  | cons a rest ih =>
    rw [List.foldlM_cons, bind_eq_ok] at h ⊢
    exact h.imp fun d hd => ⟨hcalls b a d hd.1, ih d hd.2⟩

/-- Loops whose calls succeed alike succeed alike. -/
theorem foldlM_ok_congr {f g : β → α → Except ε β} (hcalls : ∀ b a c, f b a = .ok c ↔ g b a = .ok c) (list : List α)
    (b c : β) : list.foldlM f b = .ok c ↔ list.foldlM g b = .ok c :=
  ⟨foldlM_ok_mono (fun b a c => (hcalls b a c).mp) list b c, foldlM_ok_mono (fun b a c => (hcalls b a c).mpr) list b c⟩

end fallible
