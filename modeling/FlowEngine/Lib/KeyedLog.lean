import Mathlib.Data.List.Sort
import Mathlib.Data.Set.Function
import Mathlib.Data.Set.Insert
import Mathlib.Order.Basic

namespace keyed

variable {α κ : Type*}

/-- No two records of a set have the same key. -/
def Distinct (key : α → κ) (entries : Set α) : Prop :=
  ∀ a ∈ entries, ∀ b ∈ entries, key a = key b → a = b

/-- A set with the records of a list whose keys it does not have yet. -/
def merged (key : α → κ) (entries : Set α) (records : List α) : Set α :=
  { a | a ∈ entries ∨ a ∈ records ∧ ∀ b ∈ entries, key b ≠ key a }

theorem Distinct.mono {key : α → κ} {entries larger : Set α} (h : Distinct key larger)
    (hsubset : ∀ a ∈ entries, a ∈ larger) : Distinct key entries :=
  fun a ha b hb => h a (hsubset a ha) b (hsubset b hb)

/-- The records of a list that has none twice have distinct keys. -/
theorem Distinct.nodup_keys {key : α → κ} {entries : Set α} (h : Distinct key entries) {records : List α}
    (hsubset : ∀ a ∈ records, a ∈ entries) (hnodup : records.Nodup) : (records.map key).Nodup :=
  hnodup.map_on fun a ha b hb => h a (hsubset a ha) b (hsubset b hb)

/-- Where all keys are distinct nothing is left out. -/
theorem Distinct.merged_eq {key : α → κ} {entries : Set α} {records : List α}
    (h : Distinct key { a | a ∈ entries ∨ a ∈ records }) : merged key entries records = { a | a ∈ entries ∨ a ∈ records } := by
  ext a
  constructor
  · rintro (hold | ⟨hnew, _⟩)
    · exact .inl hold
    · exact .inr hnew
  · rintro (hold | hnew)
    · exact .inl hold
    · by_cases hin : a ∈ entries
      · exact .inl hin
      · exact .inr ⟨hnew, fun b hb hkey => hin (h b (.inl hb) a (.inr hnew) hkey ▸ hb)⟩

theorem merged_congr {key : α → κ} {entries : Set α} {records records' : List α} (h : ∀ a, a ∈ records ↔ a ∈ records') :
    merged key entries records = merged key entries records' := by
  ext a
  simp only [merged, Set.mem_ofPred_eq, h]

/-- Merging a list is merging its parts in turn, unless a record is kept out by another one. -/
theorem merged_append {key : α → κ} {entries : Set α} {first second : List α}
    (hkeys : ∀ b ∈ first, ∀ a ∈ second, key b = key a → b = a) :
    merged key entries (first ++ second) = merged key (merged key entries first) second := by
  ext a
  constructor
  · rintro (hold | ⟨hmem, hfree⟩)
    · exact .inl (.inl hold)
    · cases List.mem_append.mp hmem with
      | inl hfirst => exact .inl (.inr ⟨hfirst, hfree⟩)
      | inr hsecond =>
        by_cases hfirst : a ∈ first
        · exact .inl (.inr ⟨hfirst, hfree⟩)
        · refine .inr ⟨hsecond, ?_⟩
          rintro b (hb | ⟨hb, _⟩)
          · exact hfree b hb
          · exact fun hkey => hfirst (hkeys b hb a hsecond hkey ▸ hb)
  · rintro ((hold | ⟨hmem, hfree⟩) | ⟨hmem, hfree⟩)
    · exact .inl hold
    · exact .inr ⟨List.mem_append_left _ hmem, hfree⟩
    · exact .inr ⟨List.mem_append_right _ hmem, fun b hb => hfree b (.inl hb)⟩

/-- A loop whose passes each merge a part of the records merges all of them. -/
theorem merged_foldlM {State ε Part : Type*} {key : α → κ} {step : State → Part → Except ε State} {part : Part → List α}
    {Holds : State → Set α → Prop} {parts : List Part}
    (hstep : ∀ g ∈ parts, ∀ s entries, Holds s entries → ∃ next, step s g = .ok next ∧
      Holds next (merged key entries (part g)))
    (hkeys : ((parts.flatMap part).map key).Nodup) {s : State} {entries : Set α} (h : Holds s entries) :
    ∃ last, parts.foldlM step s = .ok last ∧ Holds last (merged key entries (parts.flatMap part)) := by
  induction parts generalizing s entries with
  | nil =>
    refine ⟨s, rfl, ?_⟩
    have hsame : merged key entries ([].flatMap part) = entries := by
      ext a
      simp [merged]
    rwa [hsame]
  | cons g rest ih =>
    obtain ⟨next, hnext, hholds⟩ := hstep g List.mem_cons_self s entries h
    rw [List.flatMap_cons, List.map_append, List.nodup_append] at hkeys
    obtain ⟨_, hrest, hapart⟩ := hkeys
    obtain ⟨last, hlast, hfinal⟩ := ih (fun g hmem => hstep g (List.mem_cons_of_mem _ hmem)) hrest hholds
    have hkeys : ∀ b ∈ part g, ∀ a ∈ rest.flatMap part, key b = key a → b = a := fun b hb a ha hkey =>
      absurd hkey (hapart _ (List.mem_map_of_mem hb) _ (List.mem_map_of_mem ha))
    refine ⟨last, ?_, by rwa [List.flatMap_cons, merged_append hkeys]⟩
    rw [List.foldlM_cons, hnext]
    exact hlast

section Order

variable [LinearOrder κ]

/-- A list that has the records of a set in ascending order of their keys. -/
structure Lists (key : α → κ) (list : List α) (entries : Set α) : Prop where
  ascending : list.Pairwise fun a b => key a < key b
  mem : ∀ a, a ∈ list ↔ a ∈ entries

variable {key : α → κ} {list : List α} {entries : Set α}

/-- There is one such list at most. -/
theorem Lists.unique {other : List α} (h : Lists key list entries) (hother : Lists key other entries) : list = other := by
  have hasymm : Std.Asymm fun a b : α => key a < key b := ⟨fun a b hab hba => lt_asymm hab hba⟩
  exact h.ascending.eq_of_mem_iff hother.ascending fun a => (h.mem a).trans (hother.mem a).symm

theorem Lists.nodup_keys (h : Lists key list entries) : (list.map key).Nodup :=
  (List.pairwise_map.mpr h.ascending).imp ne_of_lt

/-- Keys that order the records in the same way give the same list. -/
theorem Lists.change_key {ι : Type*} [LinearOrder ι] {key' : α → ι} (h : Lists key list entries)
    (hsame : ∀ a ∈ entries, ∀ b ∈ entries, key a < key b → key' a < key' b) : Lists key' list entries := by
  refine ⟨h.ascending.imp_of_mem fun ha hb hlt => ?_, h.mem⟩
  exact hsame _ ((h.mem _).mp ha) _ ((h.mem _).mp hb) hlt

/-- A stable sort by key. -/
def sort_by_key (key : α → κ) (list : List α) : List α := list.insertionSort fun a b => key a ≤ key b

theorem mem_sort_by_key {a : α} : a ∈ sort_by_key key list ↔ a ∈ list := List.mem_insertionSort _

theorem perm_sort_by_key : (sort_by_key key list).Perm list := List.perm_insertionSort _ list

/-- Where only equal records share a key, the order before the sort does not matter. -/
theorem sort_by_key_congr {other : List α} (hperm : list.Perm other) (hkeys : Set.InjOn key { a | a ∈ list }) :
    sort_by_key key list = sort_by_key key other := by
  have htotal : Std.Total fun a b : α => key a ≤ key b := ⟨fun a b => le_total _ _⟩
  have htrans : IsTrans α fun a b => key a ≤ key b := ⟨fun a b c => le_trans⟩
  have hsorted := List.pairwise_insertionSort (fun a b => key a ≤ key b)
  refine List.Perm.eq_of_pairwise ?_ (hsorted list) (hsorted other) (perm_sort_by_key.trans (hperm.trans perm_sort_by_key.symm))
  intro a b ha hb hab hba
  exact hkeys (mem_sort_by_key.mp ha) (hperm.mem_iff.mpr (mem_sort_by_key.mp hb)) (le_antisymm hab hba)

/-- The keys of sorted records are the sorted keys. -/
theorem map_sort_by_key (key : α → κ) (list : List α) : (sort_by_key key list).map key = sort_by_key id (list.map key) := by
  have htotal : Std.Total fun a b : α => key a ≤ key b := ⟨fun a b => le_total _ _⟩
  have htrans : IsTrans α fun a b => key a ≤ key b := ⟨fun a b c => le_trans⟩
  have htotal' : Std.Total fun a b : κ => id a ≤ id b := ⟨fun a b => le_total _ _⟩
  have htrans' : IsTrans κ fun a b => id a ≤ id b := ⟨fun a b c => le_trans⟩
  refine List.Perm.eq_of_pairwise (fun _ _ _ _ => le_antisymm) ?_
    (List.pairwise_insertionSort (fun a b => id a ≤ id b) (list.map key))
    ((perm_sort_by_key.map key).trans perm_sort_by_key.symm)
  exact List.pairwise_map.mpr (List.pairwise_insertionSort (fun a b => key a ≤ key b) list)

/-- Sorting records with distinct keys lists them. -/
theorem lists_sort_by_key (hkeys : (list.map key).Nodup) (hmem : ∀ a, a ∈ list ↔ a ∈ entries) :
    Lists key (sort_by_key key list) entries := by
  have htotal : Std.Total fun a b : α => key a ≤ key b := ⟨fun a b => le_total _ _⟩
  have htrans : IsTrans α fun a b => key a ≤ key b := ⟨fun a b c => le_trans⟩
  have hsorted := List.pairwise_insertionSort (fun a b => key a ≤ key b) list
  have hdistinct : (sort_by_key key list).Pairwise fun a b => key a ≠ key b := by
    have hperm := (List.perm_insertionSort (fun a b => key a ≤ key b) list).map key
    exact List.pairwise_map.mp (hperm.nodup_iff.mpr hkeys)
  refine ⟨?_, fun a => mem_sort_by_key.trans (hmem a)⟩
  exact (List.pairwise_and_iff.mpr ⟨hsorted, hdistinct⟩).imp fun ⟨hle, hne⟩ => lt_of_le_of_ne hle hne

/-- Sorting a list with one more record at its end puts the record somewhere into the sorted list. -/
theorem sort_by_key_snoc (list : List α) (a : α) : ∃ before after, sort_by_key key (list ++ [a]) = before ++ a :: after ∧
    sort_by_key key list = before ++ after := by
  have hinsert : ∀ (b : α) (before after : List α), (before ++ a :: after).Pairwise (fun c d => key c ≤ key d) →
      ∃ before' after', (before ++ a :: after).orderedInsert (fun c d => key c ≤ key d) b = before' ++ a :: after' ∧
        (before ++ after).orderedInsert (fun c d => key c ≤ key d) b = before' ++ after' := by
    intro b before
    induction before with
    | nil =>
      intro after hsorted
      by_cases hle : key b ≤ key a
      · refine ⟨[b], after, by simp [hle], ?_⟩
        cases after with
        | nil => rfl
        | cons c rest =>
          have hac : key a ≤ key c := (List.pairwise_cons.mp hsorted).1 c List.mem_cons_self
          simp [le_trans hle hac]
      · exact ⟨[], after.orderedInsert (fun c d => key c ≤ key d) b, by simp [hle], rfl⟩
    | cons c rest ih =>
      intro after hsorted
      by_cases hle : key b ≤ key c
      · exact ⟨b :: c :: rest, after, by simp [hle], by simp [hle]⟩
      · obtain ⟨before', after', hwith, hwithout⟩ := ih after (List.pairwise_cons.mp hsorted).2
        refine ⟨c :: before', after', ?_, ?_⟩
        · simp [hle, hwith]
        · simp [hle, hwithout]
  have htotal : Std.Total fun c d : α => key c ≤ key d := ⟨fun c d => le_total _ _⟩
  have htrans : IsTrans α fun c d => key c ≤ key d := ⟨fun c d e => le_trans⟩
  induction list with
  | nil => exact ⟨[], [], rfl, rfl⟩
  | cons b rest ih =>
    obtain ⟨before, after, hwith, hwithout⟩ := ih
    have hsorted := List.pairwise_insertionSort (fun c d => key c ≤ key d) (rest ++ [a])
    unfold sort_by_key at hwith hwithout ⊢
    rw [hwith] at hsorted
    obtain ⟨before', after', hwith', hwithout'⟩ := hinsert b before after hsorted
    refine ⟨before', after', ?_, ?_⟩
    · rw [List.cons_append, List.insertionSort_cons, hwith, hwith']
    · rw [List.insertionSort_cons, hwithout, hwithout']

end Order

section Fresh

variable [DecidableEq κ] {key : α → κ}

/-- The records whose keys a list does not have. -/
def fresh (key : α → κ) (existing records : List α) : List α := records.filter fun a => key a ∉ existing.map key

theorem nodup_append_fresh {existing records : List α} (hexisting : (existing.map key).Nodup)
    (hrecords : (records.map key).Nodup) : ((existing ++ fresh key existing records).map key).Nodup := by
  rw [List.map_append, List.nodup_append]
  refine ⟨hexisting, hrecords.sublist (List.filter_sublist.map key), ?_⟩
  rintro k hk _ hk' rfl
  obtain ⟨a, ha, rfl⟩ := List.mem_map.mp hk'
  exact absurd hk (by simpa [fresh] using (List.mem_filter.mp ha).2)

theorem mem_append_fresh {existing records : List α} {entries : Set α} (hmem : ∀ a, a ∈ existing ↔ a ∈ entries) (a : α) :
    a ∈ existing ++ fresh key existing records ↔ a ∈ merged key entries records := by
  simp only [List.mem_append, fresh, List.mem_filter, decide_eq_true_eq, merged, Set.mem_ofPred_eq, hmem]
  refine or_congr_right (and_congr_right fun _ => ?_)
  simp only [List.mem_map, not_exists, not_and, hmem]

end Fresh

end keyed
