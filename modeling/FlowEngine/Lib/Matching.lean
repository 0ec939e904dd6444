import Mathlib.Data.List.Chain

namespace matching

variable {α β κ : Type*}

/-- Change the last element of a list that passes. -/
def update_last (p : α → Bool) (f : α → α) : List α → List α
  | [] => []
  | a :: rest =>
    if rest.any p then a :: update_last p f rest
    else if p a then f a :: rest
    else a :: rest

section UpdateLast

variable {p : α → Bool} {f : α → α} {a : α} {before after : List α}

theorem update_last_append (before : List α) (hafter : after.any p = true) :
    update_last p f (before ++ after) = before ++ update_last p f after := by
  induction before with
  | nil => rfl
  | cons b before ih =>
    have hany : (before ++ after).any p = true := by rw [List.any_append, hafter, Bool.or_true]
    rw [List.cons_append, update_last, if_pos hany, ih]
    rfl

theorem update_last_of_last (ha : p a = true) (hafter : ∀ b ∈ after, p b = false) :
    update_last p f (before ++ a :: after) = before ++ f a :: after := by
  have hnone : ¬ after.any p = true := by simpa using hafter
  rw [update_last_append before (by rw [List.any_cons, ha, Bool.true_or]), update_last, if_neg hnone, if_pos ha]

/-- An element that passes is the one changed exactly if none after it passes. -/
theorem update_last_eq_iff (ha : p a = true) (hchanges : f a ≠ a) :
    update_last p f (before ++ a :: after) = before ++ f a :: after ↔ ∀ b ∈ after, p b = false := by
  refine ⟨fun heq => ?_, update_last_of_last ha⟩
  by_contra hsome
  have hany : after.any p = true := by simpa using hsome
  rw [update_last_append before (by rw [List.any_cons, hany, Bool.or_true]), update_last, if_pos hany] at heq
  exact hchanges (List.cons.inj (List.append_cancel_left heq)).1.symm

/-- Where one element alone passes, changing those that pass is changing it. -/
theorem map_of_sole {q : α → Prop} [DecidablePred q] (ha : q a) (hbefore : ∀ b ∈ before, ¬ q b) (hafter : ∀ b ∈ after, ¬ q b) :
    (before ++ a :: after).map (fun b => if q b then f b else b) = before ++ f a :: after := by
  have hkept : ∀ l : List α, (∀ b ∈ l, ¬ q b) → l.map (fun b => if q b then f b else b) = l :=
    fun l hl => (List.map_congr_left fun b hb => if_neg (hl b hb)).trans (List.map_id' l)
  rw [List.map_append, List.map_cons, if_pos ha, hkept before hbefore, hkept after hafter]

end UpdateLast

variable [DecidableEq κ]

/-- The elements of a list, each with the next one of the same writer. -/
def with_next (writer : α → κ) : List α → List (α × Option α)
  | [] => []
  | a :: rest => (a, rest.find? fun b => writer b = writer a) :: with_next writer rest

section WithNext

variable {writer : α → κ} {l before after : List α} {a b d e : α}

theorem with_next_append (l m : List α) : with_next writer (l ++ m) =
    (with_next writer l).map (fun c => (c.1, c.2.or (m.find? fun b => writer b = writer c.1))) ++ with_next writer m := by
  induction l with
  | nil => rfl
  | cons a l ih => rw [List.cons_append, with_next, with_next, List.map_cons, List.cons_append, ih, List.find?_append]

theorem with_next_map (g : β → α) (l : List β) : with_next writer (l.map g) =
    (with_next (fun b => writer (g b)) l).map fun c => (g c.1, c.2.map g) := by
  induction l with
  | nil => rfl
  | cons b l ih =>
    rw [List.map_cons, with_next, ih, with_next, List.map_cons, List.find?_map]
    rfl

theorem with_next_map_fst (writer : α → κ) (l : List α) : (with_next writer l).map Prod.fst = l := by
  induction l with
  | nil => rfl
  | cons a l ih => rw [with_next, List.map_cons, ih]

theorem mem_of_mem_with_next {next : Option α} (h : (a, next) ∈ with_next writer l) : a ∈ l := by
  rw [← with_next_map_fst writer l]
  exact List.mem_map_of_mem (f := Prod.fst) h

theorem exists_with_next (writer : α → κ) (h : a ∈ l) : ∃ next, (a, next) ∈ with_next writer l := by
  rw [← with_next_map_fst writer l] at h
  obtain ⟨⟨_, next⟩, hmem, rfl⟩ := List.mem_map.mp h
  exact ⟨next, hmem⟩

theorem writer_of_next (h : (a, some b) ∈ with_next writer l) : b ∈ l ∧ writer b = writer a := by
  induction l with
  | nil => cases h
  | cons first l ih =>
    cases List.mem_cons.mp h with
    | inl heq =>
      obtain ⟨rfl, hfind⟩ := Prod.mk.inj heq
      exact ⟨List.mem_cons_of_mem _ (List.mem_of_find?_eq_some hfind.symm), by simpa using List.find?_some hfind.symm⟩
    | inr hrest => exact ⟨List.mem_cons_of_mem _ (ih hrest).1, (ih hrest).2⟩

/-- What relates consecutive elements of every writer relates each element to its next one. -/
theorem related_next {R : α → α → Prop} (hchain : ∀ k, (l.filter fun a => writer a = k).IsChain R)
    (h : (a, some b) ∈ with_next writer l) : R a b := by
  induction l with
  | nil => cases h
  | cons first l ih =>
    have hrest : ∀ k, (l.filter fun a => writer a = k).IsChain R := by
      intro k
      have hk := hchain k
      rw [List.filter_cons] at hk
      split at hk
      · exact hk.tail
      · exact hk
    cases List.mem_cons.mp h with
    | inl heq =>
      obtain ⟨rfl, hfind⟩ := Prod.mk.inj heq
      obtain ⟨hb, skipped, rest, rfl, hskipped⟩ := List.find?_eq_some_iff_append.mp hfind.symm
      have hnone : skipped.filter (fun c => decide (writer c = writer a)) = [] := by
        rw [List.filter_eq_nil_iff]
        exact fun c hc => by simpa using hskipped c hc
      have hk := hchain (writer a)
      rw [List.filter_cons_of_pos (by simp), List.filter_append, hnone, List.nil_append] at hk
      rw [List.filter_cons, if_pos hb] at hk
      exact (List.isChain_cons_cons.mp hk).1
    | inr hin => exact ih hrest hin

theorem with_next_snoc (l : List α) (e : α) : with_next writer (l ++ [e]) =
    (with_next writer l).map (fun c => (c.1, c.2.or (if writer e = writer c.1 then some e else none))) ++ [(e, none)] := by
  rw [with_next_append]
  simp only [List.find?_cons, List.find?_nil]
  congr 1
  refine List.map_congr_left fun c _ => ?_
  by_cases heq : writer e = writer c.1 <;> simp [heq]

/-- When its writer adds an element every earlier one has a next one. -/
theorem exists_next_of_snoc (ha : a ∈ l) (hwriter : writer e = writer a) :
    ∃ next, (a, some next) ∈ with_next writer (l ++ [e]) := by
  obtain ⟨next, hnext⟩ := exists_with_next writer ha
  rw [with_next_snoc]
  cases next with
  | none => exact ⟨e, List.mem_append_left _ (List.mem_map.mpr ⟨_, hnext, by simp [hwriter]⟩)⟩
  | some next => exact ⟨next, List.mem_append_left _ (List.mem_map.mpr ⟨_, hnext, rfl⟩)⟩

theorem with_next_snoc_of_first (h : ∀ a ∈ l, writer a ≠ writer e) :
    with_next writer (l ++ [e]) = with_next writer l ++ [(e, none)] := by
  rw [with_next_snoc]
  congr 1
  refine (List.map_congr_left fun c hc => ?_).trans (List.map_id _)
  rw [if_neg (Ne.symm (h c.1 (mem_of_mem_with_next hc))), Option.or_none]
  rfl

/-- The last element of a writer, before and after the writer adds another one. -/
theorem with_next_snoc_of_last (before : List α) (hafter : ∀ a ∈ after, writer a ≠ writer d)
    (hwriter : writer e = writer d) :
    ∃ earlier, with_next writer (before ++ d :: after) = earlier ++ (d, none) :: with_next writer after ∧
      with_next writer (before ++ d :: after ++ [e]) =
        earlier ++ (d, some e) :: (with_next writer after ++ [(e, none)]) := by
  have hlast : with_next writer (d :: after) = (d, none) :: with_next writer after := by
    rw [with_next, List.find?_eq_none.mpr fun a ha => by simpa using hafter a ha]
  have hsnoc : with_next writer (d :: (after ++ [e])) = (d, some e) :: (with_next writer after ++ [(e, none)]) := by
    rw [← with_next_snoc_of_first fun a ha => hwriter ▸ hafter a ha, with_next, List.find?_append,
      List.find?_eq_none.mpr fun a ha => by simpa using hafter a ha]
    simp [hwriter]
  refine ⟨_, by rw [with_next_append, hlast], ?_⟩
  rw [List.append_assoc, List.cons_append, with_next_append, hsnoc]
  congr 1
  refine List.map_congr_left fun c _ => ?_
  -- A writer that is to add the new element has added the last one.
  rw [← List.cons_append, List.find?_append]
  by_cases hlater : writer d = writer c.1
  · simp [hlater]
  · simp [hwriter, hlater]

/-- The writer of an element has a last one. -/
theorem exists_last (writer : α → κ) (h : a ∈ l) :
    ∃ before d after, l = before ++ d :: after ∧ writer d = writer a ∧ ∀ b ∈ after, writer b ≠ writer a := by
  have hsome : (l.reverse.find? fun b => writer b = writer a).isSome :=
    List.find?_isSome.mpr ⟨a, List.mem_reverse.mpr h, by simp⟩
  obtain ⟨d, hfind⟩ := Option.isSome_iff_exists.mp hsome
  obtain ⟨hd, after, before, hreverse, hafter⟩ := List.find?_eq_some_iff_append.mp hfind
  refine ⟨before.reverse, d, after.reverse, ?_, by simpa using hd, ?_⟩
  · rw [← List.reverse_reverse l, hreverse]
    simp
  · exact fun b hb => by simpa using hafter b (List.mem_reverse.mp hb)

end WithNext

end matching
