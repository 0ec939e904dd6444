import Mathlib.Data.List.AList
import Mathlib.Data.List.Induction
import Mathlib.Algebra.Order.Group.Multiset
import Mathlib.Tactic.Abel

namespace parking

/-- An item is parked under a key, or what is parked under a key is taken. -/
inductive Op (Key Item : Type*) where
  | park (key : Key) (item : Item)
  | take (key : Key)

/-- What is parked, at most one item under each key. -/
abbrev Lot (Key Item : Type*) := AList fun _ : Key => Item

variable {Key Item Seen : Type*} [DecidableEq Key]

namespace Op

def key : Op Key Item → Key
  | park key _ => key
  | take key => key

def parked? : Op Key Item → Option Item
  | park _ item => some item
  | take _ => none

def taken? : Op Key Item → Option Key
  | park _ _ => none
  | take key => some key

end Op

/-- An item takes the place of the one that was parked under its key. -/
def step (lot : Lot Key Item) : Op Key Item → Lot Key Item
  | .park key item => lot.insert key item
  | .take key => lot.erase key

def after (lot : Lot Key Item) (ops : List (Op Key Item)) : Lot Key Item := ops.foldl step lot

/-- What is found where something is taken. -/
def found (lot : Lot Key Item) : List (Op Key Item) → List (Option Item)
  | [] => []
  | .park key item :: ops => found (lot.insert key item) ops
  | .take key :: ops => lot.lookup key :: found (lot.erase key) ops

/-- The items that lose their place to a later one. -/
def displaced (lot : Lot Key Item) : List (Op Key Item) → List Item
  | [] => []
  | .park key item :: ops => (lot.lookup key).toList ++ displaced (lot.insert key item) ops
  | .take key :: ops => displaced (lot.erase key) ops

/-- The items in the lot. -/
def items (lot : Lot Key Item) : Multiset Item := lot.entries.map Sigma.snd

section Conservation

variable (lot : Lot Key Item) (key : Key)

theorem items_erase : items lot = (lot.lookup key).toList + items (lot.erase key) := by
  by_cases hmem : key ∈ lot
  · obtain ⟨item, before, rest, hkey, hentries, herase⟩ := List.exists_of_kerase (AList.mem_keys.mp hmem)
    have hlookup : lot.lookup key = some item :=
      AList.mem_lookup_iff.mpr (by rw [hentries]; exact List.mem_append_right _ List.mem_cons_self)
    have hrest : items (lot.erase key) = ↑(before.map Sigma.snd ++ rest.map Sigma.snd) := by
      rw [← List.map_append, ← herase]
      rfl
    rw [items, hlookup, hrest, hentries, List.map_append]
    exact Multiset.coe_eq_coe.mpr List.perm_middle
  · have hsame : (lot.erase key).entries = lot.entries := List.kerase_of_notMem_keys hmem
    rw [AList.lookup_eq_none.mpr hmem, items, items, hsame]
    exact (zero_add _).symm

theorem items_insert (item : Item) : items (lot.insert key item) = {item} + items (lot.erase key) := by
  rw [items, AList.entries_insert]
  rfl

/-- What was parked is still parked, was displaced, or was found. -/
theorem conservation (ops : List (Op Key Item)) : items lot + (ops.filterMap Op.parked? : Multiset Item) =
    items (after lot ops) + displaced lot ops + ((found lot ops).filterMap id : Multiset Item) := by
  induction ops generalizing lot with
  | nil => simp [after, displaced, found]
  | cons op ops ih =>
    cases op with
    | park key item =>
      have hrest := ih (lot.insert key item)
      rw [items_insert] at hrest
      calc items lot + ((Op.park key item :: ops).filterMap Op.parked? : Multiset Item)
        _ = (lot.lookup key).toList + items (lot.erase key) + ({item} + (ops.filterMap Op.parked? : Multiset Item)) := by
          rw [items_erase lot key]
          rfl
        _ = (lot.lookup key).toList + ({item} + items (lot.erase key) + (ops.filterMap Op.parked? : Multiset Item)) := by
          abel
        _ = items (after (lot.insert key item) ops) + ((lot.lookup key).toList + displaced (lot.insert key item) ops) +
            ((found (lot.insert key item) ops).filterMap id : Multiset Item) := by
          rw [hrest]
          abel
    | take key =>
      have hrest := ih (lot.erase key)
      calc items lot + ((Op.take key :: ops).filterMap Op.parked? : Multiset Item)
        _ = (lot.lookup key).toList + (items (lot.erase key) + (ops.filterMap Op.parked? : Multiset Item)) := by
          rw [items_erase lot key, add_assoc]
          rfl
        _ = items (after (lot.erase key) ops) + displaced (lot.erase key) ops +
            ((lot.lookup key).toList + ((found (lot.erase key) ops).filterMap id : Multiset Item)) := by
          rw [hrest]
          abel
        _ = _ := by
          cases hlookup : lot.lookup key <;> simp [after, displaced, found, step, hlookup]

theorem length_found (ops : List (Op Key Item)) : (found lot ops).length = (ops.filterMap Op.taken?).length := by
  induction ops generalizing lot with
  | nil => rfl
  | cons op ops ih =>
    cases op with
    | park key item => exact ih _
    | take key => exact congrArg Nat.succ (ih _)

end Conservation

theorem after_append (lot : Lot Key Item) (first second : List (Op Key Item)) :
    after lot (first ++ second) = after (after lot first) second := List.foldl_append

theorem found_append (lot : Lot Key Item) (first second : List (Op Key Item)) :
    found lot (first ++ second) = found lot first ++ found (after lot first) second := by
  induction first generalizing lot with
  | nil => rfl
  | cons op first ih =>
    cases op with
    | park key item => exact ih _
    | take key => exact congrArg (lot.lookup key :: ·) (ih _)

/-- A machine that keeps a lot: an input is an operation on it or leaves it alone, and what
is found where something is taken is all that is seen. -/
structure Keeps {State Input : Type*} (next : State → Input → State) (op : Input → Option (Op Key Item))
    (lot : State → Lot Key Item) (seen : State → List Seen) (view : Option Item → Seen) : Prop where
  lot_next : ∀ s input, lot (next s input) = after (lot s) (op input).toList
  seen_next : ∀ s input, seen (next s input) = seen s ++ (found (lot s) (op input).toList).map view

section Keeps

variable {State Input : Type*} {next : State → Input → State} {op : Input → Option (Op Key Item)}
  {lot : State → Lot Key Item} {seen : State → List Seen} {view : Option Item → Seen}

omit [DecidableEq Key] in
theorem toList_append_filterMap (input : Input) (rest : List Input) :
    (op input).toList ++ rest.filterMap op = (input :: rest).filterMap op := by
  cases hop : op input <;> simp [hop]

theorem Keeps.seen_run (h : Keeps next op lot seen view) (s : State) (inputs : List Input) :
    seen (inputs.foldl next s) = seen s ++ (found (lot s) (inputs.filterMap op)).map view := by
  induction inputs generalizing s with
  | nil => simp [found]
  | cons input rest ih =>
    rw [List.foldl_cons, ih, h.seen_next, h.lot_next, List.append_assoc, ← List.map_append, ← found_append,
      toList_append_filterMap]

end Keeps

/-- The displaced items are those that a later one finds in its place. -/
theorem mem_displaced {lot : Lot Key Item} {ops : List (Op Key Item)} {item : Item} :
    item ∈ displaced lot ops ↔
      ∃ before key new rest, ops = before ++ .park key new :: rest ∧ (after lot before).lookup key = some item := by
  induction ops generalizing lot with
  | nil => simp [displaced]
  | cons op ops ih =>
    have hrest : (∃ before key new rest, op :: ops = before ++ .park key new :: rest ∧
        (after lot before).lookup key = some item) ↔
        (∃ key new, op = .park key new ∧ lot.lookup key = some item) ∨
          ∃ before key new rest, ops = before ++ .park key new :: rest ∧
            (after (step lot op) before).lookup key = some item := by
      constructor
      · rintro ⟨before, key, new, rest, hsplit, hlookup⟩
        cases before with
        | nil =>
          cases hsplit
          exact Or.inl ⟨key, new, rfl, hlookup⟩
        | cons first before =>
          cases hsplit
          exact Or.inr ⟨before, key, new, rest, rfl, hlookup⟩
      · rintro (⟨key, new, rfl, hlookup⟩ | ⟨before, key, new, rest, rfl, hlookup⟩)
        · exact ⟨[], key, new, ops, rfl, hlookup⟩
        · exact ⟨op :: before, key, new, rest, rfl, hlookup⟩
    rw [hrest]
    cases op with
    | park key new =>
      rw [displaced, List.mem_append, ih]
      refine or_congr ?_ Iff.rfl
      rw [Option.mem_toList]
      constructor
      · exact fun hlookup => ⟨key, new, rfl, hlookup⟩
      · rintro ⟨_, _, heq, hlookup⟩
        cases heq
        exact hlookup
    | take key =>
      rw [displaced, ih]
      refine (or_iff_right ?_).symm
      rintro ⟨_, _, heq, _⟩
      cases heq

/-- As many items are taken as are parked, and where one is parked something is taken under
its key later. -/
structure Balanced (ops : List (Op Key Item)) : Prop where
  count : (ops.filterMap Op.parked?).length = (ops.filterMap Op.taken?).length
  taken_later : ∀ before key item rest, ops = before ++ .park key item :: rest → .take key ∈ rest

section Balanced

variable {lot : Lot Key Item} {ops : List (Op Key Item)}

theorem lookup_after_of_key_ne {key : Key} (hother : ∀ op ∈ ops, op.key ≠ key) :
    (after lot ops).lookup key = lot.lookup key := by
  induction ops generalizing lot with
  | nil => rfl
  | cons op ops ih =>
    have hne := hother op List.mem_cons_self
    rw [after, List.foldl_cons, ← after, ih fun other hmem => hother other (List.mem_cons_of_mem _ hmem)]
    cases op with
    | park k item => exact AList.lookup_insert_ne (Ne.symm hne)
    | take k => exact AList.lookup_erase_ne (Ne.symm hne)

/-- What is taken for the last time is not there any more. -/
theorem lookup_after_of_taken
    (hlater : ∀ before key item rest, ops = before ++ .park key item :: rest → .take key ∈ rest) {key : Key}
    (htaken : .take key ∈ ops) : (after lot ops).lookup key = none := by
  induction ops generalizing lot with
  | nil => cases htaken
  | cons op ops ih =>
    have htail : ∀ before key item rest, ops = before ++ .park key item :: rest → .take key ∈ rest :=
      fun before key item rest hsplit => hlater (op :: before) key item rest (by rw [hsplit]; rfl)
    rw [after, List.foldl_cons, ← after]
    by_cases hagain : .take key ∈ ops
    · exact ih htail hagain
    · have hop : op = .take key := by
        cases List.mem_cons.mp htaken with
        | inl heq => exact heq.symm
        | inr hmem => exact absurd hmem hagain
      have hother : ∀ op ∈ ops, op.key ≠ key := by
        intro op hmem hkey
        obtain ⟨before, rest, hsplit⟩ := List.append_of_mem hmem
        cases op with
        | park k item =>
          have hlast := htail before k item rest hsplit
          cases hkey
          exact hagain (by rw [hsplit]; exact List.mem_append_right _ (List.mem_cons_of_mem _ hlast))
        | take k =>
          cases hkey
          exact hagain hmem
      rw [lookup_after_of_key_ne hother, hop]
      exact AList.lookup_erase key lot

/-- In the end nothing is parked any more. -/
theorem Balanced.items_after (h : Balanced ops) : items (after ∅ ops) = (0 : Multiset Item) := by
  have hnone : ∀ key, (after (∅ : Lot Key Item) ops).lookup key = none := by
    intro key
    by_cases htouched : ∃ op ∈ ops, op.key = key
    · obtain ⟨op, hmem, hkey⟩ := htouched
      refine lookup_after_of_taken h.taken_later ?_
      cases op with
      | park k item =>
        cases hkey
        obtain ⟨before, rest, rfl⟩ := List.append_of_mem hmem
        exact List.mem_append_right _ (List.mem_cons_of_mem _ (h.taken_later before k item rest rfl))
      | take k =>
        cases hkey
        exact hmem
    · rw [lookup_after_of_key_ne fun op hmem hkey => htouched ⟨op, hmem, hkey⟩]
      exact AList.lookup_empty key
  have hentries : (after (∅ : Lot Key Item) ops).entries = [] := by
    rw [List.eq_nil_iff_forall_not_mem]
    rintro ⟨key, item⟩ hmem
    have hlookup := AList.mem_lookup_iff.mpr hmem
    rw [hnone key] at hlookup
    cases hlookup
  rw [items, hentries]
  rfl

theorem length_eq_filterMap_add_countP (l : List (Option Item)) :
    l.length = (l.filterMap id).length + l.countP Option.isNone := by
  induction l with
  | nil => rfl
  | cons head rest ih => cases head <;> simp [ih] <;> omega

theorem map_getD_eq (f : Item → Seen) (default : Seen) (l : List (Option Item)) :
    ((l.map fun found => (found.map f).getD default : List Seen) : Multiset Seen) =
      (((l.filterMap id).map f : List Seen) : Multiset Seen) + Multiset.replicate (l.countP Option.isNone) default := by
  induction l with
  | nil => rfl
  | cons head rest ih =>
    cases head with
    | none =>
      rw [List.map_cons, ← Multiset.cons_coe, ih, List.countP_cons_of_pos rfl, Multiset.replicate_succ,
        Multiset.add_cons]
      rfl
    | some item =>
      rw [List.map_cons, ← Multiset.cons_coe, ih, List.countP_cons_of_neg (by simp), ← Multiset.cons_add]
      rfl

/-- What is seen where items are taken is what was parked, up to order, exactly if every
displaced item looks like a missing one. -/
theorem Balanced.seen_eq_iff (h : Balanced ops) (f : Item → Seen) (default : Seen) :
    (((found ∅ ops).map fun found => (found.map f).getD default : List Seen) : Multiset Seen) =
        (((ops.filterMap Op.parked?).map f : List Seen) : Multiset Seen) ↔
      ∀ item ∈ displaced ∅ ops, f item = default := by
  have hconserved := conservation (∅ : Lot Key Item) ops
  rw [h.items_after, zero_add, show items (∅ : Lot Key Item) = 0 from rfl, zero_add] at hconserved
  have hmissing : (found ∅ ops).countP Option.isNone = (displaced ∅ ops).length := by
    have hcard := congrArg Multiset.card hconserved
    rw [Multiset.card_add, Multiset.coe_card, Multiset.coe_card, Multiset.coe_card, h.count, ← length_found ∅,
      length_eq_filterMap_add_countP] at hcard
    omega
  have hparked : (((ops.filterMap Op.parked?).map f : List Seen) : Multiset Seen) =
      (displaced ∅ ops).map f + (((found ∅ ops).filterMap id).map f : List Seen) := by
    rw [← Multiset.map_coe, hconserved, Multiset.map_add, Multiset.map_coe, Multiset.map_coe]
  rw [map_getD_eq, hparked, hmissing, add_comm, add_left_inj, eq_comm, Multiset.eq_replicate]
  simp

end Balanced

/-- The start or the end of a call. -/
inductive Mark (Call : Type*) where
  | start (call : Call)
  | finish (call : Call)
  deriving DecidableEq

/-- An order of the starts and ends of calls, each with one start and later one end. -/
structure Interleaved {Call : Type*} (marks : List (Mark Call)) : Prop where
  nodup : marks.Nodup
  started_first : ∀ before call rest, marks = before ++ .finish call :: rest → .start call ∈ before
  finished_later : ∀ before call rest, marks = before ++ .start call :: rest → .finish call ∈ rest

/-- Where marks occur once, it is enough that each call that ends has its start before its end. -/
theorem Interleaved.of_idxOf {Call : Type*} [DecidableEq Call] {marks : List (Mark Call)} (hnodup : marks.Nodup)
    (hpaired : ∀ call, .start call ∈ marks ↔ .finish call ∈ marks)
    (horder : ∀ call, .start call ∈ marks → marks.idxOf (.start call) < marks.idxOf (.finish call)) :
    Interleaved marks := by
  refine ⟨hnodup, ?_, ?_⟩
  · rintro before call rest rfl
    have hfinish : .finish call ∉ before := fun hmem =>
      (List.nodup_append.mp hnodup).2.2 _ hmem _ List.mem_cons_self rfl
    have hlt := horder call ((hpaired call).mpr (List.mem_append_right _ List.mem_cons_self))
    rw [List.idxOf_append_of_notMem hfinish, List.idxOf_cons_self] at hlt
    by_contra hstart
    rw [List.idxOf_append_of_notMem hstart] at hlt
    omega
  · rintro before call rest rfl
    have hstart : .start call ∉ before := fun hmem =>
      (List.nodup_append.mp hnodup).2.2 _ hmem _ List.mem_cons_self rfl
    have hmem := List.mem_append_right before (List.mem_cons_self (a := Mark.start call) (l := rest))
    have hlt := horder call hmem
    rw [List.idxOf_append_of_notMem hstart, List.idxOf_cons_self] at hlt
    cases List.mem_append.mp ((hpaired call).mp hmem) with
    | inl hbefore =>
      rw [List.idxOf_append_of_mem hbefore] at hlt
      have hindex := List.idxOf_lt_length_of_mem hbefore
      omega
    | inr hrest =>
      cases List.mem_cons.mp hrest with
      | inl heq => cases heq
      | inr hrest => exact hrest

section Calls

variable {Call : Type*} (key : Call → Key) (item : Call → Item) (parks : Call → Bool)

/-- Some of the calls park their item at the start and take it at the end. -/
def call_op : Mark Call → Option (Op Key Item)
  | .start call => if parks call then some (.park (key call) (item call)) else none
  | .finish call => if parks call then some (.take (key call)) else none

def starts (parks : Call → Bool) (marks : List (Mark Call)) : List Call := marks.filterMap fun
  | .start call => if parks call then some call else none
  | .finish _ => none

def finishes (parks : Call → Bool) (marks : List (Mark Call)) : List Call := marks.filterMap fun
  | .start _ => none
  | .finish call => if parks call then some call else none

omit [DecidableEq Key] in
theorem filterMap_parked_call_op (marks : List (Mark Call)) :
    (marks.filterMap (call_op key item parks)).filterMap Op.parked? = (starts parks marks).map item := by
  rw [List.filterMap_filterMap, starts, List.map_filterMap]
  congr 1
  funext mark
  cases mark with
  | start call => by_cases hparks : parks call <;> simp [call_op, hparks, Op.parked?]
  | finish call => by_cases hparks : parks call <;> simp [call_op, hparks, Op.parked?]

omit [DecidableEq Key] in
theorem filterMap_taken_call_op (marks : List (Mark Call)) :
    (marks.filterMap (call_op key item parks)).filterMap Op.taken? = (finishes parks marks).map key := by
  rw [List.filterMap_filterMap, finishes, List.map_filterMap]
  congr 1
  funext mark
  cases mark with
  | start call => by_cases hparks : parks call <;> simp [call_op, hparks, Op.taken?]
  | finish call => by_cases hparks : parks call <;> simp [call_op, hparks, Op.taken?]

variable {marks : List (Mark Call)}

theorem Interleaved.start_mem_iff (h : Interleaved marks) (call : Call) : .start call ∈ marks ↔ .finish call ∈ marks := by
  constructor
  · intro hmem
    obtain ⟨before, rest, rfl⟩ := List.append_of_mem hmem
    exact List.mem_append_right _ (List.mem_cons_of_mem _ (h.finished_later before call rest rfl))
  · intro hmem
    obtain ⟨before, rest, rfl⟩ := List.append_of_mem hmem
    exact List.mem_append_left _ (h.started_first before call rest rfl)

/-- The calls that start are the calls that end. -/
theorem Interleaved.starts_perm (h : Interleaved marks) : (starts parks marks).Perm (finishes parks marks) := by
  rw [List.perm_ext_iff_of_nodup]
  · intro call
    have hstart : call ∈ starts parks marks ↔ .start call ∈ marks ∧ parks call = true := by
      unfold starts
      rw [List.mem_filterMap]
      constructor
      · rintro ⟨mark, hmem, hmark⟩
        split at hmark
        · split at hmark
          · cases hmark
            exact ⟨hmem, ‹_›⟩
          · cases hmark
        · cases hmark
      · rintro ⟨hmem, hparks⟩
        exact ⟨_, hmem, if_pos hparks⟩
    have hfinish : call ∈ finishes parks marks ↔ .finish call ∈ marks ∧ parks call = true := by
      unfold finishes
      rw [List.mem_filterMap]
      constructor
      · rintro ⟨mark, hmem, hmark⟩
        split at hmark
        · cases hmark
        · split at hmark
          · cases hmark
            exact ⟨hmem, ‹_›⟩
          · cases hmark
      · rintro ⟨hmem, hparks⟩
        exact ⟨_, hmem, if_pos hparks⟩
    rw [hstart, hfinish, h.start_mem_iff]
  · refine h.nodup.filterMap ?_
    intro mark mark' call hmark hmark'
    cases mark <;> cases mark' <;> simp_all
  · refine h.nodup.filterMap ?_
    intro mark mark' call hmark hmark'
    cases mark <;> cases mark' <;> simp_all

omit [DecidableEq Key] in
/-- Calls that park their items are balanced, whatever keys they share. -/
theorem Interleaved.balanced (h : Interleaved marks) : Balanced (marks.filterMap (call_op key item parks)) := by
  constructor
  · rw [filterMap_parked_call_op, filterMap_taken_call_op, List.length_map, List.length_map]
    exact (h.starts_perm parks).length_eq
  · intro before k x rest hsplit
    obtain ⟨first, second, rfl, _, hsecond⟩ := List.filterMap_eq_append_iff.mp hsplit
    obtain ⟨skipped, mark, later, rfl, _, hmark, hlater⟩ := List.filterMap_eq_cons_iff.mp hsecond
    cases mark with
    | start call =>
      have hfinish := h.finished_later (first ++ skipped) call later (by simp)
      have hparks : parks call = true := by
        by_contra hnot
        rw [call_op, if_neg hnot] at hmark
        cases hmark
      rw [call_op, if_pos hparks] at hmark
      cases hmark
      rw [← hlater]
      exact List.mem_filterMap.mpr ⟨.finish call, hfinish, if_pos hparks⟩
    | finish call =>
      simp only [call_op] at hmark
      split at hmark <;> cases hmark

end Calls

/-- What is parked was parked under its key, which no later operation has touched. -/
theorem lookup_after_iff {ops : List (Op Key Item)} {k : Key} {x : Item} :
    (after (∅ : Lot Key Item) ops).lookup k = some x ↔
      ∃ before rest, ops = before ++ .park k x :: rest ∧ ∀ op ∈ rest, op.key ≠ k := by
  constructor
  · intro h
    induction ops using List.reverseRecOn generalizing x with
    | nil =>
      rw [after, List.foldl_nil, AList.lookup_empty] at h
      cases h
    | append_singleton ops op ih =>
      rw [after_append] at h
      -- the last operation is the one that parks, or it has another key
      by_cases hkey : op.key = k
      · cases op with
        | park key y =>
          cases hkey
          cases (AList.lookup_insert _).symm.trans h
          exact ⟨ops, [], rfl, fun _ hmem => nomatch hmem⟩
        | take key =>
          cases hkey
          cases (AList.lookup_erase key _).symm.trans h
      · have hbefore : (after (∅ : Lot Key Item) ops).lookup k = some x := by
          rw [← h]
          exact (lookup_after_of_key_ne (by simpa using hkey)).symm
        obtain ⟨before, rest, rfl, hrest⟩ := ih hbefore
        refine ⟨before, rest ++ [op], by simp, ?_⟩
        intro other hmem
        cases List.mem_append.mp hmem with
        | inl hmem => exact hrest other hmem
        | inr hmem => rwa [List.mem_singleton.mp hmem]
  · rintro ⟨before, rest, rfl, hrest⟩
    rw [after_append, after, List.foldl_cons, ← after, lookup_after_of_key_ne hrest]
    exact AList.lookup_insert _

def Mark.call {Call : Type*} : Mark Call → Call
  | .start call => call
  | .finish call => call

section Overtaken

variable {Call : Type*} (key : Call → Key) (item : Call → Item) (parks : Call → Bool) {marks : List (Mark Call)}

/-- After the start of the call, the next mark under its key is the start of another one. -/
def Overtaken (marks : List (Mark Call)) (call : Call) : Prop :=
  ∃ before between later rest, marks = before ++ .start call :: (between ++ .start later :: rest) ∧
    (parks call = true ∧ parks later = true) ∧ key later = key call ∧
    ∀ mark ∈ between, parks mark.call = true → key mark.call ≠ key call

variable {key item parks}

omit [DecidableEq Key]

theorem Overtaken.parks_call {call : Call} (h : Overtaken key parks marks call) : parks call = true := by
  obtain ⟨_, _, _, _, _, hparks, _⟩ := h
  exact hparks.1

theorem call_op_eq_park_iff {mark : Mark Call} {k : Key} {x : Item} :
    call_op key item parks mark = some (.park k x) ↔
      ∃ call, mark = .start call ∧ parks call = true ∧ key call = k ∧ item call = x := by
  cases mark with
  | start call => by_cases hparks : parks call <;> simp [call_op, hparks]
  | finish call => by_cases hparks : parks call <;> simp [call_op, hparks]

theorem key_of_call_op {mark : Mark Call} {op : Op Key Item} (h : call_op key item parks mark = some op) :
    parks mark.call = true ∧ op.key = key mark.call := by
  cases mark with
  | start call =>
    obtain ⟨hparks, hop⟩ := Option.ite_none_right_eq_some.mp h
    cases hop
    exact ⟨hparks, rfl⟩
  | finish call =>
    obtain ⟨hparks, hop⟩ := Option.ite_none_right_eq_some.mp h
    cases hop
    exact ⟨hparks, rfl⟩

theorem call_op_of_parks {mark : Mark Call} (h : parks mark.call = true) :
    ∃ op, call_op key item parks mark = some op := by
  cases mark with
  | start call => exact ⟨_, if_pos h⟩
  | finish call => exact ⟨_, if_pos h⟩

/-- The marks leave a key alone exactly if their operations do. -/
theorem forall_call_op_key_ne {k : Key} :
    (∀ op ∈ marks.filterMap (call_op key item parks), op.key ≠ k) ↔
      ∀ mark ∈ marks, parks mark.call = true → key mark.call ≠ k := by
  constructor
  · intro h mark hmem hparks
    obtain ⟨op, hop⟩ := @call_op_of_parks _ _ _ key item parks _ hparks
    rw [← (key_of_call_op hop).2]
    exact h op (List.mem_filterMap.mpr ⟨mark, hmem, hop⟩)
  · intro h op hmem
    obtain ⟨mark, hmem, hop⟩ := List.mem_filterMap.mp hmem
    rw [(key_of_call_op hop).2]
    exact h mark hmem (key_of_call_op hop).1

variable [DecidableEq Key]

/-- The calls that are overtaken lose their item. -/
theorem mem_displaced_call_op {x : Item} :
    x ∈ displaced ∅ (marks.filterMap (call_op key item parks)) ↔
      ∃ call, Overtaken key parks marks call ∧ item call = x := by
  rw [mem_displaced]
  constructor
  · rintro ⟨before, k, new, rest, hsplit, hlookup⟩
    obtain ⟨first, between, rfl, hbetween⟩ := lookup_after_iff.mp hlookup
    -- the two operations that park are the starts of two calls
    obtain ⟨front, back, rfl, hfront, hback⟩ := List.filterMap_eq_append_iff.mp hsplit
    obtain ⟨marks₁, second, rfl, rfl, hsecond⟩ := List.filterMap_eq_append_iff.mp hfront
    obtain ⟨skipped, mark, marks₂, rfl, hskipped, hmark, rfl⟩ := List.filterMap_eq_cons_iff.mp hsecond
    obtain ⟨skipped', mark', marks₃, rfl, hskipped', hmark', rfl⟩ := List.filterMap_eq_cons_iff.mp hback
    obtain ⟨call, rfl, hparks, rfl, rfl⟩ := call_op_eq_park_iff.mp hmark
    obtain ⟨later, rfl, hparks', hkey, rfl⟩ := call_op_eq_park_iff.mp hmark'
    refine ⟨call, ⟨marks₁ ++ skipped, marks₂ ++ skipped', later, marks₃, by simp, ⟨hparks, hparks'⟩, hkey, ?_⟩, rfl⟩
    intro between hmem hbetween_parks
    cases List.mem_append.mp hmem with
    | inl hmem => exact forall_call_op_key_ne.mp hbetween between hmem hbetween_parks
    | inr hmem =>
      obtain ⟨op, hop⟩ := @call_op_of_parks _ _ _ key item parks _ hbetween_parks
      rw [hskipped' between hmem] at hop
      cases hop
  · rintro ⟨call, ⟨before, between, later, rest, rfl, ⟨hparks, hparks'⟩, hkey, hbetween⟩, rfl⟩
    refine ⟨(before ++ .start call :: between).filterMap (call_op key item parks), key call, item later,
      rest.filterMap (call_op key item parks), ?_, lookup_after_iff.mpr ⟨before.filterMap (call_op key item parks),
        between.filterMap (call_op key item parks), ?_, forall_call_op_key_ne.mpr hbetween⟩⟩
    · simp [call_op, hparks, hparks', hkey]
    · simp [call_op, hparks]

omit [DecidableEq Key] in
/-- No call is overtaken where each has a key of its own. -/
theorem Interleaved.not_overtaken (h : Interleaved marks)
    (hkeys : ∀ call other, parks call = true → parks other = true → key call = key other → call = other)
    (call : Call) : ¬Overtaken key parks marks call := by
  rintro ⟨before, between, later, rest, rfl, ⟨hparks, hparks'⟩, hkey, _⟩
  cases hkeys later call hparks' hparks hkey
  have hnodup := (List.nodup_append.mp h.nodup).2.1
  rw [List.nodup_cons] at hnodup
  exact hnodup.1 (List.mem_append_right _ List.mem_cons_self)

end Overtaken

end parking
