import FlowEngine.Types
import Std.Data.TreeMap.Lemmas

namespace flow_engine.in_memory_state

/-- Per-run state: the value of each key, with its sensitivity. -/
abbrev RunState := Std.TreeMap String (Value × Sensitivity)

/-- State is keyed by run and key. -/
structure InMemoryState where
  state : Std.TreeMap String RunState

namespace InMemoryState

def new : InMemoryState := ⟨∅⟩

section Operations

variable (s : InMemoryState) (run_id key : String)

def get : Option Value := (s.state[run_id]?.bind fun run => run[key]?).map Prod.fst

def set (value : Value) (sensitivity : Sensitivity) : InMemoryState :=
  ⟨s.state.insert run_id ((s.state.getD run_id ∅).insert key (value, sensitivity))⟩

def snapshot : Std.TreeMap String Value := (s.state[run_id]?.map fun run => run.map fun _ entry => entry.1).getD ∅

/-- What is restored has no sensitivity. -/
def restore (snapshot : Std.TreeMap String Value) : InMemoryState :=
  ⟨s.state.insert run_id ((∅ : RunState).insertMany (snapshot.toList.map fun entry => (entry.1, entry.2, Sensitivity.none)))⟩

def cleanup : InMemoryState := ⟨s.state.erase run_id⟩

end Operations

section Reads

variable (s : InMemoryState) (run_id key run_id' key' : String)

@[simp] theorem get_new : new.get run_id key = none := by
  rw [get, new, Std.TreeMap.getElem?_emptyc]
  rfl

theorem getD_get : (s.state.getD run_id ∅)[key]?.map Prod.fst = s.get run_id key := by
  rw [Std.TreeMap.getD_eq_getD_getElem?, get]
  cases s.state[run_id]? with
  | none => simp
  | some run => rfl

theorem get_set (value : Value) (sensitivity : Sensitivity) :
    (s.set run_id key value sensitivity).get run_id' key' =
      if run_id = run_id' ∧ key = key' then some value else s.get run_id' key' := by
  rw [get, set, Std.TreeMap.getElem?_insert]
  by_cases hrun : run_id = run_id'
  · subst hrun
    rw [if_pos (Std.LawfulEqCmp.compare_eq_iff_eq.mpr rfl), Option.bind_some, Std.TreeMap.getElem?_insert]
    by_cases hkey : key = key'
    · subst hkey
      rw [if_pos (Std.LawfulEqCmp.compare_eq_iff_eq.mpr rfl), if_pos ⟨rfl, rfl⟩]
      rfl
    · rw [if_neg fun h => hkey (Std.LawfulEqCmp.eq_of_compare h), if_neg fun h => hkey h.2, getD_get]
  · rw [if_neg fun h => hrun (Std.LawfulEqCmp.eq_of_compare h), if_neg fun h => hrun h.1]
    rfl

theorem getElem?_snapshot : (s.snapshot run_id)[key]? = s.get run_id key := by
  rw [snapshot, get]
  cases s.state[run_id]? with
  | none => simp
  | some run =>
    rw [Option.map_some, Option.getD_some, Option.bind_some, Std.TreeMap.getElem?_map]

theorem getElem?_restored (snapshot : Std.TreeMap String Value) :
    ((∅ : RunState).insertMany (snapshot.toList.map fun entry => (entry.1, entry.2, Sensitivity.none)))[key]?.map Prod.fst =
      snapshot[key]? := by
  cases hkey : snapshot[key]? with
  | none =>
    have habsent : ((snapshot.toList.map fun entry => (entry.1, entry.2, Sensitivity.none)).map Prod.fst).contains key
        = false := by
      rw [Bool.eq_false_iff, ne_eq, List.contains_iff_mem]
      intro hmem
      obtain ⟨_, hrestored, hfst⟩ := List.mem_map.mp hmem
      obtain ⟨entry, hentry, rfl⟩ := List.mem_map.mp hrestored
      have hsome := Std.TreeMap.mem_toList_iff_getElem?_eq_some.mp hentry
      rw [show entry.1 = key from hfst, hkey] at hsome
      cases hsome
    rw [Std.TreeMap.getElem?_insertMany_list_of_contains_eq_false habsent, Std.TreeMap.getElem?_emptyc]
    rfl
  | some value =>
    have hmem : (key, value, Sensitivity.none) ∈ snapshot.toList.map fun entry => (entry.1, entry.2, Sensitivity.none) :=
      List.mem_map.mpr ⟨(key, value), Std.TreeMap.mem_toList_iff_getElem?_eq_some.mpr hkey, rfl⟩
    have hdistinct : (snapshot.toList.map fun entry => (entry.1, entry.2, Sensitivity.none)).Pairwise
        fun a b => ¬compare a.1 b.1 = .eq := by
      rw [List.pairwise_map]
      exact Std.TreeMap.distinct_keys_toList
    rw [Std.TreeMap.getElem?_insertMany_list_of_mem (Std.LawfulEqCmp.compare_eq_iff_eq.mpr rfl) hdistinct hmem]
    rfl

theorem get_restore (snapshot : Std.TreeMap String Value) :
    (s.restore run_id snapshot).get run_id' key' = if run_id = run_id' then snapshot[key']? else s.get run_id' key' := by
  rw [get, restore, Std.TreeMap.getElem?_insert]
  by_cases hrun : run_id = run_id'
  · rw [if_pos (Std.LawfulEqCmp.compare_eq_iff_eq.mpr hrun), if_pos hrun, Option.bind_some, getElem?_restored]
  · rw [if_neg fun h => hrun (Std.LawfulEqCmp.eq_of_compare h), if_neg hrun]
    rfl

theorem get_cleanup : (s.cleanup run_id).get run_id' key' = if run_id = run_id' then none else s.get run_id' key' := by
  rw [get, cleanup, Std.TreeMap.getElem?_erase]
  by_cases hrun : run_id = run_id'
  · rw [if_pos (Std.LawfulEqCmp.compare_eq_iff_eq.mpr hrun), if_pos hrun]
    rfl
  · rw [if_neg fun h => hrun (Std.LawfulEqCmp.eq_of_compare h), if_neg hrun]
    rfl

end Reads

end InMemoryState

/-- A write access to the store. -/
inductive StateAccess where
  | set (run_id key : String) (value : Value) (sensitivity : Sensitivity)
  | restore (run_id : String) (snapshot : Std.TreeMap String Value)
  | cleanup (run_id : String)

namespace StateAccess

/-- The run that an access is about. -/
def run_id : StateAccess → String
  | .set run_id _ _ _ => run_id
  | .restore run_id _ => run_id
  | .cleanup run_id => run_id

def apply (s : InMemoryState) : StateAccess → InMemoryState
  | .set run_id key value sensitivity => s.set run_id key value sensitivity
  | .restore run_id snapshot => s.restore run_id snapshot
  | .cleanup run_id => s.cleanup run_id

/-- An access changes the value of a key of a run, or may. -/
def Touches (run_id key : String) : StateAccess → Prop
  | .set run_id' key' _ _ => run_id' = run_id ∧ key' = key
  | .restore run_id' _ => run_id' = run_id
  | .cleanup run_id' => run_id' = run_id

instance (run_id key : String) : (access : StateAccess) → Decidable (access.Touches run_id key)
  | .set run_id' key' _ _ => inferInstanceAs (Decidable (run_id' = run_id ∧ key' = key))
  | .restore run_id' _ => inferInstanceAs (Decidable (run_id' = run_id))
  | .cleanup run_id' => inferInstanceAs (Decidable (run_id' = run_id))

theorem Touches.run_id_eq {run_id key : String} {access : StateAccess} (h : access.Touches run_id key) :
    access.run_id = run_id := by
  cases access with
  | set run_id' key' value sensitivity => exact h.1
  | restore run_id' snapshot => exact h
  | cleanup run_id' => exact h

theorem get_apply_of_untouched (s : InMemoryState) {access : StateAccess} {run_id key : String}
    (h : ¬ access.Touches run_id key) : (access.apply s).get run_id key = s.get run_id key := by
  cases access with
  | set run_id' key' value sensitivity => exact (s.get_set _ _ _ _ value sensitivity).trans (if_neg h)
  | restore run_id' snapshot => exact (s.get_restore _ _ _ snapshot).trans (if_neg h)
  | cleanup run_id' => exact (s.get_cleanup _ _ _).trans (if_neg h)

/-- What an access leaves of its run depends on nothing but that run. -/
theorem get_apply_congr {s t : InMemoryState} {access : StateAccess} {run_id : String} (hrun : access.run_id = run_id)
    (h : ∀ key, s.get run_id key = t.get run_id key) (key : String) :
    (access.apply s).get run_id key = (access.apply t).get run_id key := by
  subst hrun
  cases access with
  | set run_id key' value sensitivity =>
    exact (s.get_set _ _ _ _ value sensitivity).trans
      ((congrArg (ite _ _) (h key)).trans (t.get_set _ _ _ _ value sensitivity).symm)
  | restore run_id snapshot =>
    exact (s.get_restore _ _ _ snapshot).trans ((congrArg (ite _ _) (h key)).trans (t.get_restore _ _ _ snapshot).symm)
  | cleanup run_id =>
    exact (s.get_cleanup _ _ _).trans ((congrArg (ite _ _) (h key)).trans (t.get_cleanup _ _ _).symm)

end StateAccess

/-- The store after a sequence of accesses. -/
def accessed (s : InMemoryState) (accesses : List StateAccess) : InMemoryState := accesses.foldl StateAccess.apply s

/-- To a run the accesses to other runs make no difference. -/
theorem get_accessed_filter (run_id : String) (accesses : List StateAccess) (s t : InMemoryState)
    (h : ∀ key, s.get run_id key = t.get run_id key) (key : String) :
    (accessed s accesses).get run_id key =
      (accessed t (accesses.filter fun access => access.run_id = run_id)).get run_id key := by
  induction accesses generalizing s t with
  | nil => exact h key
  | cons access rest ih =>
    by_cases hrun : access.run_id = run_id
    · rw [List.filter_cons, if_pos (decide_eq_true hrun)]
      exact ih _ _ (StateAccess.get_apply_congr hrun h)
    · rw [List.filter_cons, if_neg fun h => hrun (of_decide_eq_true h)]
      exact ih _ _ fun key => (StateAccess.get_apply_of_untouched s fun ht => hrun ht.run_id_eq).trans (h key)

/-- A run that is restored to a checkpoint goes on as if nothing had happened to it since the
checkpoint, whatever is done to it and to the other runs before, in between and after. -/
theorem restored_run_goes_on (start : InMemoryState) (before since after : List StateAccess) (run_id key : String) :
    (accessed ((accessed (accessed start before) since).restore run_id ((accessed start before).snapshot run_id))
        after).get run_id key =
      (accessed (accessed start (before.filter fun access => access.run_id = run_id))
        (after.filter fun access => access.run_id = run_id)).get run_id key := by
  refine get_accessed_filter run_id after _ _ (fun key => ?_) key
  rw [InMemoryState.get_restore, if_pos rfl, InMemoryState.getElem?_snapshot]
  exact get_accessed_filter run_id before start start (fun _ => rfl) key

end flow_engine.in_memory_state
