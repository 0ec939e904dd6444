import FlowEngine.Stores.Contents
import FlowEngine.Stores.InMemory

namespace flow_engine.in_memory

section Copies

variable (s : InMemoryRunStore) (run_id : String)

theorem apply_node_event_eq : apply_node_event = reconstruct.apply_node_event := by
  funext nodes event
  unfold apply_node_event reconstruct.apply_node_event
  cases event.event with
  | NodeFailed _ _ _ _ will_retry => cases will_retry <;> rfl
  | _ => rfl

theorem get_node_results_eq : get_node_results s run_id = reconstruct.extract_node_results (stored_events s run_id) := by
  unfold get_node_results stored_events
  cases s.events[run_id]? with
  | none => rfl
  | some events => rw [apply_node_event_eq, reconstruct.extract_node_results, Option.getD_some]

theorem collect_eq (record : StampedEvent → Option α) :
    collect record s run_id = (stored_events s run_id).filterMap record := by
  have hpushed : ∀ (events : List StampedEvent) (records : List α),
      events.foldl (push_record record) records = records ++ events.filterMap record := by
    intro events
    induction events with
    | nil => exact fun records => (List.append_nil records).symm
    | cons event rest ih =>
      intro records
      rw [List.foldl_cons, ih, push_record]
      cases hfound : record event with
      | none => rw [List.filterMap_cons_none hfound]
      | some found => rw [List.filterMap_cons_some hfound, List.append_assoc, List.singleton_append]
  unfold collect stored_events
  cases s.events[run_id]? with
  | none => rfl
  | some events => exact hpushed events []

theorem get_edge_results_eq : get_edge_results s run_id = reconstruct.extract_edge_results (stored_events s run_id) :=
  collect_eq s run_id _

theorem get_custom_events_eq : get_custom_events s run_id = reconstruct.extract_custom_events (stored_events s run_id) :=
  collect_eq s run_id _

theorem get_llm_invocations_eq :
    get_llm_invocations s run_id = reconstruct.extract_llm_invocations (stored_events s run_id) :=
  collect_eq s run_id _

end Copies

/-- The store holds a set of events: it lists those of each run, and its records are theirs. -/
structure Holds (s : InMemoryRunStore) (entries : Set StampedEvent) : Prop where
  listed : ∀ run_id, keyed.Lists StampedEvent.seq (stored_events s run_id) (of_run entries run_id)
  recorded : ∀ run_id, s.runs[run_id]? = reconstruct.reconstruct_run run_id (stored_events s run_id)

theorem holds_new : Holds new ∅ := by
  have hnone : ∀ run_id, stored_events new run_id = [] := fun run_id => by simp [stored_events, new]
  constructor
  · intro run_id
    rw [hnone]
    exact ⟨.nil, by simp [of_run]⟩
  · intro run_id
    rw [hnone]
    simp [new, reconstruct.reconstruct_run]

/-- The stored list of a run after its events were added. -/
def after_write (s : InMemoryRunStore) (group : String × List StampedEvent) : List StampedEvent :=
  keyed.sort_by_key StampedEvent.seq
    (stored_events s group.1 ++ keyed.fresh StampedEvent.seq (stored_events s group.1) group.2)

theorem stored_events_write_run (s : InMemoryRunStore) (group : String × List StampedEvent) (run_id : String) :
    stored_events (write_run s group) run_id = if run_id = group.1 then after_write s group else stored_events s run_id := by
  simp only [stored_events, write_run, Std.TreeMap.getElem?_insert, Std.LawfulEqCmp.compare_eq_iff_eq]
  by_cases h : run_id = group.1
  · simp [h, after_write, stored_events]
  · simp [h, Ne.symm h]

theorem after_write_ne_nil {s : InMemoryRunStore} {group : String × List StampedEvent} (h : group.2 ≠ []) :
    after_write s group ≠ [] := by
  intro hnil
  have hlength := congrArg List.length hnil
  simp only [after_write, keyed.sort_by_key, List.length_insertionSort, List.length_nil, List.length_eq_zero_iff,
    List.append_eq_nil_iff] at hlength
  rw [hlength.1] at hlength
  exact h (by simpa [keyed.fresh] using hlength.2)

/-- Adding events of one run. -/
theorem Holds.write_run {s : InMemoryRunStore} {entries : Set StampedEvent} (h : Holds s entries)
    {group : String × List StampedEvent} (hgroup : ∀ event ∈ group.2, event.run_id = group.1) (hne : group.2 ≠ [])
    (hkeys : (group.2.map StampedEvent.key).Nodup) :
    Holds (write_run s group) (keyed.merged StampedEvent.key entries group.2) := by
  constructor
  · intro run_id
    rw [stored_events_write_run]
    split
    · rename_i hrun
      rw [hrun, of_run_merged_self hgroup]
      have hold := h.listed group.1
      exact keyed.lists_sort_by_key (keyed.nodup_append_fresh hold.nodup_keys (nodup_seqs hgroup hkeys))
        (keyed.mem_append_fresh hold.mem)
    · rename_i hrun
      rw [of_run_merged_of_ne hgroup hrun]
      exact h.listed run_id
  · intro run_id
    rw [stored_events_write_run]
    by_cases hrun : run_id = group.1
    · subst hrun
      rw [if_pos rfl, reconstruct.reconstruct_run, if_neg (by simpa using after_write_ne_nil hne)]
      exact Std.TreeMap.getElem?_insert_self
    · rw [if_neg hrun, ← h.recorded run_id]
      simp [in_memory.write_run, Std.TreeMap.getElem?_insert, Ne.symm hrun]

theorem Holds.lists {s : InMemoryRunStore} {entries : Set StampedEvent} (h : Holds s entries) (status : RunStatus)
    (record : RunRecord) :
    record ∈ (list_runs s ⟨none, some status, none, none, none, none⟩).runs ↔
      record.status = status ∧ s.runs[record.run_id]? = some record := by
  rw [list_runs, page_runs, List.mem_filter, List.mem_map, and_comm]
  refine and_congr (by simp [passes]) ?_
  constructor
  · rintro ⟨⟨run_id, other⟩, hmem, rfl⟩
    have hget := Std.TreeMap.mem_toList_iff_getElem?_eq_some.mp hmem
    have hid := reconstruct_run_id (h.recorded run_id ▸ hget)
    exact hid ▸ hget
  · intro hget
    exact ⟨(record.run_id, record), Std.TreeMap.mem_toList_iff_getElem?_eq_some.mpr hget, rfl⟩

theorem Holds.shows {s : InMemoryRunStore} {entries : Set StampedEvent} (h : Holds s entries) :
    Shows run_store (fun seq => (seq : Int)) s entries := by
  constructor
  · intro run_id
    refine ⟨stored_events s run_id, ?_, rfl, congrArg Except.ok (h.recorded run_id),
      congrArg Except.ok (get_node_results_eq s run_id), congrArg Except.ok (get_edge_results_eq s run_id),
      congrArg Except.ok (get_custom_events_eq s run_id), congrArg Except.ok (get_llm_invocations_eq s run_id)⟩
    exact (h.listed run_id).change_key fun a _ b _ hlt => Int.ofNat_lt.mpr hlt
  · intro status
    refine ⟨_, rfl, fun record => (h.lists status record).trans (and_congr_right fun _ => ?_)⟩
    exact ⟨congrArg Except.ok, Except.ok.inj⟩

theorem lawful (serde : Serde) : Lawful run_store serde (fun seq => (seq : Int)) Holds := by
  constructor
  · intro s entries batch h hkeys _
    have hstep : ∀ group ∈ group_by_run batch, ∀ s entries, Holds s entries →
        ∃ next, (Except.ok (write_run s group) : Except String InMemoryRunStore) = .ok next ∧
          Holds next (keyed.merged StampedEvent.key entries group.2) := by
      intro group hmem s entries h
      obtain ⟨_, hne⟩ := mem_group_by_run hmem
      obtain ⟨hevents, hgroup⟩ := group_of_batch hkeys hmem
      exact ⟨_, rfl, h.write_run (fun event hevent => (hevents event hevent).1) hne hgroup⟩
    obtain ⟨last, hlast, hholds⟩ := keyed.merged_foldlM hstep (nodup_group_by_run hkeys) h
    have hfold := List.foldlM_pure (m := Except String) (f := write_run) (b := s) (l := group_by_run batch)
    refine ⟨last, hfold.symm.trans hlast, ?_⟩
    rwa [keyed.merged_congr mem_flatMap_group_by_run] at hholds
  · exact fun s entries h => h.shows

end flow_engine.in_memory
