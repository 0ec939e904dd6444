import FlowEngine.Lib.Fallible
import FlowEngine.Lib.KeyedLog
import FlowEngine.Lib.Lines
import FlowEngine.Stores.File

namespace flow_engine

/-- `serde_json` gives an event back, from a line of JSON and from a JSON value. -/
structure Serde.RoundTrips (serde : Serde) (event : StampedEvent) : Prop where
  line : ∃ line, serde.to_string event = .ok line ∧ serde.from_str line = .ok event ∧ text.OneLine line ∧
    line.toList.all file_store.is_whitespace = false
  value : ∃ value, serde.to_value event = .ok value ∧ serde.from_value value = .ok event

/-- The events of one run. -/
def of_run (entries : Set StampedEvent) (run_id : String) : Set StampedEvent :=
  { event | event ∈ entries ∧ event.run_id = run_id }

/-- What a store that holds a set of events returns, given the order in which it reads a log. -/
structure Shows {State : Type} (store : RunStore State) (order : Nat → Int) (s : State) (entries : Set StampedEvent) :
    Prop where
  reads : ∀ run_id, ∃ log, keyed.Lists (fun event : StampedEvent => order event.seq) log (of_run entries run_id) ∧
    store.events s run_id = .ok log ∧
    store.get_run s run_id = .ok (reconstruct.reconstruct_run run_id log) ∧
    store.get_node_results s run_id = .ok (reconstruct.extract_node_results log) ∧
    store.get_edge_results s run_id = .ok (reconstruct.extract_edge_results log) ∧
    store.get_custom_events s run_id = .ok (reconstruct.extract_custom_events log) ∧
    store.get_llm_invocations s run_id = .ok (reconstruct.extract_llm_invocations log)
  lists : ∀ status, ∃ page, store.list_runs s ⟨none, some status, none, none, none, none⟩ = .ok page ∧
    ∀ record, record ∈ page.runs ↔ record.status = status ∧ store.get_run s record.run_id = .ok (some record)

/-- A store that keeps the first event of each key, whatever the batches. -/
structure Lawful {State : Type} (store : RunStore State) (serde : Serde) (order : Nat → Int)
    (Holds : State → Set StampedEvent → Prop) : Prop where
  write : ∀ s entries batch, Holds s entries → (batch.map StampedEvent.key).Nodup →
    (∀ event ∈ batch, serde.RoundTrips event) →
    ∃ next, store.write_batch s batch = .ok next ∧ Holds next (keyed.merged StampedEvent.key entries batch)
  shows : ∀ s entries, Holds s entries → Shows store order s entries

/-- The whole page of a list. -/
theorem page_runs {runs : List RunRecord} (flow_id : Option String) (status : Option RunStatus)
    (version_id parent_run_id : Option String) :
    ((⟨flow_id, status, version_id, parent_run_id, none, none⟩ : RunFilter).page runs).runs = runs := by
  simp [RunFilter.page]

/-- The groups of a batch hold its events. -/
theorem mem_group_by_run {events : List StampedEvent} {group : String × List StampedEvent}
    (h : group ∈ group_by_run events) :
    group.2 = events.filter (fun event => event.run_id = group.1) ∧ group.2 ≠ [] := by
  obtain ⟨run_id, hmem, rfl⟩ := List.mem_map.mp h
  obtain ⟨event, hevent, rfl⟩ := List.mem_map.mp (List.mem_dedup.mp hmem)
  exact ⟨rfl, List.ne_nil_of_mem (List.mem_filter.mpr ⟨hevent, by simp⟩)⟩

/-- What holds of a batch holds of its groups, and a group has events of one run. -/
theorem group_of_batch {events : List StampedEvent} {group : String × List StampedEvent}
    (hkeys : (events.map StampedEvent.key).Nodup) (hmem : group ∈ group_by_run events) :
    (∀ event ∈ group.2, event.run_id = group.1 ∧ event ∈ events) ∧ (group.2.map StampedEvent.key).Nodup := by
  obtain ⟨hevents, _⟩ := mem_group_by_run hmem
  rw [hevents]
  refine ⟨fun event hevent => ?_, hkeys.sublist (List.filter_sublist.map _)⟩
  obtain ⟨hin, hrun⟩ := List.mem_filter.mp hevent
  exact ⟨of_decide_eq_true hrun, hin⟩

theorem mem_flatMap_group_by_run {events : List StampedEvent} (event : StampedEvent) :
    event ∈ (group_by_run events).flatMap Prod.snd ↔ event ∈ events := by
  simp only [group_by_run, List.mem_flatMap, List.mem_map, List.mem_dedup,
    exists_exists_and_eq_and]
  constructor
  · rintro ⟨_, _, hmem⟩
    exact (List.mem_filter.mp hmem).1
  · intro hmem
    exact ⟨event, hmem, List.mem_filter.mpr ⟨hmem, by simp⟩⟩

theorem nodup_group_by_run {events : List StampedEvent} (hkeys : (events.map StampedEvent.key).Nodup) :
    (((group_by_run events).flatMap Prod.snd).map StampedEvent.key).Nodup := by
  have hnodup : ∀ ids : List String, ids.Nodup →
      (ids.flatMap fun run_id => (events.filter fun event => event.run_id = run_id).map StampedEvent.key).Nodup := by
    intro ids hids
    refine List.nodup_flatMap.mpr ⟨fun run_id _ => hkeys.sublist (List.filter_sublist.map _), ?_⟩
    refine hids.imp fun hne => ?_
    intro k hk hk'
    obtain ⟨a, ha, rfl⟩ := List.mem_map.mp hk
    obtain ⟨b, hb, hkey⟩ := List.mem_map.mp hk'
    have ha' := (List.mem_filter.mp ha).2
    have hb' := (List.mem_filter.mp hb).2
    simp only [decide_eq_true_eq] at ha' hb'
    refine hne (ha'.symm.trans (Eq.trans ?_ hb'))
    exact (congrArg Prod.fst hkey).symm
  have hgroups := hnodup _ (List.nodup_dedup (events.map StampedEvent.run_id))
  rw [group_by_run, List.flatMap_map, List.map_flatMap]
  exact hgroups

/-- The events of a run after the events of a run are merged in. -/
theorem of_run_merged_of_ne {entries : Set StampedEvent} {batch : List StampedEvent} {run_id other : String}
    (hbatch : ∀ event ∈ batch, event.run_id = run_id) (hne : other ≠ run_id) :
    of_run (keyed.merged StampedEvent.key entries batch) other = of_run entries other := by
  ext event
  constructor
  · rintro ⟨hold | ⟨hnew, _⟩, hrun⟩
    · exact ⟨hold, hrun⟩
    · exact absurd (hrun.symm.trans (hbatch event hnew)) hne
  · rintro ⟨hold, hrun⟩
    exact ⟨.inl hold, hrun⟩

theorem of_run_merged_self {entries : Set StampedEvent} {batch : List StampedEvent} {run_id : String}
    (hbatch : ∀ event ∈ batch, event.run_id = run_id) :
    of_run (keyed.merged StampedEvent.key entries batch) run_id =
      keyed.merged StampedEvent.seq (of_run entries run_id) batch := by
  ext event
  constructor
  · rintro ⟨hold | ⟨hnew, hfree⟩, hrun⟩
    · exact .inl ⟨hold, hrun⟩
    · refine .inr ⟨hnew, fun other hother hseq => ?_⟩
      exact hfree other hother.1 (Prod.ext (hother.2.trans hrun.symm) hseq)
  · rintro (⟨hold, hrun⟩ | ⟨hnew, hfree⟩)
    · exact ⟨.inl hold, hrun⟩
    · refine ⟨.inr ⟨hnew, fun other hother hkey => ?_⟩, hbatch event hnew⟩
      have hrun : other.run_id = run_id := (congrArg Prod.fst hkey).trans (hbatch event hnew)
      exact hfree other ⟨hother, hrun⟩ (congrArg Prod.snd hkey)

/-- Events of one run with distinct keys have distinct numbers. -/
theorem nodup_seqs {batch : List StampedEvent} {run_id : String} (hbatch : ∀ event ∈ batch, event.run_id = run_id)
    (hkeys : (batch.map StampedEvent.key).Nodup) : (batch.map StampedEvent.seq).Nodup := by
  refine (hkeys.of_map _).map_on fun a ha b hb hseq => ?_
  refine List.inj_on_of_nodup_map hkeys ha hb (Prod.ext ?_ hseq)
  exact (hbatch a ha).trans (hbatch b hb).symm

theorem apply_event_run_id (record : RunRecord) (event : StampedEvent) :
    (reconstruct.apply_event record event).run_id = record.run_id := by
  unfold reconstruct.apply_event
  split <;> rfl

/-- The record of a run carries its id. -/
theorem reconstruct_run_id {run_id : String} {events : List StampedEvent} {record : RunRecord}
    (h : reconstruct.reconstruct_run run_id events = some record) : record.run_id = run_id := by
  have hfold : ∀ start : RunRecord, (events.foldl reconstruct.apply_event start).run_id = start.run_id := by
    clear h
    induction events with
    | nil => exact fun _ => rfl
    | cons event rest ih => exact fun start => (ih _).trans (apply_event_run_id start event)
  unfold reconstruct.reconstruct_run at h
  split at h
  · cases h
  · cases h
    exact hfold _

/-- Every report of the store is computed from the log it returns. -/
structure ReadsLogs {State : Type} (store : RunStore State) : Prop where
  get_run : ∀ s run_id, store.get_run s run_id = (store.events s run_id).map (reconstruct.reconstruct_run run_id)
  get_node_results : ∀ s run_id,
    store.get_node_results s run_id = (store.events s run_id).map reconstruct.extract_node_results
  get_edge_results : ∀ s run_id,
    store.get_edge_results s run_id = (store.events s run_id).map reconstruct.extract_edge_results
  get_custom_events : ∀ s run_id,
    store.get_custom_events s run_id = (store.events s run_id).map reconstruct.extract_custom_events
  get_llm_invocations : ∀ s run_id,
    store.get_llm_invocations s run_id = (store.events s run_id).map reconstruct.extract_llm_invocations

section ReadsLogs

variable {State : Type} {store : RunStore State} (h : ReadsLogs store) {s : State}
include h

theorem ReadsLogs.record_run_id {run_id : String} {record : RunRecord}
    (hrecord : store.get_run s run_id = .ok (some record)) : record.run_id = run_id := by
  rw [h.get_run] at hrecord
  cases hread : store.events s run_id with
  | error e =>
    rw [hread] at hrecord
    cases hrecord
  | ok log =>
    rw [hread] at hrecord
    exact reconstruct_run_id (Except.ok.inj hrecord)

/-- Reading the record of every run in a list that names all runs with a record. -/
theorem ReadsLogs.listed {run_ids : List String} (hreads : ∀ run_id, ∃ log, store.events s run_id = .ok log)
    (hnamed : ∀ run_id record, store.get_run s run_id = .ok (some record) → run_id ∈ run_ids) :
    ∃ records, List.Forall₂ (fun run_id record => store.get_run s run_id = .ok record) run_ids records ∧
      run_ids.mapM (store.get_run s) = .ok records ∧
      ∀ record, record ∈ records.filterMap id ↔ store.get_run s record.run_id = .ok (some record) := by
  have hrecord : ∀ run_id ∈ run_ids, ∃ record, store.get_run s run_id = .ok record := by
    intro run_id _
    obtain ⟨log, hread⟩ := hreads run_id
    exact ⟨reconstruct.reconstruct_run run_id log, by rw [h.get_run, hread]; rfl⟩
  obtain ⟨records, hrecords⟩ := fallible.exists_forall₂ hrecord
  refine ⟨records, hrecords, fallible.mapM_eq_ok_iff.mpr hrecords, fun record => ?_⟩
  rw [List.mem_filterMap]
  constructor
  · rintro ⟨found, hfound, rfl⟩
    obtain ⟨run_id, _, hrun⟩ := fallible.mem_forall₂ hrecords hfound
    rw [h.record_run_id hrun]
    exact hrun
  · intro hrun
    obtain ⟨found, hfound, hsame⟩ := fallible.mem_forall₂ hrecords.flip (hnamed _ _ hrun)
    exact ⟨found, hfound, Except.ok.inj (hsame.symm.trans hrun)⟩

/-- The runs with a status among them. -/
theorem ReadsLogs.lists {run_ids : List String} (hreads : ∀ run_id, ∃ log, store.events s run_id = .ok log)
    (hnamed : ∀ run_id record, store.get_run s run_id = .ok (some record) → run_id ∈ run_ids) :
    ∃ records, run_ids.mapM (store.get_run s) = .ok records ∧ ∀ status record,
      record ∈ (records.filterMap id).filter (RunFilter.passes ⟨none, some status, none, none, none, none⟩) ↔
        record.status = status ∧ store.get_run s record.run_id = .ok (some record) := by
  obtain ⟨records, _, hread, hlisted⟩ := h.listed hreads hnamed
  refine ⟨records, hread, fun status record => ?_⟩
  rw [List.mem_filter, hlisted, and_comm]
  exact and_congr_left fun _ => by simp [RunFilter.passes]

/-- The records read from different runs are different. -/
theorem ReadsLogs.nodup_records {run_ids : List String} {records : List (Option RunRecord)} (hnodup : run_ids.Nodup)
    (hrecords : List.Forall₂ (fun run_id record => store.get_run s run_id = .ok record) run_ids records) :
    (records.filterMap id).Nodup := by
  have hsublist : ((records.filterMap id).map RunRecord.run_id).Sublist run_ids := by
    clear hnodup
    induction hrecords with
    | nil => exact .slnil
    | @cons run_id record run_ids records hrun _ ih =>
      cases record with
      | none => exact ih.cons _
      | some record =>
        have hcons : (some record :: records).filterMap id = record :: records.filterMap id := rfl
        rw [hcons, List.map_cons, h.record_run_id hrun]
        exact ih.cons_cons _
  exact (hnodup.sublist hsublist).of_map _

/-- A store that returns the log of every run shows what the logs say. -/
theorem ReadsLogs.shows {order : Nat → Int} {entries : Set StampedEvent}
    (hreads : ∀ run_id, ∃ log, store.events s run_id = .ok log ∧
      keyed.Lists (fun event : StampedEvent => order event.seq) log (of_run entries run_id))
    (hlists : ∀ status, ∃ page, store.list_runs s ⟨none, some status, none, none, none, none⟩ = .ok page ∧
      ∀ record, record ∈ page.runs ↔ record.status = status ∧ store.get_run s record.run_id = .ok (some record)) :
    Shows store order s entries := by
  refine ⟨fun run_id => ?_, hlists⟩
  obtain ⟨log, hread, hlog⟩ := hreads run_id
  refine ⟨log, hlog, hread, ?_, ?_, ?_, ?_, ?_⟩
  · rw [h.get_run, hread]
    rfl
  · rw [h.get_node_results, hread]
    rfl
  · rw [h.get_edge_results, hread]
    rfl
  · rw [h.get_custom_events, hread]
    rfl
  · rw [h.get_llm_invocations, hread]
    rfl

end ReadsLogs

end flow_engine
