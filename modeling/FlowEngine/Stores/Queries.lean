import FlowEngine.Stores.Agreement
import Mathlib.Data.Set.Card

namespace flow_engine

/-- The record of a run of a set of events, read in an order. -/
def RecordIn (order : Nat → Int) (entries : Set StampedEvent) (record : RunRecord) : Prop :=
  ∃ log, keyed.Lists (fun event : StampedEvent => order event.seq) log (of_run entries record.run_id) ∧
    reconstruct.reconstruct_run record.run_id log = some record

/-- The records of the runs of a set of events, read in the order of their numbers. -/
def runs_of (entries : Set StampedEvent) : Set RunRecord := { record | RecordIn (fun seq => (seq : Int)) entries record }

/-- The record satisfies the flow and the status of the filter. -/
structure SatisfiesFirst (filter : RunFilter) (record : RunRecord) : Prop where
  flow_id : ∀ flow_id, filter.flow_id = some flow_id → record.flow_id = flow_id
  status : ∀ status, filter.status = some status → record.status = status

/-- The record satisfies every set field of the filter. -/
structure Satisfies (filter : RunFilter) (record : RunRecord) : Prop extends SatisfiesFirst filter record where
  version_id : ∀ version_id, filter.version_id = some version_id → record.version_id = version_id
  parent_run_id : ∀ parent_run_id, filter.parent_run_id = some parent_run_id → record.parent_run_id = some parent_run_id

/-- The filter with a limit and an offset. -/
def RunFilter.paged (filter : RunFilter) (limit offset : Option Nat) : RunFilter := { filter with limit, offset }

/-- The entry of a version in a map of counts: there is none for a version without runs. -/
def tally (count : Nat) : Option Nat := if count = 0 then none else some count

/-- The queries of a store that holds a set of events give what the records of its runs say. -/
structure QueriesExact {State : Type} (store : RunStore State) (s : State) (entries : Set StampedEvent)
    (filter : RunFilter) (flow_id : String) : Prop where
  total : ∀ limit offset, ∃ page, store.list_runs s (filter.paged limit offset) = .ok page ∧
    page.total = Set.ncard { record | record ∈ runs_of entries ∧ Satisfies filter record }
  runs : ∃ page, store.list_runs s (filter.paged none none) = .ok page ∧
    ∀ record, record ∈ page.runs ↔ record ∈ runs_of entries ∧ Satisfies filter record
  counts : ∃ counts, store.count_runs_by_version s flow_id = .ok counts ∧ ∀ version_id, counts[version_id]? =
    tally (Set.ncard { record | record ∈ runs_of entries ∧ record.flow_id = flow_id ∧ record.version_id = version_id })

theorem passes_iff {filter : RunFilter} {record : RunRecord} : filter.passes record = true ↔ Satisfies filter record := by
  simp only [RunFilter.passes, Bool.and_eq_true, Option.all_eq_true, decide_eq_true_eq]
  constructor
  · rintro ⟨⟨⟨hflow, hstatus⟩, hversion⟩, hparent⟩
    exact ⟨⟨hflow, hstatus⟩, hversion, hparent⟩
  · rintro ⟨⟨hflow, hstatus⟩, hversion, hparent⟩
    exact ⟨⟨⟨hflow, hstatus⟩, hversion⟩, hparent⟩

theorem in_memory_passes_iff {filter : RunFilter} {record : RunRecord} :
    in_memory.passes filter record = true ↔ SatisfiesFirst filter record := by
  simp only [in_memory.passes, Bool.and_eq_true, Option.all_eq_true, decide_eq_true_eq]
  constructor
  · rintro ⟨hflow, hstatus⟩
    exact ⟨hflow, hstatus⟩
  · rintro ⟨hflow, hstatus⟩
    exact ⟨hflow, hstatus⟩

/-- A backend's list of runs is a page of the records it passes, one for each of its runs. -/
structure ListsRuns {State : Type} (store : RunStore State) (s : State) (passes : RunFilter → RunRecord → Bool)
    (records : Set RunRecord) (runs : List RunRecord) : Prop where
  nodup : runs.Nodup
  mem : ∀ record, record ∈ runs ↔ record ∈ records
  list_runs : ∀ filter, store.list_runs s filter = .ok (filter.page (runs.filter (passes filter)))

theorem ListsRuns.finite {State : Type} {store : RunStore State} {s : State} {passes : RunFilter → RunRecord → Bool}
    {records : Set RunRecord} {runs : List RunRecord} (h : ListsRuns store s passes records runs) : records.Finite :=
  runs.finite_toSet.subset fun record hrecord => (h.mem record).mpr hrecord

/-- The number of records in a list that has none twice. -/
theorem length_eq_ncard {α : Type*} {l : List α} {s : Set α} (hnodup : l.Nodup) (hmem : ∀ a, a ∈ l ↔ a ∈ s) :
    l.length = s.ncard := by
  classical
  have hset : s = l.toFinset := by
    ext a
    simp [hmem]
  rw [hset, Set.ncard_coe_finset, List.toFinset_card_of_nodup hnodup]

section Records

variable {State : Type} {store : RunStore State} {s : State} {order : Nat → Int} {entries : Set StampedEvent}

/-- The record of a run that a store reads is that of its events. -/
theorem Shows.record_iff (h : Shows store order s entries) (record : RunRecord) :
    store.get_run s record.run_id = .ok (some record) ↔ RecordIn order entries record := by
  obtain ⟨log, hlists, _, hrun, _⟩ := h.reads record.run_id
  rw [hrun]
  constructor
  · exact fun heq => ⟨log, hlists, Except.ok.inj heq⟩
  · rintro ⟨other, hother, hrecord⟩
    rw [hlists.unique hother, hrecord]

/-- A run has one record. -/
theorem RecordIn.unique {record other : RunRecord} (h : RecordIn order entries record) (hother : RecordIn order entries other)
    (hrun : record.run_id = other.run_id) : record = other := by
  obtain ⟨log, hlists, hrecord⟩ := h
  obtain ⟨other_log, hother_lists, hother_record⟩ := hother
  rw [← hrun] at hother_lists hother_record
  rw [hlists.unique hother_lists, hother_record] at hrecord
  exact (Option.some.inj hrecord).symm

/-- A run that has a record in one order has one in the order of the store. -/
theorem Shows.has_record (h : Shows store order s entries) {other_order : Nat → Int} {record : RunRecord}
    (hrecord : RecordIn other_order entries record) : ∃ shown, store.get_run s record.run_id = .ok (some shown) := by
  obtain ⟨other_log, hother, hrecord⟩ := hrecord
  obtain ⟨log, hlists, _, hrun, _⟩ := h.reads record.run_id
  rw [hrun]
  cases log with
  | cons event rest => exact ⟨_, rfl⟩
  | nil =>
    -- The run has no events in either order.
    have hnone : other_log = [] :=
      List.eq_nil_iff_forall_not_mem.mpr fun event hmem => List.not_mem_nil ((hlists.mem event).mpr ((hother.mem event).mp hmem))
    rw [hnone] at hrecord
    cases hrecord

/-- There are as many runs as the store names at most. -/
theorem Shows.finite_records (h : Shows store order s entries) {run_ids : List String}
    (hnamed : ∀ run_id record, store.get_run s run_id = .ok (some record) → run_id ∈ run_ids) :
    (runs_of entries).Finite := by
  have hmaps : Set.MapsTo RunRecord.run_id (runs_of entries) { run_id | run_id ∈ run_ids } := by
    intro record hrecord
    obtain ⟨shown, hshown⟩ := h.has_record hrecord
    exact hnamed _ _ hshown
  have hinj : Set.InjOn RunRecord.run_id (runs_of entries) :=
    fun record hrecord other hother => RecordIn.unique hrecord hother
  exact Set.Finite.of_injOn hmaps hinj run_ids.finite_toSet

/-- A store that lists the runs by reading the record of each lists those it passes. -/
theorem Shows.lists_runs (h : Shows store order s entries) (hreads : ReadsLogs store) {run_ids : List String}
    (hnodup : run_ids.Nodup)
    (hnamed : ∀ run_id record, store.get_run s run_id = .ok (some record) → run_id ∈ run_ids)
    (hlist : ∀ filter, store.list_runs s filter = (run_ids.mapM (store.get_run s)).map fun records =>
      filter.page ((records.filterMap id).filter filter.passes)) :
    ∃ records, run_ids.mapM (store.get_run s) = .ok records ∧
      ListsRuns store s RunFilter.passes { record | RecordIn order entries record } (records.filterMap id) := by
  have hread : ∀ run_id, ∃ log, store.events s run_id = .ok log := by
    intro run_id
    obtain ⟨log, _, hevents, _⟩ := h.reads run_id
    exact ⟨log, hevents⟩
  obtain ⟨records, hrecords, hmap, hlisted⟩ := hreads.listed hread hnamed
  refine ⟨records, hmap, hreads.nodup_records hnodup hrecords, ?_, ?_⟩
  · exact fun record => (hlisted record).trans (h.record_iff record)
  · intro filter
    rw [hlist, hmap]
    rfl

end Records

theorem in_memory.Holds.lists_runs {s : in_memory.InMemoryRunStore} {entries : Set StampedEvent}
    (h : in_memory.Holds s entries) :
    ListsRuns in_memory.run_store s in_memory.passes (runs_of entries) (s.runs.toList.map Prod.snd) := by
  have hid : ∀ pair ∈ s.runs.toList, pair.2.run_id = pair.1 := by
    intro pair hmem
    have hget := Std.TreeMap.mem_toList_iff_getElem?_eq_some.mp hmem
    exact reconstruct_run_id (h.recorded pair.1 ▸ hget)
  constructor
  · have hkeys : s.runs.toList.Pairwise fun a b => a.1 ≠ b.1 :=
      Std.TreeMap.distinct_keys_toList.imp fun hne heq => hne (by rw [heq]; exact Std.ReflCmp.compare_self)
    rw [List.Nodup, List.pairwise_map]
    refine hkeys.imp_of_mem fun ha hb hne heq => hne ?_
    rw [← hid _ ha, ← hid _ hb, heq]
  · intro record
    rw [runs_of, Set.mem_ofPred_eq, ← h.shows.record_iff, List.mem_map]
    change _ ↔ Except.ok s.runs[record.run_id]? = Except.ok (some record)
    constructor
    · rintro ⟨pair, hmem, rfl⟩
      rw [hid pair hmem]
      exact congrArg Except.ok (Std.TreeMap.mem_toList_iff_getElem?_eq_some.mp hmem)
    · intro hget
      exact ⟨(record.run_id, record), Std.TreeMap.mem_toList_iff_getElem?_eq_some.mpr (Except.ok.inj hget), rfl⟩
  · exact fun _ => rfl

theorem file_store.Holds.lists_runs {serde : Serde} {s : file_store.FileRunStore} {entries : Set StampedEvent}
    (h : file_store.Holds serde s entries) :
    ∃ records, s.runs.keys.mapM (file_store.reconstruct_run serde s) = .ok records ∧
      ListsRuns (file_store.run_store serde) s RunFilter.passes (runs_of entries) (records.filterMap id) :=
  h.shows.lists_runs (file_store.reads_logs serde) Std.TreeMap.nodup_keys
    (fun _ _ => file_store.mem_keys_of_record) fun _ => rfl

theorem seaorm.Holds.lists_runs {serde : Serde} {s : seaorm.SeaOrmRunStore} {entries : Set StampedEvent}
    (h : seaorm.Holds serde s entries) :
    ∃ runs, ListsRuns (seaorm.run_store serde) s RunFilter.passes { record | RecordIn seaorm.as_i64 entries record } runs := by
  obtain ⟨records, _, hlists⟩ := h.shows.lists_runs (seaorm.reads_logs serde) (List.nodup_dedup _)
    (fun _ _ => seaorm.mem_run_ids_of_record) fun _ => rfl
  exact ⟨_, hlists⟩

section Exact

variable {State : Type} {store : RunStore State} {s : State} {passes : RunFilter → RunRecord → Bool}
  {records : Set RunRecord} {runs : List RunRecord}

/-- The list of runs is exact if it passes the right records and lists no others. -/
theorem ListsRuns.exact_iff (h : ListsRuns store s passes records runs) (entries : Set StampedEvent) (filter : RunFilter)
    (hpaged : ∀ limit offset record, passes (filter.paged limit offset) record = passes filter record) :
    ((∀ limit offset, ∃ page, store.list_runs s (filter.paged limit offset) = .ok page ∧
        page.total = Set.ncard { record | record ∈ runs_of entries ∧ Satisfies filter record }) ∧
      ∃ page, store.list_runs s (filter.paged none none) = .ok page ∧
        ∀ record, record ∈ page.runs ↔ record ∈ runs_of entries ∧ Satisfies filter record) ↔
      ∀ record, record ∈ records ∧ passes filter record = true ↔ record ∈ runs_of entries ∧ Satisfies filter record := by
  have hpassed : ∀ limit offset, runs.filter (passes (filter.paged limit offset)) = runs.filter (passes filter) := by
    intro limit offset
    congr 1
    funext record
    exact hpaged limit offset record
  have hmem : ∀ record, record ∈ runs.filter (passes filter) ↔ record ∈ records ∧ passes filter record = true := by
    intro record
    rw [List.mem_filter, h.mem]
  constructor
  · rintro ⟨_, page, hpage, hruns⟩ record
    rw [h.list_runs, hpassed] at hpage
    cases hpage
    rw [← hmem, ← hruns]
    simp [RunFilter.page, RunFilter.paged]
  · intro hexact
    constructor
    · intro limit offset
      refine ⟨_, h.list_runs _, ?_⟩
      rw [hpassed]
      exact length_eq_ncard (h.nodup.filter _) fun record => (hmem record).trans (hexact record)
    · refine ⟨_, h.list_runs _, fun record => ?_⟩
      rw [hpassed, ← hexact, ← hmem]
      simp [RunFilter.page, RunFilter.paged]

theorem tally_getD (n : Nat) : (tally n).getD 0 = n := by
  unfold tally
  split
  · rename_i hzero
    exact hzero.symm
  · rfl

theorem tally_ne_zero {n : Nat} (h : n ≠ 0) : tally n = some n := if_neg h

/-- Counting a list of runs on top of some counts. -/
theorem foldl_count_version (flow_id : String) {counts : Std.TreeMap String Nat} {before : String → Nat}
    (hbefore : ∀ version_id, counts[version_id]? = tally (before version_id)) (version_id : String) :
    (runs.foldl (file_store.count_version flow_id) counts)[version_id]? =
      tally (before version_id + runs.countP fun record => record.flow_id = flow_id ∧ record.version_id = version_id) := by
  induction runs generalizing counts before with
  | nil => exact hbefore version_id
  | cons record rest ih =>
    have hstep : ∀ other, (file_store.count_version flow_id counts record)[other]? =
        tally (before other + if record.flow_id = flow_id ∧ record.version_id = other then 1 else 0) := by
      intro other
      unfold file_store.count_version
      by_cases hflow : record.flow_id = flow_id
      · rw [if_pos hflow, Std.TreeMap.getElem?_insert, Std.TreeMap.getD_eq_getD_getElem?, hbefore, tally_getD]
        by_cases hversion : record.version_id = other
        · simp [hflow, hversion, tally]
        · simp [hflow, hversion, hbefore]
      · simp [hflow, hbefore]
    rw [List.foldl_cons, ih hstep, List.countP_cons]
    congr 1
    by_cases hcounted : record.flow_id = flow_id ∧ record.version_id = version_id
    · simp only [hcounted, and_self, if_true, decide_true]
      omega
    · simp [hcounted]

/-- How many runs a list of all of them has of a version. -/
theorem countP_eq_ncard (hnodup : runs.Nodup) (hmem : ∀ record, record ∈ runs ↔ record ∈ records)
    (flow_id version_id : String) :
    (runs.countP fun record => record.flow_id = flow_id ∧ record.version_id = version_id) =
      Set.ncard { record | record ∈ records ∧ record.flow_id = flow_id ∧ record.version_id = version_id } := by
  rw [List.countP_eq_length_filter]
  refine length_eq_ncard (hnodup.filter _) fun record => ?_
  rw [List.mem_filter, hmem, decide_eq_true_eq]
  exact Iff.rfl

/-- Counting all runs of the list is exact. -/
theorem counts_exact (hnodup : runs.Nodup) (hmem : ∀ record, record ∈ runs ↔ record ∈ records)
    (flow_id version_id : String) : (runs.foldl (file_store.count_version flow_id) ∅)[version_id]? =
      tally (Set.ncard { record | record ∈ records ∧ record.flow_id = flow_id ∧ record.version_id = version_id }) := by
  have hempty : ∀ version_id : String, (∅ : Std.TreeMap String Nat)[version_id]? = tally 0 := by
    intro version_id
    simp [tally]
  rw [foldl_count_version flow_id hempty, Nat.zero_add, countP_eq_ncard hnodup hmem]

/-- Counting nothing is exact if the flow has no runs. -/
theorem no_counts_exact_iff (hfinite : records.Finite) (flow_id : String) :
    (∀ version_id : String, (∅ : Std.TreeMap String Nat)[version_id]? =
      tally (Set.ncard { record | record ∈ records ∧ record.flow_id = flow_id ∧ record.version_id = version_id })) ↔
      ∀ record ∈ records, record.flow_id ≠ flow_id := by
  have hcounted : ∀ version_id : String,
      { record | record ∈ records ∧ record.flow_id = flow_id ∧ record.version_id = version_id }.Finite :=
    fun _ => hfinite.subset fun _ hmem => hmem.1
  constructor
  · intro hnone record hrecord hflow
    have hmem : record ∈ { other | other ∈ records ∧ other.flow_id = flow_id ∧ other.version_id = record.version_id } :=
      ⟨hrecord, hflow, rfl⟩
    have hcount := Set.ncard_ne_zero_of_mem hmem (hcounted record.version_id)
    have hsome := hnone record.version_id
    rw [tally_ne_zero hcount] at hsome
    simp at hsome
  · intro hother version_id
    have hempty : { record | record ∈ records ∧ record.flow_id = flow_id ∧ record.version_id = version_id } = ∅ :=
      Set.eq_empty_of_forall_notMem fun record hmem => hother record hmem.1 hmem.2.1
    rw [hempty, Set.ncard_empty]
    simp [tally]

end Exact

/-- When the queries of all backends are exact: the flow has no runs, since two backends count
none; every run that satisfies the flow and the status of the filter satisfies the filter, since
the in-memory backend looks at no more; and a record that satisfies the filter is a run's in
the order of the stored numbers, by which the database reads, if it is in the order of the numbers. -/
structure QueriesCoincide (entries : Set StampedEvent) (filter : RunFilter) (flow_id : String) : Prop where
  no_runs : ∀ record ∈ runs_of entries, record.flow_id ≠ flow_id
  first_decides : ∀ record ∈ runs_of entries, SatisfiesFirst filter record → Satisfies filter record
  same_order : ∀ record, Satisfies filter record → (RecordIn seaorm.as_i64 entries record ↔ record ∈ runs_of entries)

section Backends

variable {serde : Serde} {entries : Set StampedEvent} (filter : RunFilter) (flow_id : String)

/-- The queries of the in-memory backend look at the flow and the status alone, and count nothing. -/
theorem in_memory.Holds.queries_iff {s : in_memory.InMemoryRunStore} (h : in_memory.Holds s entries) :
    QueriesExact in_memory.run_store s entries filter flow_id ↔
      (∀ record ∈ runs_of entries, record.flow_id ≠ flow_id) ∧
        ∀ record ∈ runs_of entries, SatisfiesFirst filter record → Satisfies filter record := by
  have hlists := h.lists_runs
  have hexact := hlists.exact_iff entries filter fun _ _ _ => rfl
  simp only [in_memory_passes_iff] at hexact
  have hcounts := no_counts_exact_iff hlists.finite flow_id
  constructor
  · rintro ⟨htotal, hruns, counts, hcount, htally⟩
    cases hcount
    refine ⟨hcounts.mp htally, fun record hrecord hfirst => ?_⟩
    exact ((hexact.mp ⟨htotal, hruns⟩ record).mp ⟨hrecord, hfirst⟩).2
  · rintro ⟨hother, hfirst⟩
    obtain ⟨htotal, hruns⟩ := hexact.mpr fun record =>
      ⟨fun hpassed => ⟨hpassed.1, hfirst record hpassed.1 hpassed.2⟩, fun hsatisfied => ⟨hsatisfied.1, hsatisfied.2.1⟩⟩
    exact ⟨htotal, hruns, ∅, rfl, hcounts.mpr hother⟩

/-- The queries of the file backend are exact. -/
theorem file_store.Holds.queries {s : file_store.FileRunStore} (h : file_store.Holds serde s entries) :
    QueriesExact (file_store.run_store serde) s entries filter flow_id := by
  obtain ⟨records, hread, hlists⟩ := h.lists_runs
  have hexact := (hlists.exact_iff entries filter fun _ _ _ => rfl).mpr fun record => by rw [passes_iff]
  refine ⟨hexact.1, hexact.2, _, ?_, counts_exact hlists.nodup hlists.mem flow_id⟩
  exact congrArg (Except.map fun records => (records.filterMap id).foldl (file_store.count_version flow_id) ∅) hread

/-- The queries of the database read the events in the order of the stored numbers, and count nothing. -/
theorem seaorm.Holds.queries_iff {s : seaorm.SeaOrmRunStore} (h : seaorm.Holds serde s entries) :
    QueriesExact (seaorm.run_store serde) s entries filter flow_id ↔
      (∀ record ∈ runs_of entries, record.flow_id ≠ flow_id) ∧
        ∀ record, Satisfies filter record → (RecordIn seaorm.as_i64 entries record ↔ record ∈ runs_of entries) := by
  obtain ⟨runs, hlists⟩ := h.lists_runs
  have hexact := hlists.exact_iff entries filter fun _ _ _ => rfl
  simp only [passes_iff] at hexact
  have hcounts := no_counts_exact_iff (h.shows.finite_records fun _ _ => seaorm.mem_run_ids_of_record) flow_id
  constructor
  · rintro ⟨htotal, hruns, counts, hcount, htally⟩
    cases hcount
    refine ⟨hcounts.mp htally, fun record hsatisfied => ?_⟩
    have hsame := hexact.mp ⟨htotal, hruns⟩ record
    exact ⟨fun hrecord => (hsame.mp ⟨hrecord, hsatisfied⟩).1, fun hrecord => (hsame.mpr ⟨hrecord, hsatisfied⟩).1⟩
  · rintro ⟨hother, hsame⟩
    obtain ⟨htotal, hruns⟩ := hexact.mpr fun record => and_congr_left fun hsatisfied => hsame record hsatisfied
    exact ⟨htotal, hruns, ∅, rfl, hcounts.mpr hother⟩

end Backends

/-- Stored numbers below 2^63 are read in their order. -/
theorem recordIn_as_i64_iff {entries : Set StampedEvent} (hseq : ∀ event ∈ entries, event.seq < 2 ^ 63) (record : RunRecord) :
    RecordIn seaorm.as_i64 entries record ↔ record ∈ runs_of entries := by
  have hsame : ∀ run_id, ∀ event ∈ of_run entries run_id, seaorm.as_i64 event.seq = event.seq :=
    fun _ event hevent => Backend.database.order_eq (hseq event hevent.1)
  constructor
  · rintro ⟨log, hlists, hrecord⟩
    refine ⟨log, hlists.change_key fun a ha b hb hlt => ?_, hrecord⟩
    rwa [hsame _ a ha, hsame _ b hb] at hlt
  · rintro ⟨log, hlists, hrecord⟩
    refine ⟨log, hlists.change_key fun a ha b hb hlt => ?_, hrecord⟩
    rwa [hsame _ a ha, hsame _ b hb]

/-- The queries of backends that hold the same events are exact if they coincide. -/
theorem queries_iff_of_holds {serde : Serde} {entries : Set StampedEvent} {s : (backend : Backend) → backend.State}
    (hholds : ∀ backend : Backend, backend.Holds serde (s backend) entries) (filter : RunFilter) (flow_id : String) :
    (∀ backend, QueriesExact (backend.run_store serde) (s backend) entries filter flow_id) ↔
      QueriesCoincide entries filter flow_id := by
  have hin_memory := in_memory.Holds.queries_iff filter flow_id (hholds .in_memory)
  have hfile := file_store.Holds.queries filter flow_id (hholds .file)
  have hdatabase := seaorm.Holds.queries_iff filter flow_id (hholds .database)
  constructor
  · intro hexact
    obtain ⟨hno_runs, hfirst⟩ := hin_memory.mp (hexact .in_memory)
    obtain ⟨_, hsame⟩ := hdatabase.mp (hexact .database)
    exact ⟨hno_runs, hfirst, hsame⟩
  · intro hcoincide backend
    cases backend with
    | in_memory => exact hin_memory.mpr ⟨hcoincide.no_runs, hcoincide.first_decides⟩
    | file => exact hfile
    | database => exact hdatabase.mpr ⟨hcoincide.no_runs, hcoincide.same_order⟩

/-- Backends that were given the same events answer the queries about runs as the records of
the runs say, whatever the batches, exactly if the flow has no runs and the filter and the
order of the events are such that the differences between the backends do not show. -/
theorem queries_agree_iff {serde : Serde} {entries : Set StampedEvent} {batches : Backend → List (List StampedEvent)}
    (hdistinct : keyed.Distinct StampedEvent.key entries) (htrips : ∀ event ∈ entries, serde.RoundTrips event)
    (hbatches : ∀ backend, ∀ batch ∈ batches backend, batch.Nodup)
    (hdelivered : ∀ backend, delivered (batches backend) = entries) {s : (backend : Backend) → backend.State}
    (hs : ∀ backend : Backend, deliver (backend.run_store serde) backend.new (batches backend) = .ok (s backend))
    (filter : RunFilter) (flow_id : String) :
    (∀ backend, QueriesExact (backend.run_store serde) (s backend) entries filter flow_id) ↔
      QueriesCoincide entries filter flow_id := by
  refine queries_iff_of_holds (fun backend => ?_) filter flow_id
  obtain ⟨state, hstate, hholds⟩ := backend.deliver (hdelivered backend ▸ hdistinct) (hbatches backend) (hdelivered backend ▸ htrips)
  have hsame : state = s backend := Except.ok.inj (hstate.symm.trans (hs backend))
  rw [← hsame, ← hdelivered backend]
  exact hholds

/-- The events of the sample batches. -/
def sample_entries : Set StampedEvent := { event | event = sample_started ∨ event = sample_completed }

theorem sample_entries_distinct : keyed.Distinct StampedEvent.key sample_entries := by
  rintro a (rfl | rfl) b (rfl | rfl) hkey
  · rfl
  · exact absurd (congrArg Prod.snd hkey) (by decide)
  · exact absurd (congrArg Prod.snd hkey) (by decide)
  · rfl

theorem sample_entries_round_trip : ∀ event ∈ sample_entries, sample_serde.RoundTrips event := by
  rintro event (rfl | rfl)
  · exact sample_started_round_trips
  · exact sample_completed_round_trips

theorem sample_entries_run_id : ∀ event ∈ sample_entries, event.run_id = "run" := by
  rintro event (rfl | rfl)
  · rfl
  · rfl

/-- What each backend has after the sample batches. -/
theorem sample_states : ∃ s : (backend : Backend) → backend.State, ∀ backend : Backend,
    deliver (backend.run_store sample_serde) backend.new (sample_batches backend) = .ok (s backend) ∧
      backend.Holds sample_serde (s backend) sample_entries := by
  have hstate : ∀ backend : Backend, ∃ s,
      deliver (backend.run_store sample_serde) backend.new (sample_batches backend) = .ok s ∧
        backend.Holds sample_serde s sample_entries := by
    intro backend
    have hdelivered : delivered (sample_batches backend) = sample_entries := sample_delivered backend
    have hdeliver := backend.deliver (hdelivered ▸ sample_entries_distinct) (sample_batches_nodup backend)
      (hdelivered ▸ sample_entries_round_trip)
    rwa [hdelivered] at hdeliver
  choose s hs using hstate
  exact ⟨s, hs⟩

/-- The record of the run of the sample events. -/
theorem sample_record_iff (record : RunRecord) : record ∈ runs_of sample_entries ↔
    reconstruct.reconstruct_run "run" [sample_started, sample_completed] = some record := by
  have hlists : keyed.Lists (fun event : StampedEvent => (event.seq : Int)) [sample_started, sample_completed]
      (of_run sample_entries "run") := by
    constructor
    · simp only [List.pairwise_cons, List.mem_singleton, forall_eq]
      exact ⟨by decide, by simp, .nil⟩
    · intro event
      constructor
      · intro hmem
        have hin : event ∈ sample_entries := by simpa [sample_entries] using hmem
        exact ⟨hin, sample_entries_run_id event hin⟩
      · rintro ⟨rfl | rfl, _⟩
        · exact List.mem_cons_self
        · exact List.mem_cons_of_mem _ List.mem_cons_self
  constructor
  · rintro ⟨log, hlog, hrecord⟩
    cases hcase : log with
    | nil =>
      rw [hcase] at hrecord
      cases hrecord
    | cons event rest =>
      have hmem := (hlog.mem event).mp (hcase ▸ List.mem_cons_self)
      have hrun : record.run_id = "run" := hmem.2.symm.trans (sample_entries_run_id event hmem.1)
      rw [hrun] at hlog hrecord
      rwa [hlog.unique hlists] at hrecord
  · intro hrecord
    have hrun := reconstruct_run_id hrecord
    exact ⟨_, hrun ▸ hlists, hrun ▸ hrecord⟩

theorem queries_agree_for_other_flow : ∃ s : (backend : Backend) → backend.State,
    (∀ backend : Backend, deliver (backend.run_store sample_serde) backend.new (sample_batches backend) = .ok (s backend)) ∧
    ∀ backend, QueriesExact (backend.run_store sample_serde) (s backend) sample_entries
      ⟨some "flow", some .Completed, none, none, none, none⟩ "other" := by
  obtain ⟨s, hs⟩ := sample_states
  refine ⟨s, fun backend => (hs backend).1, ?_⟩
  refine (queries_agree_iff sample_entries_distinct sample_entries_round_trip sample_batches_nodup sample_delivered
    (fun backend => (hs backend).1) _ _).mpr ⟨?_, ?_, ?_⟩
  · intro record hrecord
    cases (sample_record_iff record).mp hrecord
    decide
  · rintro record _ hfirst
    refine ⟨hfirst, ?_, ?_⟩
    · rintro _ ⟨⟩
    · rintro _ ⟨⟩
  · refine fun record _ => recordIn_as_i64_iff ?_ record
    rintro event (rfl | rfl) <;> decide

/-- A run of version 1 of a flow has completed. Two backends do not count it, and one of them
lists it among the runs of version 2. -/
theorem queries_differ : ∃ s : (backend : Backend) → backend.State,
    (∀ backend : Backend, deliver (backend.run_store sample_serde) backend.new (sample_batches backend) = .ok (s backend)) ∧
    (¬ ∀ backend, QueriesExact (backend.run_store sample_serde) (s backend) sample_entries
      ⟨none, none, none, none, none, none⟩ "flow") ∧
    ¬ ∀ backend, QueriesExact (backend.run_store sample_serde) (s backend) sample_entries
      ⟨none, none, some "v2", none, none, none⟩ "other" := by
  obtain ⟨s, hs⟩ := sample_states
  have hholds := fun backend => (hs backend).2
  refine ⟨s, fun backend => (hs backend).1, ?_, ?_⟩
  · intro hexact
    have hcoincide := (queries_iff_of_holds hholds _ _).mp hexact
    exact hcoincide.no_runs _ ((sample_record_iff _).mpr rfl) rfl
  · intro hexact
    have hcoincide := (queries_iff_of_holds hholds _ _).mp hexact
    have hversion := (hcoincide.first_decides _ ((sample_record_iff _).mpr rfl) ⟨by simp, by simp⟩).version_id _ rfl
    exact absurd hversion (by decide)

end flow_engine
