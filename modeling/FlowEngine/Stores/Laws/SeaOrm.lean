import FlowEngine.Stores.Contents
import FlowEngine.Stores.SeaOrm
import Mathlib.Algebra.Ring.Int.Defs

namespace flow_engine.seaorm

variable {serde : Serde} {s : SeaOrmRunStore} {entries : Set StampedEvent}

theorem as_i64_eq (n : Nat) (h : n < 2 ^ 64) : as_i64 n = if n < 2 ^ 63 then (n : Int) else n - 2 ^ 64 := by
  unfold as_i64
  split
  · rw [Int.bmod_eq_emod_of_lt] <;> omega
  · rw [Int.bmod_neg] <;> omega

theorem as_i64_injective {m n : Nat} (hm : m < 2 ^ 64) (hn : n < 2 ^ 64) (h : as_i64 m = as_i64 n) : m = n := by
  rw [as_i64_eq m hm, as_i64_eq n hn] at h
  split at h <;> split at h <;> omega

/-- A row that stands for an event. -/
structure RowOf (serde : Serde) (row : RunEvent) (event : StampedEvent) : Prop where
  run_id : row.run_id = event.run_id
  seq : row.seq = as_i64 event.seq
  payload : serde.from_value row.payload = .ok event

/-- What the table is unique on. -/
def row_key (row : RunEvent) : String × Int := (row.run_id, row.seq)

/-- The store holds a set of events: it has one row for each. -/
structure Holds (serde : Serde) (s : SeaOrmRunStore) (entries : Set StampedEvent) : Prop where
  rows : ∀ row ∈ s.run_event, ∃ event ∈ entries, RowOf serde row event
  events : ∀ event ∈ entries, ∃ row ∈ s.run_event, RowOf serde row event
  unique : (s.run_event.map row_key).Nodup

theorem holds_new (serde : Serde) : Holds serde new ∅ :=
  ⟨fun _ hmem => absurd hmem List.not_mem_nil, fun _ hmem => hmem.elim, .nil⟩

theorem RowOf.key_eq_iff {row : RunEvent} {event other : StampedEvent} (h : RowOf serde row event) :
    row_key row = (other.run_id, as_i64 other.seq) ↔ event.key = other.key := by
  rw [row_key, h.run_id, h.seq, StampedEvent.key, StampedEvent.key, Prod.mk.injEq, Prod.mk.injEq]
  refine and_congr_right fun _ => ⟨as_i64_injective event.in_u64 other.in_u64, fun heq => heq ▸ rfl⟩

/-- Where a row has the number of the event in its run, the insert is skipped. -/
theorem Holds.insert_taken (h : Holds serde s entries) {event : StampedEvent} (htrips : serde.RoundTrips event)
    {row : RunEvent} (hmem : row ∈ s.run_event) (hkey : row_key row = (event.run_id, as_i64 event.seq)) :
    insert serde s event = .ok s ∧ keyed.merged StampedEvent.key entries [event] = entries := by
  obtain ⟨payload, hto, _⟩ := htrips.value
  have hany : (s.run_event.any fun old => old.run_id = event.run_id && old.seq = as_i64 event.seq) = true := by
    refine List.any_eq_true.mpr ⟨row, hmem, ?_⟩
    simpa [row_key] using hkey
  constructor
  · simp only [seaorm.insert, hto, bind, Except.bind, hany]
    rfl
  · obtain ⟨old, hold, hrow⟩ := h.rows row hmem
    ext other
    constructor
    · rintro (hother | ⟨hother, hfree⟩)
      · exact hother
      · rw [List.mem_singleton.mp hother] at hfree
        exact absurd (hrow.key_eq_iff.mp hkey) (hfree old hold)
    · exact .inl

/-- Otherwise the event gets a row. -/
theorem Holds.insert_row (h : Holds serde s entries) {event : StampedEvent} (htrips : serde.RoundTrips event)
    (hfree : ∀ row ∈ s.run_event, row_key row ≠ (event.run_id, as_i64 event.seq)) :
    ∃ next, insert serde s event = .ok next ∧ Holds serde next (keyed.merged StampedEvent.key entries [event]) := by
  obtain ⟨payload, hto, hfrom⟩ := htrips.value
  have hany : (s.run_event.any fun old => old.run_id = event.run_id && old.seq = as_i64 event.seq) = false := by
    refine List.any_eq_false.mpr fun row hmem hequal => hfree row hmem ?_
    simpa [row_key] using hequal
  obtain ⟨row, hrow⟩ : ∃ row : RunEvent, row = ⟨event.run_id, as_i64 event.seq, event_type event.event, payload⟩ := ⟨_, rfl⟩
  have hnew : RowOf serde row event := by constructor <;> simp only [hrow, hfrom]
  refine ⟨⟨s.run_event ++ [row]⟩, ?_, ?_, ?_, ?_⟩
  · simp only [seaorm.insert, hto, bind, Except.bind, hany, hrow]
    rfl
  · intro row hmem
    cases List.mem_append.mp hmem with
    | inl hold =>
      obtain ⟨old, hin, hrow⟩ := h.rows row hold
      exact ⟨old, .inl hin, hrow⟩
    | inr hlast =>
      rw [List.mem_singleton.mp hlast]
      refine ⟨event, .inr ⟨List.mem_singleton_self _, fun old hold hkey => ?_⟩, hnew⟩
      obtain ⟨row, hin, hrow⟩ := h.events old hold
      exact hfree row hin (hrow.key_eq_iff.mpr hkey)
  · rintro other (hold | ⟨hother, _⟩)
    · obtain ⟨row, hin, hrow⟩ := h.events other hold
      exact ⟨row, List.mem_append_left _ hin, hrow⟩
    · rw [List.mem_singleton.mp hother]
      exact ⟨row, List.mem_append_right _ (List.mem_singleton_self _), hnew⟩
  · rw [List.map_append, List.nodup_append]
    refine ⟨h.unique, List.nodup_singleton _, ?_⟩
    rintro k hk _ hlast rfl
    obtain ⟨old, hin, hold⟩ := List.mem_map.mp hk
    refine hfree old hin (hold.trans ((List.mem_singleton.mp hlast).trans ?_))
    rw [row_key, hnew.run_id, hnew.seq]

/-- Inserting one event. -/
theorem Holds.insert (h : Holds serde s entries) {event : StampedEvent} (htrips : serde.RoundTrips event) :
    ∃ next, insert serde s event = .ok next ∧ Holds serde next (keyed.merged StampedEvent.key entries [event]) := by
  by_cases htaken : ∃ row ∈ s.run_event, row_key row = (event.run_id, as_i64 event.seq)
  · obtain ⟨row, hmem, hkey⟩ := htaken
    obtain ⟨hinsert, hsame⟩ := h.insert_taken htrips hmem hkey
    exact ⟨s, hinsert, hsame.symm ▸ h⟩
  · exact h.insert_row htrips fun row hmem hkey => htaken ⟨row, hmem, hkey⟩

/-- The rows of a run in their order, and the events they stand for. -/
theorem Holds.read (h : Holds serde s entries) (run_id : String) :
    ∃ log, read_events serde s run_id = .ok log ∧
      keyed.Lists (fun event : StampedEvent => as_i64 event.seq) log (of_run entries run_id) := by
  have hseqs : ((s.run_event.filter fun row => row.run_id = run_id).map RunEvent.seq).Nodup := by
    refine (h.unique.of_map _).filter _ |>.map_on fun a ha b hb hseq => ?_
    obtain ⟨hina, hruna⟩ := List.mem_filter.mp ha
    obtain ⟨hinb, hrunb⟩ := List.mem_filter.mp hb
    refine List.inj_on_of_nodup_map h.unique hina hinb (Prod.ext ?_ hseq)
    exact (of_decide_eq_true hruna).trans (of_decide_eq_true hrunb).symm
  have hrows : keyed.Lists RunEvent.seq (rows_of s run_id)
      { row | row ∈ s.run_event.filter fun row => row.run_id = run_id } := keyed.lists_sort_by_key hseqs fun _ => Iff.rfl
  have hdecoded : ∀ row ∈ rows_of s run_id, ∃ event, RowOf serde row event := by
    intro row hmem
    obtain ⟨event, _, hrow⟩ := h.rows row (List.mem_filter.mp ((hrows.mem row).mp hmem)).1
    exact ⟨event, hrow⟩
  obtain ⟨log, hlog⟩ := fallible.exists_forall₂ hdecoded
  refine ⟨log, fallible.mapM_eq_ok_iff.mpr (hlog.imp fun _ _ h => h.payload), ?_, ?_⟩
  · have hsame : List.Forall₂ Eq ((rows_of s run_id).map RunEvent.seq) (log.map fun event => as_i64 event.seq) := by
      rw [List.forall₂_map_left_iff, List.forall₂_map_right_iff]
      exact hlog.imp fun _ _ h => h.seq
    rw [List.forall₂_eq_eq_eq] at hsame
    rw [← List.pairwise_map (f := fun event : StampedEvent => as_i64 event.seq) (R := fun a b => a < b), ← hsame]
    exact List.pairwise_map.mpr hrows.ascending
  · intro event
    constructor
    · intro hmem
      obtain ⟨row, hin, hrow⟩ := fallible.mem_forall₂ hlog hmem
      obtain ⟨hin, hrun⟩ := List.mem_filter.mp ((hrows.mem row).mp hin)
      obtain ⟨other, hother, hrow'⟩ := h.rows row hin
      have hsame : event = other := Except.ok.inj (hrow.payload.symm.trans hrow'.payload)
      exact ⟨hsame ▸ hother, hrow.run_id.symm.trans (of_decide_eq_true hrun)⟩
    · rintro ⟨hmem, hrun⟩
      obtain ⟨row, hin, hrow⟩ := h.events event hmem
      have hsorted : row ∈ rows_of s run_id :=
        (hrows.mem row).mpr (List.mem_filter.mpr ⟨hin, decide_eq_true (hrow.run_id.trans hrun)⟩)
      obtain ⟨other, hother, hrow'⟩ := fallible.mem_forall₂ hlog.flip hsorted
      have hsame : event = other := Except.ok.inj (hrow.payload.symm.trans hrow'.payload)
      exact hsame ▸ hother

/-- A run that has a record has rows. -/
theorem mem_run_ids_of_record {run_id : String} {record : RunRecord}
    (hrecord : get_run serde s run_id = .ok (some record)) : run_id ∈ (s.run_event.map RunEvent.run_id).dedup := by
  rw [List.mem_dedup]
  by_contra habsent
  have hrows : rows_of s run_id = [] := by
    have hfilter : (s.run_event.filter fun row => row.run_id = run_id) = [] := by
      refine List.filter_eq_nil_iff.mpr fun row hmem hrun => habsent ?_
      exact List.mem_map.mpr ⟨row, hmem, of_decide_eq_true hrun⟩
    rw [rows_of, hfilter]
    rfl
  simp only [get_run, read_events, hrows, List.mapM_nil] at hrecord
  cases hrecord

theorem reads_logs (serde : Serde) : ReadsLogs (run_store serde) :=
  ⟨fun _ _ => rfl, fun _ _ => rfl, fun _ _ => rfl, fun _ _ => rfl, fun _ _ => rfl⟩

theorem Holds.shows (h : Holds serde s entries) : Shows (run_store serde) as_i64 s entries := by
  apply (reads_logs serde).shows h.read
  intro status
  have hreads : ∀ run_id, ∃ log, (run_store serde).events s run_id = .ok log := by
    intro run_id
    obtain ⟨log, hread, _⟩ := h.read run_id
    exact ⟨log, hread⟩
  obtain ⟨records, hrecords, hlisted⟩ := (reads_logs serde).lists hreads fun _ _ => mem_run_ids_of_record
  refine ⟨_, congrArg (Except.map _) hrecords, fun record => ?_⟩
  rw [page_runs]
  exact hlisted status record

theorem lawful (serde : Serde) : Lawful (run_store serde) serde as_i64 (Holds serde) := by
  constructor
  · intro s entries batch h hkeys htrips
    have hstep : ∀ event ∈ batch, ∀ s entries, Holds serde s entries →
        ∃ next, insert serde s event = .ok next ∧ Holds serde next (keyed.merged StampedEvent.key entries [event]) :=
      fun event hmem s entries h => h.insert (htrips event hmem)
    have hsame : batch.flatMap (fun event => [event]) = batch := List.flatMap_singleton' batch
    obtain ⟨last, hlast, hholds⟩ := keyed.merged_foldlM hstep (by rwa [hsame]) h
    rw [hsame] at hholds
    exact ⟨last, hlast, hholds⟩
  · exact fun s entries h => h.shows

end flow_engine.seaorm
