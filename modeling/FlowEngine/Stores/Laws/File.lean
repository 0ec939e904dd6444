import FlowEngine.Stores.Contents

namespace flow_engine.file_store

variable {serde : Serde} {s : FileRunStore} {entries : Set StampedEvent}

/-- A line that stands for an event. -/
structure Written (serde : Serde) (event : StampedEvent) (line : String) : Prop where
  to_string : serde.to_string event = .ok line
  from_str : serde.from_str line = .ok event
  one_line : text.OneLine line
  not_blank : line.toList.all is_whitespace = false

/-- A file that holds a set of events, in any order. -/
def FileOf (serde : Serde) (content : String) (entries : Set StampedEvent) : Prop :=
  ∃ events lines, (events.map StampedEvent.seq).Nodup ∧ (∀ event, event ∈ events ↔ event ∈ entries) ∧
    List.Forall₂ (Written serde) events lines ∧ content = text.of_lines lines

/-- The store holds a set of events: each run has a file with its own, unless it has none. -/
structure Holds (serde : Serde) (s : FileRunStore) (entries : Set StampedEvent) : Prop where
  trips : ∀ event ∈ entries, serde.RoundTrips event
  files : ∀ run_id content, s.runs[run_id]? = some (some content) → FileOf serde content (of_run entries run_id)
  absent : ∀ run_id, (∀ content, s.runs[run_id]? ≠ some (some content)) → ∀ event, event ∉ of_run entries run_id

theorem holds_new (serde : Serde) : Holds serde new ∅ := by
  constructor
  · exact fun event hmem => hmem.elim
  · intro run_id content hget
    simp [new] at hget
  · exact fun run_id _ event hmem => hmem.1.elim

/-- Events that round-trip are written to a file. -/
theorem exists_lines {events : List StampedEvent} (htrips : ∀ event ∈ events, serde.RoundTrips event) :
    ∃ lines, events.mapM serde.to_string = .ok lines ∧ List.Forall₂ (Written serde) events lines := by
  have hwritten : ∀ event ∈ events, ∃ line, Written serde event line := by
    intro event hmem
    obtain ⟨line, hto, hfrom, hone, hblank⟩ := (htrips event hmem).line
    exact ⟨line, hto, hfrom, hone, hblank⟩
  obtain ⟨lines, hlines⟩ := fallible.exists_forall₂ hwritten
  exact ⟨lines, fallible.mapM_eq_ok_iff.mpr (hlines.imp fun _ _ h => h.to_string), hlines⟩

/-- The events of a file are read as they were written. -/
theorem read_file {content : String} {run_id : String} (hfile : s.runs[run_id]? = some (some content))
    (hholds : FileOf serde content (of_run entries run_id)) :
    ∃ log, read_events serde s run_id = .ok log ∧ keyed.Lists StampedEvent.seq log (of_run entries run_id) := by
  obtain ⟨events, lines, hseqs, hmem, hwritten, rfl⟩ := hholds
  have hlines : text.lines (text.of_lines lines) = lines := by
    refine text.lines_of_lines fun line hline => ?_
    obtain ⟨event, _, h⟩ := fallible.mem_forall₂ hwritten hline
    exact h.one_line
  have hkept : lines.filter (fun line => !line.toList.all is_whitespace) = lines := by
    refine List.filter_eq_self.mpr fun line hline => ?_
    obtain ⟨event, _, h⟩ := fallible.mem_forall₂ hwritten hline
    simp only [h.not_blank, Bool.not_false]
  have hread : lines.mapM serde.from_str = .ok events :=
    fallible.mapM_eq_ok_iff.mpr (hwritten.flip.imp fun _ _ h => h.from_str)
  refine ⟨keyed.sort_by_key StampedEvent.seq events, ?_, keyed.lists_sort_by_key hseqs hmem⟩
  simp only [read_events, hfile, hlines, hkept, hread]

theorem Holds.read (h : Holds serde s entries) (run_id : String) :
    ∃ log, read_events serde s run_id = .ok log ∧ keyed.Lists StampedEvent.seq log (of_run entries run_id) := by
  by_cases hfile : ∃ content, s.runs[run_id]? = some (some content)
  · obtain ⟨content, hfile⟩ := hfile
    exact read_file hfile (h.files run_id content hfile)
  · have hnone := h.absent run_id fun content heq => hfile ⟨content, heq⟩
    refine ⟨[], ?_, .nil, fun event => by simpa using hnone event⟩
    unfold read_events
    split
    · rename_i content heq
      exact absurd ⟨content, heq⟩ hfile
    · rfl

/-- Creating a directory that is missing changes no file. -/
theorem create_dir_join (s : FileRunStore) (run_id other : String) :
    (s.runs.insertIfNew run_id none)[other]?.join = s.runs[other]?.join := by
  rw [Std.TreeMap.getElem?_insertIfNew]
  split
  · rename_i hnew
    simp only [Std.LawfulEqCmp.compare_eq_iff_eq] at hnew
    obtain ⟨rfl, hnew⟩ := hnew
    rw [Std.TreeMap.getElem?_eq_none hnew]
    rfl
  · rfl

theorem create_dir_file (s : FileRunStore) (run_id other content : String) :
    (s.runs.insertIfNew run_id none)[other]? = some (some content) ↔ s.runs[other]? = some (some content) := by
  rw [← Option.join_eq_some_iff, ← Option.join_eq_some_iff, create_dir_join]

theorem Holds.create_dir (h : Holds serde s entries) (run_id : String) :
    Holds serde ⟨s.runs.insertIfNew run_id none⟩ entries := by
  constructor
  · exact h.trips
  · exact fun other content hget => h.files other content ((create_dir_file s run_id other content).mp hget)
  · exact fun other hnone => h.absent other fun content hget => hnone content ((create_dir_file s run_id other content).mpr hget)

section Write

variable {run_id : String} {batch existing : List StampedEvent} (hgroup : ∀ event ∈ batch, event.run_id = run_id)
  (hlists : keyed.Lists StampedEvent.seq existing (of_run entries run_id))
include hgroup hlists

/-- The file of the run is to hold its events and the new ones. -/
theorem mem_written : ∀ event, event ∈ existing ++ keyed.fresh StampedEvent.seq existing batch ↔
    event ∈ of_run (keyed.merged StampedEvent.key entries batch) run_id := by
  rw [of_run_merged_self hgroup]
  exact keyed.mem_append_fresh hlists.mem

variable (h : Holds serde s entries) (hread : read_events serde ⟨s.runs.insertIfNew run_id none⟩ run_id = .ok existing)
  (hmerged : ∀ event ∈ keyed.merged StampedEvent.key entries batch, serde.RoundTrips event)
include h hread hmerged

/-- Where nothing is new the files stay. -/
theorem Holds.write_nothing (hfresh : keyed.fresh StampedEvent.seq existing batch = []) :
    ∃ next, write_run serde s (run_id, batch) = .ok next ∧
      Holds serde next (keyed.merged StampedEvent.key entries batch) := by
  have hdir := h.create_dir run_id
  have hruns : ∀ other, of_run (keyed.merged StampedEvent.key entries batch) other = of_run entries other := by
    intro other
    by_cases hother : other = run_id
    · ext event
      rw [hother, ← mem_written hgroup hlists event, hfresh, List.append_nil, hlists.mem]
    · exact of_run_merged_of_ne hgroup hother
  refine ⟨⟨s.runs.insertIfNew run_id none⟩, ?_, hmerged, ?_, ?_⟩
  · simp only [file_store.write_run, hread, bind, Except.bind, hfresh]
    rfl
  · intro other content hget
    rw [hruns]
    exact hdir.files other content hget
  · intro other hnone
    rw [hruns]
    exact hdir.absent other hnone

/-- Otherwise the file of the run is written again, with the new events at its end. -/
theorem Holds.write_file (hkeys : (batch.map StampedEvent.key).Nodup)
    (hfresh : keyed.fresh StampedEvent.seq existing batch ≠ []) :
    ∃ next, write_run serde s (run_id, batch) = .ok next ∧
      Holds serde next (keyed.merged StampedEvent.key entries batch) := by
  have hdir := h.create_dir run_id
  have hmem := mem_written hgroup hlists
  have hwhole : ∀ event ∈ existing ++ keyed.fresh StampedEvent.seq existing batch, serde.RoundTrips event :=
    fun event hevent => hmerged event ((hmem event).mp hevent).1
  obtain ⟨lines, hlines, hwritten⟩ := exists_lines hwhole
  have hget : ∀ other, ((s.runs.insertIfNew run_id none).insert run_id (some (text.of_lines lines)))[other]? =
      if other = run_id then some (some (text.of_lines lines)) else (s.runs.insertIfNew run_id none)[other]? := by
    intro other
    by_cases hother : other = run_id
    · simp [hother]
    · simp [Std.TreeMap.getElem?_insert, hother, Ne.symm hother]
  refine ⟨⟨(s.runs.insertIfNew run_id none).insert run_id (some (text.of_lines lines))⟩, ?_, hmerged, ?_, ?_⟩
  · have hsome : (keyed.fresh StampedEvent.seq existing batch).isEmpty = false := by simpa using hfresh
    simp only [file_store.write_run, hread, bind, Except.bind, hsome, hlines]
    rfl
  · intro other content hfile
    rw [hget] at hfile
    split at hfile
    · rename_i hother
      cases hfile
      subst hother
      exact ⟨_, lines, keyed.nodup_append_fresh hlists.nodup_keys (nodup_seqs hgroup hkeys), hmem, hwritten, rfl⟩
    · rename_i hother
      rw [of_run_merged_of_ne hgroup hother]
      exact hdir.files other content hfile
  · intro other hnone
    by_cases hother : other = run_id
    · exact absurd (by rw [hget, if_pos hother]) (hnone (text.of_lines lines))
    · rw [of_run_merged_of_ne hgroup hother]
      refine hdir.absent other fun content hfile => hnone content ?_
      rw [hget, if_neg hother]
      exact hfile

end Write

/-- Adding events of one run. -/
theorem Holds.write_run (h : Holds serde s entries) {group : String × List StampedEvent}
    (hgroup : ∀ event ∈ group.2, event.run_id = group.1) (hkeys : (group.2.map StampedEvent.key).Nodup)
    (htrips : ∀ event ∈ group.2, serde.RoundTrips event) :
    ∃ next, write_run serde s group = .ok next ∧ Holds serde next (keyed.merged StampedEvent.key entries group.2) := by
  obtain ⟨existing, hread, hlists⟩ := (h.create_dir group.1).read group.1
  have hmerged : ∀ event ∈ keyed.merged StampedEvent.key entries group.2, serde.RoundTrips event := by
    rintro event (hold | ⟨hnew, _⟩)
    · exact h.trips event hold
    · exact htrips event hnew
  by_cases hfresh : keyed.fresh StampedEvent.seq existing group.2 = []
  · exact h.write_nothing hgroup hlists hread hmerged hfresh
  · exact h.write_file hgroup hlists hread hmerged hkeys hfresh

/-- A run that has a record has a directory. -/
theorem mem_keys_of_record {run_id : String} {record : RunRecord}
    (hrecord : reconstruct_run serde s run_id = .ok (some record)) : run_id ∈ s.runs.keys := by
  rw [Std.TreeMap.mem_keys]
  by_contra habsent
  have hread : read_events serde s run_id = .ok [] := by
    simp only [read_events, Std.TreeMap.getElem?_eq_none habsent]
  simp only [reconstruct_run, hread] at hrecord
  cases hrecord

theorem reads_logs (serde : Serde) : ReadsLogs (run_store serde) :=
  ⟨fun _ _ => rfl, fun _ _ => rfl, fun _ _ => rfl, fun _ _ => rfl, fun _ _ => rfl⟩

theorem Holds.shows (h : Holds serde s entries) : Shows (run_store serde) (fun seq => (seq : Int)) s entries := by
  apply (reads_logs serde).shows
  · intro run_id
    obtain ⟨log, hread, hlists⟩ := h.read run_id
    exact ⟨log, hread, hlists.change_key fun a _ b _ hlt => Int.ofNat_lt.mpr hlt⟩
  · intro status
    have hreads : ∀ run_id, ∃ log, (run_store serde).events s run_id = .ok log := by
      intro run_id
      obtain ⟨log, hread, _⟩ := h.read run_id
      exact ⟨log, hread⟩
    obtain ⟨records, hrecords, hlisted⟩ := (reads_logs serde).lists hreads fun _ _ => mem_keys_of_record
    refine ⟨_, congrArg (Except.map _) hrecords, fun record => ?_⟩
    rw [page_runs]
    exact hlisted status record

theorem lawful (serde : Serde) : Lawful (run_store serde) serde (fun seq => (seq : Int)) (Holds serde) := by
  constructor
  · intro s entries batch h hkeys htrips
    have hstep : ∀ group ∈ group_by_run batch, ∀ s entries, Holds serde s entries →
        ∃ next, write_run serde s group = .ok next ∧ Holds serde next (keyed.merged StampedEvent.key entries group.2) := by
      intro group hmem s entries h
      obtain ⟨hevents, hgroup⟩ := group_of_batch hkeys hmem
      exact h.write_run (fun event hevent => (hevents event hevent).1) hgroup fun event hevent =>
        htrips event (hevents event hevent).2
    obtain ⟨last, hlast, hholds⟩ := keyed.merged_foldlM hstep (nodup_group_by_run hkeys) h
    refine ⟨last, hlast, ?_⟩
    rwa [keyed.merged_congr mem_flatMap_group_by_run] at hholds
  · exact fun s entries h => h.shows

end flow_engine.file_store
