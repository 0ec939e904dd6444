import FlowEngine.Stores.Agreement

namespace flow_engine

/-- One pass of the scan: a call that fails is logged and passed over. -/
def mark_listed {State : Type} (store : RunStore State) (now : String → Int) (s : State) (run : RunRecord) : State :=
  match store.mark_interrupted s run.run_id (now run.run_id) with
  | .ok next => next
  | .error _ => s

/-- The scan of `EngineBuilder::build`: every run that is listed as running is marked. -/
def crash_recovery {State : Type} (store : RunStore State) (s : State) (now : String → Int) : State :=
  match store.list_runs s ⟨none, some .Running, none, none, none, none⟩ with
  | .ok page => page.runs.foldl (mark_listed store now) s
  | .error _ => s

namespace StampedEvent

def is_start (event : StampedEvent) : Bool :=
  match event.event with
  | .RunStarted .. => true
  | _ => false

def is_end (event : StampedEvent) : Bool :=
  match event.event with
  | .RunCompleted .. => true
  | _ => false

/-- The status an event gives its run. -/
def reported (event : StampedEvent) : Option RunStatus :=
  match event.event with
  | .RunStarted .. => some .Running
  | .RunCompleted _ _ status _ => some status
  | _ => none

theorem reported_start {event : StampedEvent} (h : event.is_start = true) : event.reported = some .Running := by
  unfold is_start at h
  split at h
  · rename_i heq
    simp only [reported, heq]
  · cases h

theorem reported_cases {event : StampedEvent} (h : event.reported ≠ none) :
    event.is_start = true ∨ event.is_end = true := by
  unfold reported at h
  split at h
  · rename_i heq
    exact .inl (by simp only [is_start, heq])
  · rename_i heq
    exact .inr (by simp only [is_end, heq])
  · exact absurd rfl h

theorem reported_end {event : StampedEvent} (h : event.is_end = true) : ∃ status, event.reported = some status := by
  unfold is_end at h
  split at h
  · rename_i status _ heq
    exact ⟨status, by simp only [reported, heq]⟩
  · cases h

end StampedEvent

theorem status_apply (record : RunRecord) (event : StampedEvent) :
    (reconstruct.apply_event record event).status = event.reported.getD record.status := by
  unfold reconstruct.apply_event
  split
  · rename_i heq
    simp only [StampedEvent.reported, heq, Option.getD_some]
  · rename_i heq
    simp only [StampedEvent.reported, heq, Option.getD_some]
  · rename_i hstarted hcompleted
    have hnone : event.reported = none := by
      unfold StampedEvent.reported
      split
      · rename_i heq
        exact absurd heq (hstarted _ _ _ _ _ _ _ _)
      · rename_i heq
        exact absurd heq (hcompleted _ _ _ _)
      · rfl
    rw [hnone, Option.getD_none]

theorem status_unreported {log : List StampedEvent} (h : ∀ event ∈ log, event.reported = none) (record : RunRecord) :
    (log.foldl reconstruct.apply_event record).status = record.status := by
  induction log generalizing record with
  | nil => rfl
  | cons event rest ih =>
    rw [List.foldl_cons, ih fun other hmem => h other (List.mem_cons_of_mem _ hmem), status_apply,
      h event List.mem_cons_self]
    rfl

/-- The last event that reports a status decides. -/
theorem status_of_last {key : StampedEvent → Int} {log : List StampedEvent}
    (hlog : log.Pairwise fun a b => key a < key b) {event : StampedEvent} (hmem : event ∈ log) {status : RunStatus}
    (hreported : event.reported = some status)
    (hlast : ∀ other ∈ log, other.reported ≠ none → key other ≤ key event) (record : RunRecord) :
    (log.foldl reconstruct.apply_event record).status = status := by
  obtain ⟨before, after, rfl⟩ := List.append_of_mem hmem
  have hafter : ∀ other ∈ after, other.reported = none := by
    intro other hother
    by_contra hsome
    have hlt := (List.pairwise_cons.mp (List.pairwise_append.mp hlog).2.1).1 other hother
    exact absurd (hlast other (by simp [hother]) hsome) (not_le.mpr hlt)
  rw [List.foldl_append, List.foldl_cons, status_unreported hafter, status_apply, hreported]
  rfl

/-- The events of runs that have each been started and completed once at most, in this order,
and not with the status of a running one. -/
structure Produced (entries : Set StampedEvent) : Prop where
  distinct : keyed.Distinct StampedEvent.key entries
  one_start : ∀ a ∈ entries, ∀ b ∈ entries, a.is_start = true → b.is_start = true → a.run_id = b.run_id → a = b
  one_end : ∀ a ∈ entries, ∀ b ∈ entries, a.is_end = true → b.is_end = true → a.run_id = b.run_id → a = b
  start_first : ∀ a ∈ entries, ∀ b ∈ entries, a.is_start = true → b.is_end = true → a.run_id = b.run_id → a.seq < b.seq
  final : ∀ b ∈ entries, b.is_end = true → b.reported ≠ some .Running

/-- A run that has not been completed. -/
def Unfinished (entries : Set StampedEvent) (run_id : String) : Prop :=
  ∀ b ∈ entries, b.is_end = true → b.run_id ≠ run_id

/-- What crash recovery is for: runs that were started and not completed are interrupted, none
is running, and completed ones keep their record. -/
structure Recovered {State : Type} (store : RunStore State) (before after : State) (entries : Set StampedEvent) :
    Prop where
  interrupted : ∀ a ∈ entries, a.is_start = true → Unfinished entries a.run_id →
    ∃ record, store.get_run after a.run_id = .ok (some record) ∧ record.status = .Interrupted
  none_running : ∀ run_id record, store.get_run after run_id = .ok (some record) → record.status ≠ .Running
  finished : ∀ b ∈ entries, b.is_end = true → store.get_run after b.run_id = store.get_run before b.run_id

/-- In the order of the store each run's start comes before its completion or, if it has none,
before the number of a synthetic one, which no event of the run has. -/
def Recoverable (order : Nat → Int) (entries : Set StampedEvent) : Prop :=
  ∀ a ∈ entries, a.is_start = true →
    (∀ b ∈ entries, b.is_end = true → b.run_id = a.run_id → order a.seq < order b.seq) ∧
    (Unfinished entries a.run_id →
      order a.seq < order (2 ^ 64 - 1) ∧ ∀ event ∈ entries, event.run_id = a.run_id → event.seq ≠ 2 ^ 64 - 1)

section Recovery

variable {State : Type} {store : RunStore State} {serde : Serde} {order : Nat → Int}
variable {Holds : State → Set StampedEvent → Prop} {entries : Set StampedEvent} {s : State}

/-- A run is read as running. -/
def Running (store : RunStore State) (s : State) (run_id : String) : Prop :=
  ∃ record, store.get_run s run_id = .ok (some record) ∧ record.status = .Running

theorem mem_of_run {event : StampedEvent} (hmem : event ∈ entries) : event ∈ of_run entries event.run_id := ⟨hmem, rfl⟩

/-- The record of a run with an event that comes last of those that report a status. -/
theorem Shows.status_of_last (h : Shows store order s entries) {event : StampedEvent} (hmem : event ∈ entries)
    {status : RunStatus} (hreported : event.reported = some status)
    (hlast : ∀ other ∈ of_run entries event.run_id, other.reported ≠ none → order other.seq ≤ order event.seq) :
    ∃ record, store.get_run s event.run_id = .ok (some record) ∧ record.status = status := by
  obtain ⟨log, hlists, _, hget, _⟩ := h.reads event.run_id
  have hin := (hlists.mem event).mpr (mem_of_run hmem)
  have hne : log.isEmpty = false := by
    cases log with
    | nil => cases hin
    | cons => rfl
  refine ⟨log.foldl reconstruct.apply_event { default_run_record with run_id := event.run_id }, ?_, ?_⟩
  · rw [hget, reconstruct.reconstruct_run, hne]
    rfl
  · exact flow_engine.status_of_last hlists.ascending hin hreported
      (fun other hother => hlast other ((hlists.mem other).mp hother)) _

/-- The record of a run none of whose events reports a status. -/
theorem Shows.status_of_unreported (h : Shows store order s entries) {run_id : String}
    (hunreported : ∀ event ∈ of_run entries run_id, event.reported = none) {record : RunRecord}
    (hrecord : store.get_run s run_id = .ok (some record)) : record.status = .Pending := by
  obtain ⟨log, hlists, _, hget, _⟩ := h.reads run_id
  rw [hget, Except.ok.injEq, reconstruct.reconstruct_run] at hrecord
  split at hrecord
  · cases hrecord
  · cases hrecord
    exact status_unreported (fun event hevent => hunreported event ((hlists.mem event).mp hevent)) _

/-- What is read of a run depends on its events alone. -/
theorem Shows.get_run_eq (h : Shows store order s entries) {s' : State} {entries' : Set StampedEvent}
    (h' : Shows store order s' entries') {run_id : String} (hsame : of_run entries' run_id = of_run entries run_id) :
    store.get_run s' run_id = store.get_run s run_id := by
  obtain ⟨log, hlists, _, hget, _⟩ := h.reads run_id
  obtain ⟨log', hlists', _, hget', _⟩ := h'.reads run_id
  have hlog : log' = log := keyed.Lists.unique hlists' (hsame ▸ hlists)
  rw [hget, hget', hlog]

/-- The runs read as running are those whose start no completion follows. -/
theorem Shows.running_iff (h : Shows store order s entries) (hproduced : Produced entries) (run_id : String) :
    Running store s run_id ↔ ∃ a ∈ entries, a.is_start = true ∧ a.run_id = run_id ∧
      ∀ b ∈ entries, b.is_end = true → b.run_id = run_id → order b.seq ≤ order a.seq := by
  constructor
  · rintro ⟨record, hget, hrunning⟩
    -- A completion that follows the starts decides, and not for running.
    have hno_end : ∀ b ∈ entries, b.is_end = true → b.run_id = run_id →
        ¬ ∀ a ∈ entries, a.is_start = true → a.run_id = run_id → order a.seq ≤ order b.seq := by
      rintro b hb hend rfl hlast
      obtain ⟨status, hstatus⟩ := StampedEvent.reported_end hend
      obtain ⟨record', hget', hrecord'⟩ := h.status_of_last hb hstatus fun other hother hsome => by
        cases StampedEvent.reported_cases hsome with
        | inl hstart => exact hlast other hother.1 hstart hother.2
        | inr hother_end => exact (hproduced.one_end other hother.1 b hb hother_end hend hother.2) ▸ le_rfl
      rw [hget] at hget'
      cases hget'
      exact hproduced.final b hb hend (hstatus.trans (congrArg some (hrecord'.symm.trans hrunning)))
    by_cases hstarted : ∃ a ∈ entries, a.is_start = true ∧ a.run_id = run_id
    · obtain ⟨a, ha, hstart, hrun⟩ := hstarted
      refine ⟨a, ha, hstart, hrun, fun b hb hend hrun' => not_lt.mp fun hlt => ?_⟩
      refine hno_end b hb hend hrun' fun other hother hother_start hother_run => ?_
      exact (hproduced.one_start other hother a ha hother_start hstart (hother_run.trans hrun.symm)) ▸ hlt.le
    · have hunreported : ∀ event ∈ of_run entries run_id, event.reported = none := by
        intro event hevent
        by_contra hsome
        cases StampedEvent.reported_cases hsome with
        | inl hstart => exact hstarted ⟨event, hevent.1, hstart, hevent.2⟩
        | inr hend => exact hno_end event hevent.1 hend hevent.2 fun a ha hstart hrun => absurd ⟨a, ha, hstart, hrun⟩ hstarted
      have hpending := h.status_of_unreported hunreported hget
      rw [hrunning] at hpending
      cases hpending
  · rintro ⟨a, ha, hstart, rfl, hends⟩
    refine h.status_of_last ha (StampedEvent.reported_start hstart) fun other hother hsome => ?_
    cases StampedEvent.reported_cases hsome with
    | inl hother_start => exact (hproduced.one_start other hother.1 a ha hother_start hstart hother.2) ▸ le_rfl
    | inr hend => exact hends other hother.1 hend hother.2

/-- The runs that a scan finds are those read as running. -/
theorem Shows.listed_iff (h : Shows store order s entries) {page : RunPage}
    (hpage : ∀ record, record ∈ page.runs ↔
      record.status = .Running ∧ store.get_run s record.run_id = .ok (some record)) (run_id : String) :
    (∃ run ∈ page.runs, run.run_id = run_id) ↔ Running store s run_id := by
  constructor
  · rintro ⟨run, hrun, rfl⟩
    exact ⟨run, ((hpage run).mp hrun).2, ((hpage run).mp hrun).1⟩
  · rintro ⟨record, hget, hrunning⟩
    obtain ⟨log, _, _, hget', _⟩ := h.reads run_id
    have hid : record.run_id = run_id := reconstruct_run_id (Except.ok.inj (hget'.symm.trans hget))
    exact ⟨record, (hpage record).mpr ⟨hrunning, hid ▸ hget⟩, hid⟩

/-- The synthetic completions of some runs. -/
def markers (now : String → Int) (runs : List RunRecord) : List StampedEvent :=
  runs.map fun run => interrupted_event run.run_id (now run.run_id)

/-- Marking some runs merges their synthetic completions. -/
theorem Lawful.mark (h : Lawful store serde order Holds) {now : String → Int} {runs : List RunRecord}
    (htrips : ∀ run ∈ runs, serde.RoundTrips (interrupted_event run.run_id (now run.run_id))) (hholds : Holds s entries) :
    Holds (runs.foldl (mark_listed store now) s) (keyed.merged StampedEvent.key entries (markers now runs)) := by
  induction runs generalizing s entries with
  | nil =>
    have hsame : keyed.merged StampedEvent.key entries (markers now []) = entries := by
      ext event
      simp [keyed.merged, markers]
    rwa [hsame]
  | cons run rest ih =>
    obtain ⟨next, hnext, hholds'⟩ := h.write s entries [interrupted_event run.run_id (now run.run_id)] hholds
      (List.nodup_singleton _) (by simpa using htrips run List.mem_cons_self)
    have hmark : mark_listed store now s run = next := by
      simp only [mark_listed, RunStore.mark_interrupted, hnext]
    have hrest := ih (fun other hmem => htrips other (List.mem_cons_of_mem _ hmem)) hholds'
    have hparts : keyed.merged StampedEvent.key entries (markers now (run :: rest)) =
        keyed.merged StampedEvent.key (keyed.merged StampedEvent.key entries
          [interrupted_event run.run_id (now run.run_id)]) (markers now rest) := by
      rw [markers, List.map_cons, ← List.singleton_append, keyed.merged_append]
      · rfl
      · intro b hb a ha hkey
        obtain ⟨other, _, rfl⟩ := List.mem_map.mp ha
        have hrun : run.run_id = other.run_id := congrArg Prod.fst ((List.mem_singleton.mp hb) ▸ hkey)
        rw [List.mem_singleton.mp hb, hrun]
    rw [List.foldl_cons, hmark, hparts]
    exact hrest

/-- Marking changes the log of the marked runs alone, and of those the ones that do not have
the number of the synthetic completion yet. -/
theorem of_run_marked {now : String → Int} {runs : List RunRecord} {run_id : String}
    (h : (¬ ∃ run ∈ runs, run.run_id = run_id) ∨ ∃ event ∈ of_run entries run_id, event.seq = 2 ^ 64 - 1) :
    of_run (keyed.merged StampedEvent.key entries (markers now runs)) run_id = of_run entries run_id := by
  ext event
  constructor
  · rintro ⟨hold | ⟨hmarker, hfree⟩, hrun⟩
    · exact ⟨hold, hrun⟩
    · obtain ⟨run, hmem, rfl⟩ := List.mem_map.mp hmarker
      cases h with
      | inl hunlisted => exact absurd ⟨run, hmem, hrun⟩ hunlisted
      | inr hpresent =>
        obtain ⟨other, ⟨hother, hother_run⟩, hseq⟩ := hpresent
        exact absurd (Prod.ext (hother_run.trans hrun.symm) hseq) (hfree other hother)
  · rintro ⟨hold, hrun⟩
    exact ⟨.inl hold, hrun⟩

/-- The runs without the number of the synthetic completion get it when they are marked. -/
theorem mem_of_run_marked {now : String → Int} {runs : List RunRecord} {run_id : String}
    (hlisted : ∃ run ∈ runs, run.run_id = run_id) (hfree : ∀ event ∈ of_run entries run_id, event.seq ≠ 2 ^ 64 - 1)
    (event : StampedEvent) :
    event ∈ of_run (keyed.merged StampedEvent.key entries (markers now runs)) run_id ↔
      event ∈ of_run entries run_id ∨ event = interrupted_event run_id (now run_id) := by
  constructor
  · rintro ⟨hold | ⟨hmarker, _⟩, hrun⟩
    · exact .inl ⟨hold, hrun⟩
    · obtain ⟨run, _, rfl⟩ := List.mem_map.mp hmarker
      have hid : run.run_id = run_id := hrun
      exact .inr (hid ▸ rfl)
  · rintro (⟨hold, hrun⟩ | rfl)
    · exact ⟨.inl hold, hrun⟩
    · obtain ⟨run, hmem, rfl⟩ := hlisted
      refine ⟨.inr ⟨List.mem_map_of_mem hmem, fun other hother hkey => ?_⟩, rfl⟩
      exact hfree other ⟨hother, congrArg Prod.fst hkey⟩ (congrArg Prod.snd hkey)

/-- What a scan leaves behind: the runs read as running have a synthetic completion, if its
number was free, and nothing else has changed. -/
structure Scanned (store : RunStore State) (order : Nat → Int) (now : String → Int) (s s' : State)
    (entries entries' : Set StampedEvent) : Prop where
  before : Shows store order s entries
  after : Shows store order s' entries'
  kept : ∀ run_id, (¬ Running store s run_id ∨ ∃ event ∈ of_run entries run_id, event.seq = 2 ^ 64 - 1) →
    of_run entries' run_id = of_run entries run_id
  marked : ∀ run_id, Running store s run_id → (∀ event ∈ of_run entries run_id, event.seq ≠ 2 ^ 64 - 1) →
    ∀ event, event ∈ of_run entries' run_id ↔
      event ∈ of_run entries run_id ∨ event = interrupted_event run_id (now run_id)

theorem Lawful.scanned (h : Lawful store serde order Holds) (hproduced : Produced entries) {now : String → Int}
    (htrips : ∀ a ∈ entries, serde.RoundTrips (interrupted_event a.run_id (now a.run_id))) (hholds : Holds s entries) :
    ∃ entries', Scanned store order now s (crash_recovery store s now) entries entries' := by
  have hshows := h.shows s entries hholds
  obtain ⟨page, hpage, hruns⟩ := hshows.lists .Running
  have hlisted := hshows.listed_iff hruns
  have hafter : crash_recovery store s now = page.runs.foldl (mark_listed store now) s := by
    simp only [crash_recovery, hpage]
  have hmarked : Holds (crash_recovery store s now) (keyed.merged StampedEvent.key entries (markers now page.runs)) := by
    rw [hafter]
    refine h.mark (fun run hrun => ?_) hholds
    have hrunning := (hlisted run.run_id).mp ⟨run, hrun, rfl⟩
    obtain ⟨a, ha, _, hid, _⟩ := (hshows.running_iff hproduced run.run_id).mp hrunning
    exact hid ▸ htrips a ha
  refine ⟨_, hshows, h.shows _ _ hmarked, fun run_id hor => ?_, fun run_id hrunning hfree => ?_⟩
  · exact of_run_marked (hor.imp_left (mt (hlisted run_id).mp))
  · exact mem_of_run_marked ((hlisted run_id).mpr hrunning) hfree

section Scan

variable {now : String → Int} {s' : State} {entries' : Set StampedEvent}

theorem Scanned.get_run_eq (h : Scanned store order now s s' entries entries') {run_id : String}
    (hkept : ¬ Running store s run_id ∨ ∃ event ∈ of_run entries run_id, event.seq = 2 ^ 64 - 1) :
    store.get_run s' run_id = store.get_run s run_id :=
  h.before.get_run_eq h.after (h.kept run_id hkept)

/-- A run that was read as running and does not lack the number of the synthetic completion
still is. -/
theorem Scanned.still_running (h : Scanned store order now s s' entries entries') {run_id : String}
    (hkept : ∃ event ∈ of_run entries run_id, event.seq = 2 ^ 64 - 1) (hrunning : Running store s run_id) :
    Running store s' run_id := by
  rw [Running, h.get_run_eq (.inr hkept)]
  exact hrunning

theorem Scanned.recoverable (h : Scanned store order now s s' entries entries') (hproduced : Produced entries)
    (hrecovered : Recovered store s s' entries) : Recoverable order entries := by
  have hnot_running : ∀ run_id, ¬ Running store s' run_id := by
    rintro run_id ⟨record, hget, hrunning⟩
    exact hrecovered.none_running run_id record hget hrunning
  refine fun a ha hstart => ⟨fun b hb hend hrun => ?_, fun hunfinished => ?_⟩
  · by_contra hle
    have hrunning : Running store s b.run_id := by
      refine (h.before.running_iff hproduced _).mpr ⟨a, ha, hstart, hrun.symm, fun other hother hother_end hother_run => ?_⟩
      rw [hproduced.one_end other hother b hb hother_end hend hother_run]
      exact not_lt.mp hle
    refine hnot_running b.run_id ?_
    rw [Running, hrecovered.finished b hb hend]
    exact hrunning
  · have hrunning : Running store s a.run_id := by
      refine (h.before.running_iff hproduced _).mpr ⟨a, ha, hstart, rfl, fun b hb hend hrun => ?_⟩
      exact absurd hrun (hunfinished b hb hend)
    have hfree : ∀ event ∈ of_run entries a.run_id, event.seq ≠ 2 ^ 64 - 1 := by
      intro event hevent hseq
      exact hnot_running a.run_id (h.still_running ⟨event, hevent, hseq⟩ hrunning)
    refine ⟨?_, fun event hevent hrun => hfree event ⟨hevent, hrun⟩⟩
    by_contra hle
    have hmarked := h.marked a.run_id hrunning hfree
    refine hnot_running a.run_id ?_
    have hin := (hmarked a).mpr (.inl (mem_of_run ha))
    refine h.after.status_of_last hin.1 (StampedEvent.reported_start hstart) fun other hother hsome => ?_
    cases (hmarked other).mp hother with
    | inl hold =>
      cases StampedEvent.reported_cases hsome with
      | inl hother_start => exact (hproduced.one_start other hold.1 a ha hother_start hstart hold.2) ▸ le_rfl
      | inr hend => exact absurd hold.2 (hunfinished other hold.1 hend)
    | inr hmarker =>
      rw [hmarker]
      exact not_lt.mp hle

theorem Scanned.recovered (h : Scanned store order now s s' entries entries') (hproduced : Produced entries)
    (hrecoverable : Recoverable order entries) : Recovered store s s' entries := by
  have hinterrupted : ∀ a ∈ entries, a.is_start = true → Unfinished entries a.run_id →
      ∃ record, store.get_run s' a.run_id = .ok (some record) ∧ record.status = .Interrupted := by
    intro a ha hstart hunfinished
    obtain ⟨hbefore, hfree⟩ := (hrecoverable a ha hstart).2 hunfinished
    have hrunning : Running store s a.run_id := by
      refine (h.before.running_iff hproduced _).mpr ⟨a, ha, hstart, rfl, fun b hb hend hrun => ?_⟩
      exact absurd hrun (hunfinished b hb hend)
    have hmarked := h.marked a.run_id hrunning fun event hevent => hfree event hevent.1 hevent.2
    have hin := (hmarked (interrupted_event a.run_id (now a.run_id))).mpr (.inr rfl)
    refine h.after.status_of_last hin.1 rfl fun other hother hsome => ?_
    cases (hmarked other).mp hother with
    | inl hold =>
      cases StampedEvent.reported_cases hsome with
      | inl hother_start =>
        rw [hproduced.one_start other hold.1 a ha hother_start hstart hold.2]
        exact hbefore.le
      | inr hend => exact absurd hold.2 (hunfinished other hold.1 hend)
    | inr hmarker => exact hmarker ▸ le_rfl
  have hrunning_unfinished : ∀ run_id, Running store s run_id →
      ∃ a ∈ entries, a.is_start = true ∧ a.run_id = run_id ∧ Unfinished entries run_id := by
    intro run_id hrunning
    obtain ⟨a, ha, hstart, rfl, hlast⟩ := (h.before.running_iff hproduced run_id).mp hrunning
    refine ⟨a, ha, hstart, rfl, fun b hb hend hrun => ?_⟩
    exact absurd (hlast b hb hend hrun) (not_le.mpr ((hrecoverable a ha hstart).1 b hb hend hrun))
  refine ⟨hinterrupted, fun run_id record hget hstatus => ?_, fun b hb hend => ?_⟩
  · by_cases hrunning : Running store s run_id
    · obtain ⟨a, ha, hstart, rfl, hunfinished⟩ := hrunning_unfinished run_id hrunning
      obtain ⟨record', hget', hstatus'⟩ := hinterrupted a ha hstart hunfinished
      cases hget.symm.trans hget'
      cases hstatus.symm.trans hstatus'
    · exact hrunning ⟨record, (h.get_run_eq (.inl hrunning)).symm.trans hget, hstatus⟩
  · refine h.get_run_eq (.inl fun hrunning => ?_)
    obtain ⟨_, _, _, _, hunfinished⟩ := hrunning_unfinished b.run_id hrunning
    exact hunfinished b hb hend rfl

end Scan

end Recovery

/-- Recovery does its work exactly where the order of the store lets it. -/
theorem crash_recovery_iff (backend : Backend) {serde : Serde} {batches : List (List StampedEvent)} {now : String → Int}
    (hproduced : Produced (delivered batches)) (hbatches : ∀ batch ∈ batches, batch.Nodup)
    (htrips : ∀ event ∈ delivered batches, serde.RoundTrips event)
    (hmarkers : ∀ event ∈ delivered batches, serde.RoundTrips (interrupted_event event.run_id (now event.run_id))) :
    ∃ s, deliver (backend.run_store serde) backend.new batches = .ok s ∧
      (Recovered (backend.run_store serde) s (crash_recovery (backend.run_store serde) s now) (delivered batches) ↔
        Recoverable backend.order (delivered batches)) := by
  obtain ⟨s, hs, hholds⟩ := backend.deliver hproduced.distinct hbatches htrips
  obtain ⟨entries', hscanned⟩ := (backend.lawful serde).scanned hproduced hmarkers hholds
  exact ⟨s, hs, hscanned.recoverable hproduced, hscanned.recovered hproduced⟩

/-- For numbers below 2^63 the order matters in the database alone, and to interrupted runs alone. -/
theorem recoverable_iff (backend : Backend) {entries : Set StampedEvent} (hproduced : Produced entries)
    (hseq : ∀ event ∈ entries, event.seq < 2 ^ 63) :
    Recoverable backend.order entries ↔
      (backend = .database → ∀ a ∈ entries, a.is_start = true → ¬ Unfinished entries a.run_id) := by
  have hends : ∀ a ∈ entries, a.is_start = true → ∀ b ∈ entries, b.is_end = true → b.run_id = a.run_id →
      backend.order a.seq < backend.order b.seq := by
    intro a ha hstart b hb hend hrun
    rw [backend.order_eq (hseq a ha), backend.order_eq (hseq b hb)]
    exact Int.ofNat_lt.mpr (hproduced.start_first a ha b hb hstart hend hrun.symm)
  have hfree : ∀ event ∈ entries, event.seq ≠ 2 ^ 64 - 1 := by
    intro event hevent hmax
    have hlt := hseq event hevent
    omega
  have hlast : ∀ a ∈ entries, backend.order a.seq < backend.order (2 ^ 64 - 1) ↔ backend ≠ .database := by
    intro a ha
    have hlt := hseq a ha
    rw [backend.order_eq hlt]
    cases backend with
    | in_memory =>
      simp only [Backend.order, ne_eq, reduceCtorEq, not_false_eq_true, iff_true]
      omega
    | file =>
      simp only [Backend.order, ne_eq, reduceCtorEq, not_false_eq_true, iff_true]
      omega
    | database =>
      have hmax : Backend.database.order (2 ^ 64 - 1) = -1 := by decide
      rw [hmax]
      simp only [ne_eq, not_true_eq_false, iff_false]
      omega
  constructor
  · intro hrecoverable hdatabase a ha hstart hunfinished
    exact (hlast a ha).mp ((hrecoverable a ha hstart).2 hunfinished).1 hdatabase
  · intro hfinished a ha hstart
    refine ⟨hends a ha hstart, fun hunfinished => ⟨(hlast a ha).mpr fun hdatabase => ?_, fun event hevent _ => hfree event hevent⟩⟩
    exact hfinished hdatabase a ha hstart hunfinished

theorem mem_delivered_started {event : StampedEvent} : event ∈ delivered [[sample_started]] ↔ event = sample_started := by
  simp [delivered]

theorem produced_started : Produced (delivered [[sample_started]]) := by
  have hsame : ∀ a ∈ delivered [[sample_started]], a = sample_started := fun a ha => mem_delivered_started.mp ha
  refine ⟨fun a ha b hb _ => ?_, fun a ha b hb _ _ _ => ?_, fun a ha b hb _ _ _ => ?_, fun a ha b hb _ hend => ?_,
    fun b hb hend => ?_⟩
  · rw [hsame a ha, hsame b hb]
  · rw [hsame a ha, hsame b hb]
  · rw [hsame a ha, hsame b hb]
  · cases (hsame b hb ▸ hend : sample_started.is_end = true)
  · cases (hsame b hb ▸ hend : sample_started.is_end = true)

theorem crash_recovery_iff_sample : ∃ s, deliver (Backend.file.run_store sample_serde) Backend.file.new [[sample_started]] = .ok s ∧
    (Recovered (Backend.file.run_store sample_serde) s
      (crash_recovery (Backend.file.run_store sample_serde) s fun _ => 0) (delivered [[sample_started]]) ↔
        Recoverable Backend.file.order (delivered [[sample_started]])) := by
  refine crash_recovery_iff .file produced_started (fun batch hbatch => ?_) (fun event hevent => ?_) fun event hevent => ?_
  · rw [List.mem_singleton.mp hbatch]
    exact List.nodup_singleton _
  · rw [mem_delivered_started.mp hevent]
    exact sample_started_round_trips
  · rw [mem_delivered_started.mp hevent]
    exact sample_interrupted_round_trips

/-- A run that was interrupted after its start is read from the database as running after
recovery: the number of the synthetic completion is stored as -1. -/
theorem interrupted_run_left_running : Produced (delivered [[sample_started]]) ∧
    sample_serde.RoundTrips sample_started ∧ sample_serde.RoundTrips (interrupted_event "run" 0) ∧
    ∃ s, deliver (Backend.database.run_store sample_serde) Backend.database.new [[sample_started]] = .ok s ∧
      (∃ record, (Backend.database.run_store sample_serde).get_run
        (crash_recovery (Backend.database.run_store sample_serde) s fun _ => 0) "run" = .ok (some record) ∧
          record.status = .Running) ∧
      ¬ Recovered (Backend.database.run_store sample_serde) s
        (crash_recovery (Backend.database.run_store sample_serde) s fun _ => 0) (delivered [[sample_started]]) := by
  refine ⟨produced_started, sample_started_round_trips, sample_interrupted_round_trips, ?_⟩
  have hrunning : ∃ s record,
      deliver (Backend.database.run_store sample_serde) Backend.database.new [[sample_started]] = .ok s ∧
      (Backend.database.run_store sample_serde).get_run
        (crash_recovery (Backend.database.run_store sample_serde) s fun _ => 0) "run" = .ok (some record) ∧
      record.status = .Running := ⟨_, _, rfl, rfl, rfl⟩
  obtain ⟨s, record, hs, hget, hstatus⟩ := hrunning
  exact ⟨s, hs, ⟨record, hget, hstatus⟩, fun h => h.none_running "run" record hget hstatus⟩

end flow_engine
