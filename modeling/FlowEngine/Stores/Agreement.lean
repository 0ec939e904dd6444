import FlowEngine.Stores.Laws.File
import FlowEngine.Stores.Laws.InMemory
import FlowEngine.Stores.Laws.SeaOrm

namespace flow_engine

/-- The implementations of `RunStore`. -/
inductive Backend where
  | in_memory
  | file
  | database

namespace Backend

abbrev State : Backend → Type
  | .in_memory => in_memory.InMemoryRunStore
  | .file => file_store.FileRunStore
  | .database => seaorm.SeaOrmRunStore

def run_store (serde : Serde) : (backend : Backend) → RunStore backend.State
  | .in_memory => in_memory.run_store
  | .file => file_store.run_store serde
  | .database => seaorm.run_store serde

def new : (backend : Backend) → backend.State
  | .in_memory => in_memory.new
  | .file => file_store.new
  | .database => seaorm.new

/-- What a backend orders the events of a run by, from their numbers. -/
def order : Backend → Nat → Int
  | .in_memory | .file => fun seq => seq
  | .database => seaorm.as_i64

def Holds (serde : Serde) : (backend : Backend) → backend.State → Set StampedEvent → Prop
  | .in_memory => in_memory.Holds
  | .file => file_store.Holds serde
  | .database => seaorm.Holds serde

theorem lawful (serde : Serde) (backend : Backend) :
    Lawful (backend.run_store serde) serde backend.order (backend.Holds serde) := by
  cases backend with
  | in_memory => exact in_memory.lawful serde
  | file => exact file_store.lawful serde
  | database => exact seaorm.lawful serde

theorem holds_new (serde : Serde) (backend : Backend) : backend.Holds serde backend.new ∅ := by
  cases backend with
  | in_memory => exact in_memory.holds_new
  | file => exact file_store.holds_new serde
  | database => exact seaorm.holds_new serde

/-- Numbers below 2^63 are ordered as they are. -/
theorem order_eq (backend : Backend) {n : Nat} (h : n < 2 ^ 63) : backend.order n = n := by
  cases backend with
  | in_memory => rfl
  | file => rfl
  | database => exact (seaorm.as_i64_eq n (by omega)).trans (if_pos h)

end Backend

/-- The events of some batches. -/
def delivered (batches : List (List StampedEvent)) : Set StampedEvent := { event | ∃ batch ∈ batches, event ∈ batch }

/-- Call `write_batch` on each batch in turn. -/
def deliver {State : Type} (store : RunStore State) (s : State) (batches : List (List StampedEvent)) : Except String State :=
  batches.foldlM store.write_batch s

/-- Whatever the batches, a store ends up with their events. -/
theorem Lawful.deliver {State : Type} {store : RunStore State} {serde : Serde} {order : Nat → Int}
    {Holds : State → Set StampedEvent → Prop} (h : Lawful store serde order Holds) {entries : Set StampedEvent}
    (hdistinct : keyed.Distinct StampedEvent.key entries) (htrips : ∀ event ∈ entries, serde.RoundTrips event)
    {batches : List (List StampedEvent)} (hbatches : ∀ batch ∈ batches, batch.Nodup ∧ ∀ event ∈ batch, event ∈ entries)
    {s : State} {before : Set StampedEvent} (hbefore : ∀ event ∈ before, event ∈ entries) (hholds : Holds s before) :
    ∃ last, deliver store s batches = .ok last ∧ Holds last { event | event ∈ before ∨ event ∈ delivered batches } := by
  induction batches generalizing s before with
  | nil =>
    refine ⟨s, rfl, ?_⟩
    have hsame : { event | event ∈ before ∨ event ∈ delivered [] } = before := by
      ext event
      simp [delivered]
    rwa [hsame]
  | cons batch rest ih =>
    obtain ⟨hnodup, hbatch⟩ := hbatches batch List.mem_cons_self
    obtain ⟨next, hnext, hholds'⟩ := h.write s before batch hholds (hdistinct.nodup_keys hbatch hnodup)
      fun event hmem => htrips event (hbatch event hmem)
    have hwithin : ∀ event, event ∈ before ∨ event ∈ batch → event ∈ entries :=
      fun event hmem => hmem.elim (hbefore event) (hbatch event)
    rw [(hdistinct.mono hwithin).merged_eq] at hholds'
    obtain ⟨last, hlast, hfinal⟩ := ih (fun other hmem => hbatches other (List.mem_cons_of_mem _ hmem)) hwithin hholds'
    refine ⟨last, ?_, ?_⟩
    · rw [flow_engine.deliver, List.foldlM_cons, hnext]
      exact hlast
    · have hsame : { event | event ∈ before ∨ event ∈ delivered (batch :: rest) } =
          { event | event ∈ { event | event ∈ before ∨ event ∈ batch } ∨ event ∈ delivered rest } := by
        ext event
        simp [delivered, or_assoc]
      rwa [hsame]

/-- What a backend that was given some events returns. -/
theorem Backend.deliver (backend : Backend) {serde : Serde} {batches : List (List StampedEvent)}
    (hdistinct : keyed.Distinct StampedEvent.key (delivered batches)) (hbatches : ∀ batch ∈ batches, batch.Nodup)
    (htrips : ∀ event ∈ delivered batches, serde.RoundTrips event) :
    ∃ s, flow_engine.deliver (backend.run_store serde) backend.new batches = .ok s ∧
      backend.Holds serde s (delivered batches) := by
  obtain ⟨s, hs, hholds⟩ := (backend.lawful serde).deliver hdistinct htrips
    (fun batch hmem => ⟨hbatches batch hmem, fun event hevent => ⟨batch, hmem, hevent⟩⟩)
    (fun event hmem => hmem.elim) (backend.holds_new serde)
  have hsame : { event | event ∈ (∅ : Set StampedEvent) ∨ event ∈ delivered batches } = delivered batches := by
    ext event
    simp
  exact ⟨s, hs, hsame ▸ hholds⟩

/-- The backends return the same log of every run, and the same results, whatever the batches
in which they were given a set of events. -/
theorem stored_log_determined {serde : Serde} {entries : Set StampedEvent} {batches : Backend → List (List StampedEvent)}
    (hdistinct : keyed.Distinct StampedEvent.key entries) (hseq : ∀ event ∈ entries, event.seq < 2 ^ 63)
    (htrips : ∀ event ∈ entries, serde.RoundTrips event)
    (hbatches : ∀ backend, ∀ batch ∈ batches backend, batch.Nodup)
    (hdelivered : ∀ backend, delivered (batches backend) = entries) :
    ∃ log : String → List StampedEvent,
      (∀ run_id, (log run_id).Pairwise (fun a b => a.seq < b.seq) ∧
        ∀ event, event ∈ log run_id ↔ event ∈ entries ∧ event.run_id = run_id) ∧
      ∀ backend : Backend, ∃ s, deliver (backend.run_store serde) backend.new (batches backend) = .ok s ∧ ∀ run_id,
        (backend.run_store serde).events s run_id = .ok (log run_id) ∧
        (backend.run_store serde).get_run s run_id = .ok (reconstruct.reconstruct_run run_id (log run_id)) ∧
        (backend.run_store serde).get_edge_results s run_id = .ok (reconstruct.extract_edge_results (log run_id)) ∧
        (backend.run_store serde).get_custom_events s run_id = .ok (reconstruct.extract_custom_events (log run_id)) ∧
        (backend.run_store serde).get_llm_invocations s run_id =
          .ok (reconstruct.extract_llm_invocations (log run_id)) ∧
        ∃ results, (backend.run_store serde).get_node_results s run_id = .ok results ∧
          ∀ result, result ∈ results ↔ result ∈ reconstruct.extract_node_results (log run_id) := by
  have hshown : ∀ backend : Backend, ∃ s, deliver (backend.run_store serde) backend.new (batches backend) = .ok s ∧
      Shows (backend.run_store serde) backend.order s entries := by
    intro backend
    obtain ⟨s, hs, hholds⟩ := backend.deliver (hdelivered backend ▸ hdistinct) (hbatches backend) (hdelivered backend ▸ htrips)
    exact ⟨s, hs, hdelivered backend ▸ (backend.lawful serde).shows s _ hholds⟩
  have hnatural : ∀ {backend : Backend} {run_id : String} {log : List StampedEvent},
      keyed.Lists (fun event : StampedEvent => backend.order event.seq) log (of_run entries run_id) →
        keyed.Lists StampedEvent.seq log (of_run entries run_id) := by
    intro backend run_id log hlists
    refine hlists.change_key fun a ha b hb hlt => ?_
    rw [backend.order_eq (hseq a ha.1), backend.order_eq (hseq b hb.1)] at hlt
    exact Int.ofNat_lt.mp hlt
  -- The log that the in-memory backend returns is the one all return.
  obtain ⟨s₀, _, hshows₀⟩ := hshown .in_memory
  choose log hlog using hshows₀.reads
  refine ⟨log, fun run_id => ⟨(hnatural (hlog run_id).1).ascending, (hlog run_id).1.mem⟩, fun backend => ?_⟩
  obtain ⟨s, hs, hshows⟩ := hshown backend
  refine ⟨s, hs, fun run_id => ?_⟩
  obtain ⟨other, hlists, hevents, hrun, hnodes, hedges, hcustom, hllm⟩ := hshows.reads run_id
  have hsame : other = log run_id := (hnatural hlists).unique (hnatural (hlog run_id).1)
  subst hsame
  exact ⟨hevents, hrun, hedges, hcustom, hllm, _, hnodes, fun _ => Iff.rfl⟩

/-- A run that has started, completed at number 2, and been marked as interrupted. -/
def sample_started : StampedEvent where
  event := .RunStarted 1 "run" "flow" "v1" .null (.manual "user") none none
  timestamp := 0
  duration_ms := none
  in_u64 := (by decide : 1 < 2 ^ 64)
  measured := rfl

def sample_completed : StampedEvent where
  event := .RunCompleted 2 "run" .Completed none
  timestamp := 0
  duration_ms := some 5
  in_u64 := (by decide : 2 < 2 ^ 64)
  measured := rfl

def run_line (kind seq fields : String) : String :=
  "\x7b" ++ ("\"event_type\":\"run_" ++ (kind ++ ("\",\"seq\":" ++ (seq ++ (",\"schema_version\":1,\"run_id\":\"run\"," ++
    (fields ++ "\"timestamp\":\"1970-01-01T00:00:00Z\"\x7d"))))))

def started_line : String :=
  run_line "started" "1" ("\"flow_id\":\"flow\",\"version_id\":\"v1\",\"trigger_inputs\":null," ++
    ("\"triggered_by\":\x7b\"kind\":\"manual\",\"principal\":\"user\"\x7d,\"config_hash\":null,"))

def completed_line : String :=
  run_line "completed" "2" "\"status\":\"completed\",\"duration_ms\":5,\"llm_summary\":null,"

def interrupted_line : String :=
  run_line "completed" "18446744073709551615" "\"status\":\"interrupted\",\"duration_ms\":0,\"llm_summary\":null,"

def started_value : Value :=
  .object [("config_hash", .null), ("event_type", .string "run_started"), ("flow_id", .string "flow"),
    ("run_id", .string "run"), ("schema_version", .number (.pos_int 1)), ("seq", .number (.pos_int 1)),
    ("timestamp", .string "1970-01-01T00:00:00Z"), ("trigger_inputs", .null),
    ("triggered_by", .object [("kind", .string "manual"), ("principal", .string "user")]), ("version_id", .string "v1")]

def completed_value (seq duration_ms : UInt64) (status : String) : Value :=
  .object [("duration_ms", .number (.pos_int duration_ms)), ("event_type", .string "run_completed"),
    ("llm_summary", .null), ("run_id", .string "run"), ("schema_version", .number (.pos_int 1)),
    ("seq", .number (.pos_int seq)), ("status", .string status), ("timestamp", .string "1970-01-01T00:00:00Z")]

/-- `serde_json` on these events. -/
def sample_serde : Serde where
  to_string event :=
    match event.event with
    | .RunStarted .. => .ok started_line
    | .RunCompleted 2 .. => .ok completed_line
    | .RunCompleted .. => .ok interrupted_line
    | _ => .error "not a sample"
  from_str line :=
    if line = started_line then .ok sample_started
    else if line = completed_line then .ok sample_completed
    else if line = interrupted_line then .ok (interrupted_event "run" 0)
    else .error "not a sample"
  to_value event :=
    match event.event with
    | .RunStarted .. => .ok started_value
    | .RunCompleted 2 .. => .ok (completed_value 2 5 "completed")
    | .RunCompleted .. => .ok (completed_value 18446744073709551615 0 "interrupted")
    | _ => .error "not a sample"
  from_value value :=
    match value.get "seq" with
    | some (.number (.pos_int 1)) => .ok sample_started
    | some (.number (.pos_int 2)) => .ok sample_completed
    | some (.number (.pos_int 18446744073709551615)) => .ok (interrupted_event "run" 0)
    | _ => .error "not a sample"

theorem oneLine_run_line {kind seq fields : String} (hkind : text.OneLine kind) (hseq : text.OneLine seq)
    (hfields : text.OneLine fields) : text.OneLine (run_line kind seq fields) := by
  have hbrace : text.OneLine "\x7b" := text.oneLine_of_all (by decide +kernel)
  have htype : text.OneLine "\"event_type\":\"run_" := text.oneLine_of_all (by decide +kernel)
  have hlabel : text.OneLine "\",\"seq\":" := text.oneLine_of_all (by decide +kernel)
  have hrun : text.OneLine ",\"schema_version\":1,\"run_id\":\"run\"," := text.oneLine_of_all (by decide +kernel)
  have hstamp : text.OneLine "\"timestamp\":\"1970-01-01T00:00:00Z\"\x7d" := text.oneLine_of_all (by decide +kernel)
  exact text.oneLine_append hbrace (text.oneLine_append htype (text.oneLine_append hkind (text.oneLine_append hlabel
    (text.oneLine_append hseq (text.oneLine_append hrun (text.oneLine_append hfields hstamp))))))

theorem run_line_not_blank (kind seq fields : String) :
    (run_line kind seq fields).toList.all file_store.is_whitespace = false := by
  rw [run_line, String.toList_append, List.all_append]
  simp [file_store.is_whitespace]

theorem run_line_ne_of_kind {kind kind' : String} (c d : Char) (hkind : kind.toList.head? = some c)
    (hkind' : kind'.toList.head? = some d) (hne : c ≠ d) (seq seq' fields fields' : String) :
    run_line kind seq fields ≠ run_line kind' seq' fields' := by
  simp only [run_line, ne_eq, String.append_right_inj]
  exact text.append_ne c d hkind hkind' hne _ _

theorem run_line_ne_of_seq {seq seq' : String} (c d : Char) (hseq : seq.toList.head? = some c)
    (hseq' : seq'.toList.head? = some d) (hne : c ≠ d) (kind fields fields' : String) :
    run_line kind seq fields ≠ run_line kind seq' fields' := by
  simp only [run_line, ne_eq, String.append_right_inj]
  exact text.append_ne c d hseq hseq' hne _ _

theorem sample_started_round_trips : sample_serde.RoundTrips sample_started := by
  refine ⟨⟨started_line, rfl, ?_, oneLine_run_line ?_ ?_ ?_, run_line_not_blank _ _ _⟩, ⟨started_value, rfl, rfl⟩⟩
  · simp only [sample_serde, if_true]
  · exact text.oneLine_of_all (by decide +kernel)
  · exact text.oneLine_of_all (by decide +kernel)
  · exact text.oneLine_append (text.oneLine_of_all (by decide +kernel)) (text.oneLine_of_all (by decide +kernel))

theorem sample_completed_round_trips : sample_serde.RoundTrips sample_completed := by
  refine ⟨⟨completed_line, rfl, ?_, oneLine_run_line ?_ ?_ ?_, run_line_not_blank _ _ _⟩,
    ⟨completed_value 2 5 "completed", rfl, rfl⟩⟩
  · have hne : completed_line ≠ started_line := run_line_ne_of_kind 'c' 's' rfl rfl (by decide) _ _ _ _
    simp only [sample_serde, hne, if_false, if_true]
  · exact text.oneLine_of_all (by decide +kernel)
  · exact text.oneLine_of_all (by decide +kernel)
  · exact text.oneLine_of_all (by decide +kernel)

theorem sample_interrupted_round_trips : sample_serde.RoundTrips (interrupted_event "run" 0) := by
  refine ⟨⟨interrupted_line, rfl, ?_, oneLine_run_line ?_ ?_ ?_, run_line_not_blank _ _ _⟩,
    ⟨completed_value 18446744073709551615 0 "interrupted", rfl, rfl⟩⟩
  · have hstarted : interrupted_line ≠ started_line := run_line_ne_of_kind 'c' 's' rfl rfl (by decide) _ _ _ _
    have hcompleted : interrupted_line ≠ completed_line := run_line_ne_of_seq '1' '2' rfl rfl (by decide) _ _ _
    simp only [sample_serde, hstarted, hcompleted, if_false, if_true]
  · exact text.oneLine_of_all (by decide +kernel)
  · exact text.oneLine_of_all (by decide +kernel)
  · exact text.oneLine_of_all (by decide +kernel)

/-- Two events in different batches for each backend, with some of them repeated. -/
def sample_batches : Backend → List (List StampedEvent)
  | .in_memory => [[sample_completed], [sample_started, sample_completed]]
  | .file => [[sample_started, sample_completed]]
  | .database => [[sample_started], [sample_completed], [sample_completed]]

theorem sample_delivered (backend : Backend) :
    delivered (sample_batches backend) = {event | event = sample_started ∨ event = sample_completed} := by
  ext event
  cases backend with
  | in_memory => simp [delivered, sample_batches]; tauto
  | file => simp [delivered, sample_batches]
  | database => simp [delivered, sample_batches]

theorem sample_started_ne_completed : sample_started ≠ sample_completed := by
  intro heq
  have hseq := congrArg StampedEvent.seq heq
  exact absurd hseq (by decide)

theorem sample_batches_nodup (backend : Backend) : ∀ batch ∈ sample_batches backend, batch.Nodup := by
  cases backend with
  | in_memory => simp [sample_batches, sample_started_ne_completed]
  | file => simp [sample_batches, sample_started_ne_completed]
  | database => simp [sample_batches]

theorem stored_log_determined_sample : ∃ log : String → List StampedEvent,
    (∀ event, event ∈ log "run" ↔ (event = sample_started ∨ event = sample_completed) ∧ event.run_id = "run") ∧
    ∀ backend : Backend, ∃ s,
      deliver (backend.run_store sample_serde) backend.new (sample_batches backend) = .ok s ∧
      (backend.run_store sample_serde).events s "run" = .ok (log "run") := by
  have hdistinct : keyed.Distinct StampedEvent.key {event | event = sample_started ∨ event = sample_completed} := by
    rintro a (rfl | rfl) b (rfl | rfl) hkey
    · rfl
    · exact absurd (congrArg Prod.snd hkey) (by decide)
    · exact absurd (congrArg Prod.snd hkey) (by decide)
    · rfl
  have hseq : ∀ event ∈ {event | event = sample_started ∨ event = sample_completed}, event.seq < 2 ^ 63 := by
    rintro event (rfl | rfl) <;> decide
  have htrips : ∀ event ∈ {event | event = sample_started ∨ event = sample_completed}, sample_serde.RoundTrips event := by
    rintro event (rfl | rfl)
    · exact sample_started_round_trips
    · exact sample_completed_round_trips
  obtain ⟨log, hlog, hbackends⟩ := stored_log_determined hdistinct hseq htrips sample_batches_nodup sample_delivered
  refine ⟨log, (hlog "run").2, fun backend => ?_⟩
  obtain ⟨s, hs, hreads⟩ := hbackends backend
  exact ⟨s, hs, (hreads "run").1⟩

end flow_engine
