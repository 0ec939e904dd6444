import FlowEngine.Runtime.Persisted
import FlowEngine.Stores.Agreement

namespace flow_engine.runtime

open write_pipeline
open executor (RunContext Behaviour Live LiveRun Move Accepted call_facts)

section Redaction

variable {redactor : Redactor} {event stored : WriteEvent}

theorem redact_event_run_id {node_meta : String → Option NodeMeta} (h : redact_event redactor node_meta event = some stored) :
    stored.run_id = event.run_id := by
  cases redact_event_cases h <;> rfl

/-- Without metadata redaction leaves the starts and ends of attempts as they are. -/
theorem redact_attempt (h : redact_event redactor (fun _ => none) event = some stored) :
    reconstruct.attempt_event stored = reconstruct.attempt_event event ∧
      (reconstruct.attempt_event event = true → stored = event) := by
  cases redact_event_cases h with
  | node_started hmeta | node_completed hmeta | custom hmeta => cases hmeta
  | llm_invocation => exact ⟨rfl, fun hattempt => by cases hattempt⟩
  | unchanged => exact ⟨rfl, fun _ => rfl⟩

/-- The events that redaction leaves as they are, in a log and in the redacted one. -/
theorem filter_of_redacted {keeps : WriteEvent → Bool} (hkeeps : ∀ {event stored},
    redact_event redactor (fun _ => none) event = some stored → keeps stored = keeps event ∧ (keeps event = true → stored = event))
    {events log : List WriteEvent}
    (h : List.Forall₂ (fun event stored => redact_event redactor (fun _ => none) event = some stored) events log) :
    log.filter keeps = events.filter keeps := by
  induction h with
  | nil => rfl
  | cons hhead _ ih =>
    obtain ⟨hsame, hkept⟩ := hkeeps hhead
    rw [List.filter_cons, List.filter_cons, hsame, ih]
    split
    · rename_i hevent
      rw [hkept hevent]
    · rfl

end Redaction

section Record

open reconstruct

variable {config : ExecutionConfig} {ctx : RunContext} {loop : executor.RunState} {cancelled : Bool} {number : Nat}
variable {log : List StampedEvent} {inner : List WriteEvent}

end Record

variable {config : ExecutionConfig} {ctx : RunContext} {behave : executor.Task → Behaviour} {r : RecordedRun}
variable {serde : Serde} {backend : Backend} {s : backend.State} {stored : Set StampedEvent} {number : Nat}

/-- Of a run, a backend holds what the pipeline of its session has stored, under some timestamps. -/
structure Keeps (serde : Serde) (backend : Backend) (s : backend.State) (stored : Set StampedEvent) (run_id : String)
    (session : ExecutionSession) : Prop where
  holds : backend.Holds serde s stored
  stamped : ∃ entries : List StampedEvent, (entries.map StampedEvent.event).Perm session.persisted ∧
    ∀ event, event.run_id = run_id → (event ∈ stored ↔ event ∈ entries)

/-- What a backend reads of the log of a run. -/
structure ReadsBack (serde : Serde) (backend : Backend) (s : backend.State) (run_id : String) (log : List StampedEvent) :
    Prop where
  run : (backend.run_store serde).get_run s run_id = .ok (reconstruct.reconstruct_run run_id log)
  nodes : (backend.run_store serde).get_node_results s run_id = .ok (reconstruct.extract_node_results log)
  calls : (backend.run_store serde).get_llm_invocations s run_id = .ok (reconstruct.extract_llm_invocations log)

/-- What is persisted has a number below the counter. -/
theorem persisted_below {actions : List RecordedAction} (hrun : RecordedExecution config ctx behave actions r)
    (hreturned : r.session.pipeline.pc = .returned) :
    ∀ event ∈ r.session.persisted, event.seq < r.session.pipeline.next_seq := by
  have halive : r.session.pipeline.pc ≠ .panicked := by rw [hreturned]; exact fun heq => by cases heq
  obtain ⟨_, hpipeline⟩ := run_projections hrun
  obtain ⟨hmanned, taken, htaken⟩ := hpipeline halive
  intro event hmem
  obtain ⟨entry, hentry, rfl⟩ := List.mem_map.mp hmem
  have haccepted := (run_holds_accepted htaken).stored entry hentry
  have hbelow := hmanned.steady.numbered.below _ (List.mem_append_right _ (List.mem_map_of_mem haccepted))
  rw [(redact_event_frame ((run_redacts_once (fun _ => rfl) htaken).stored entry hentry)).1,
    hmanned.steady.labelled.2 _ haccepted]
  exact (Nat.mod_le _ _).trans_lt hbelow

/-- What is written is of the run. -/
theorem written_of_run {actions : List RecordedAction}
    (hrun : RecordedExecution config ctx behave actions r) {cancelled : Bool} :
    ∀ event ∈ r.written config ctx number cancelled, event.run_id = ctx.run_id := by
  obtain ⟨⟨moves, hlive⟩, _⟩ := run_projections hrun
  have hown := (executor.run_own hlive).1
  simp only [RecordedRun.written, List.forall_mem_cons, List.forall_mem_append, List.forall_mem_map]
  refine ⟨rfl, fun entry hentry => ?_, rfl, by simp⟩
  have hnumbered : entry.numbered.run_id = entry.event.run_id := by
    unfold executor.Entry.numbered
    cases entry.event <;> rfl
  rw [hnumbered]
  exact (hown entry hentry).of_run

/-- The starts and ends of attempts in the redacted log are those that the executor wrote. -/
theorem persisted_of_written {cancelled : Bool} {log : List StampedEvent}
    (hlog : List.Forall₂ (fun event stored => redact_event config.redactor (fun _ => none) event = some stored)
      (r.written config ctx number cancelled) ((log.map StampedEvent.event).filter WriteEvent.is_critical)) :
    executor.Persisted r.live log := by
  have hcritical : ∀ event, (reconstruct.attempt_event event && event.is_critical) = reconstruct.attempt_event event := by
    intro event
    cases event <;> rfl
  have hfiltered := filter_of_redacted redact_attempt hlog
  rw [List.filter_filter, List.filter_congr fun event _ => hcritical event] at hfiltered
  rw [executor.Persisted, hfiltered, RecordedRun.written, List.filter_cons_of_neg (by simp [run_started, WriteEvent.set_seq,
    reconstruct.attempt_event]), List.filter_append]
  exact List.append_nil _

/-- A node that was not started is not reported. -/
theorem not_reported {first_seq : Nat} {moves : List Move} {x : Live} {log : List StampedEvent} {node_id : String}
    (haccepted : Accepted ctx) (hrun : LiveRun ctx behave first_seq moves x)
    (hpersisted : executor.Persisted x log) (hnot : node_id ∉ executor.started x.loop) :
    reconstruct.reported (reconstruct.extract_node_results log) node_id = none := by
  have htranscribed := executor.run_transcribed haccepted hrun
  rw [reconstruct.reported_eq_foldl, hpersisted, reconstruct.foldl_report_filter, executor.foldl_report_numbered,
    reconstruct.report_of_started (htranscribed.started_first node_id), if_neg]
  rintro ⟨start, hstart, hnode, _⟩
  obtain ⟨entry, hentry, rfl⟩ := List.mem_map.mp hstart
  obtain ⟨task, hwriter, hnode_id⟩ := htranscribed.writer_of_node hentry hnode
  exact hnot (hnode_id ▸ executor.mem_started_of_recorded (htranscribed.writers entry hentry task hwriter))

section Reported

variable (haccepted : Accepted ctx)

include haccepted

/-- The log that a backend reads back of a finished run has the written events in order. -/
theorem log_read_back {actions : List RecordedAction} (hrun : RecordedExecution config ctx behave actions r)
    (hfinished : Finished r number) (hwraps : r.session.pipeline.next_seq ≤ 2 ^ 63)
    (hkeeps : Keeps serde backend s stored ctx.run_id r.session) :
    ∃ cancelled log, ReadsBack serde backend s ctx.run_id log ∧
      List.Forall₂ (fun event stored => redact_event config.redactor (fun _ => none) event = some stored)
        (r.written config ctx number cancelled) ((log.map StampedEvent.event).filter WriteEvent.is_critical) := by
  obtain ⟨sources, hperm, hmatch, hascending⟩ := written_stored haccepted hrun hfinished
  have hcritical := critical_log_matches hperm hmatch hascending
  obtain ⟨log, hlists, _, hget, hnodes, _, _, hcalls⟩ := ((backend.lawful serde).shows s _ hkeeps.holds).reads ctx.run_id
  refine ⟨was_cancelled actions, log, ⟨hget, hnodes, hcalls⟩, ?_⟩
  obtain ⟨entries, hstamped_perm, hentries⟩ := hkeeps.stamped
  have hbelow : ∀ event ∈ of_run stored ctx.run_id, event.seq < 2 ^ 63 := by
    rintro event ⟨hmem, hrun_id⟩
    have hpersisted := hstamped_perm.subset (List.mem_map_of_mem ((hentries event hrun_id).mp hmem))
    exact (persisted_below hrun hfinished.returned _ hpersisted).trans_le hwraps
  have hnatural : keyed.Lists StampedEvent.seq log (of_run stored ctx.run_id) := by
    refine hlists.change_key fun a ha b hb hlt => ?_
    rw [backend.order_eq (hbelow a ha), backend.order_eq (hbelow b hb)] at hlt
    exact Int.ofNat_lt.mp hlt
  -- both logs have the persisted critical events in ascending order
  have hsame : (log.map StampedEvent.event).filter WriteEvent.is_critical = r.session.critical_log := by
    have hof_run : ∀ event ∈ r.session.critical_log, event.run_id = ctx.run_id := by
      intro event hmem
      obtain ⟨source, hsource, hredact⟩ := fallible.mem_forall₂ hcritical hmem
      rw [redact_event_run_id hredact]
      exact written_of_run hrun source hsource
    have hmem_log : ∀ event, event ∈ (log.map StampedEvent.event).filter WriteEvent.is_critical ↔
        event ∈ r.session.critical_log := by
      intro event
      rw [ExecutionSession.critical_log, keyed.mem_sort_by_key, List.mem_filter, List.mem_filter]
      refine and_congr_left fun hkind => ?_
      rw [List.mem_map]
      constructor
      · rintro ⟨stamped, hstamped, rfl⟩
        obtain ⟨hmem, hrun_id⟩ := (hnatural.mem stamped).mp hstamped
        exact hstamped_perm.subset (List.mem_map_of_mem ((hentries stamped hrun_id).mp hmem))
      · intro hpersisted
        obtain ⟨stamped, hmem, rfl⟩ := List.mem_map.mp (hstamped_perm.symm.subset hpersisted)
        have hrun_id : stamped.run_id = ctx.run_id := by
          refine hof_run _ ?_
          rw [ExecutionSession.critical_log, keyed.mem_sort_by_key]
          exact List.mem_filter.mpr ⟨hpersisted, hkind⟩
        exact ⟨stamped, (hnatural.mem stamped).mpr ⟨(hentries stamped hrun_id).mpr hmem, hrun_id⟩, rfl⟩
    have hascends : (log.map StampedEvent.event).Pairwise fun a b => a.seq < b.seq :=
      List.pairwise_map.mpr hnatural.ascending
    have hlog := hascends.filter WriteEvent.is_critical
    have hlists_log : keyed.Lists WriteEvent.seq ((log.map StampedEvent.event).filter WriteEvent.is_critical)
        { event | event ∈ r.session.critical_log } := ⟨hlog, hmem_log⟩
    have hlists_critical : keyed.Lists WriteEvent.seq r.session.critical_log { event | event ∈ r.session.critical_log } := by
      have hseqs : ∀ {events stored : List WriteEvent}, List.Forall₂ (fun event stored =>
          redact_event config.redactor (fun _ => none) event = some stored) events stored →
          stored.map WriteEvent.seq = events.map WriteEvent.seq := by
        intro events stored hall
        induction hall with
        | nil => rfl
        | cons hhead _ ih => rw [List.map_cons, List.map_cons, (redact_event_frame hhead).1, ih]
      refine ⟨?_, fun event => Iff.rfl⟩
      rw [← List.pairwise_map (f := WriteEvent.seq) (R := (· < ·)), hseqs hcritical]
      exact List.pairwise_map.mpr hascending
    exact hlists_log.unique hlists_critical
  rw [hsame]
  exact hcritical

open reconstruct (reported status_after endings) in
/-- Every backend that keeps what a finished run has stored reports the nodes that were started, each
with its last end and its last error, and no others. -/
theorem run_nodes_reported (hpanic : ∀ task, (behave task).NoPanic) {actions : List RecordedAction}
    (hrun : RecordedExecution config ctx behave actions r)
    (hfinished : Finished r number) (hwraps : r.session.pipeline.next_seq ≤ 2 ^ 63)
    (hkeeps : Keeps serde backend s stored ctx.run_id r.session) :
    ∃ results, (backend.run_store serde).get_node_results s ctx.run_id = .ok results ∧
      (results.map NodeRunResult.node_id).Nodup ∧ ∀ node_id,
        (node_id ∈ executor.started r.live.loop → ∃ ending,
          (endings (r.live.log.map executor.Entry.event) node_id).getLast? = some ending ∧
          reported results node_id = some (status_after (some ending),
            ((endings (r.live.log.map executor.Entry.event) node_id).filterMap id).getLast?)) ∧
        (node_id ∉ executor.started r.live.loop → reported results node_id = none) := by
  obtain ⟨cancelled, log, hreads, hlog⟩ := log_read_back haccepted hrun hfinished hwraps hkeeps
  obtain ⟨⟨moves, hlive⟩, _⟩ := run_projections hrun
  have hpersisted := persisted_of_written hlog
  refine ⟨_, hreads.nodes, reconstruct.extract_node_results_nodup _, fun node_id => ⟨fun hstarted => ?_, fun hnot => ?_⟩⟩
  · have hends := executor.endings_ne_nil haccepted hpanic hlive hfinished.quiet hstarted
    refine ⟨_, List.getLast?_eq_some_getLast hends, ?_⟩
    rw [executor.reported_of_persisted haccepted hpanic hlive hfinished.quiet hpersisted hstarted,
      List.getLast?_eq_some_getLast hends]
  · exact not_reported haccepted hlive hpersisted hnot

end Reported

open executor (partial_failure_sample partial_failure_behaviour)

/-- The event under a timestamp, where its number is a `u64`. -/
def stamp (event : WriteEvent) : Option StampedEvent :=
  if hseq : event.seq < 2 ^ 64 then
    some {
      event
      timestamp := 0
      duration_ms := if event.has_duration then some 0 else none
      in_u64 := hseq
      measured := by cases event.has_duration <;> rfl }
  else none

theorem map_event_stamp {events : List WriteEvent} (h : ∀ event ∈ events, event.seq < 2 ^ 64) :
    (events.filterMap stamp).map StampedEvent.event = events := by
  rw [List.map_filterMap]
  conv_rhs => rw [← List.filterMap_some (l := events)]
  refine List.filterMap_congr fun event hmem => ?_
  rw [stamp, dif_pos (h event hmem)]
  rfl

/-- The in-memory store after one batch with all that the sample has stored. -/
theorem partial_failure_kept : ∃ r s stored,
    RecordedExecution partial_failure_config partial_failure_sample partial_failure_behaviour partial_failure_actions r ∧
      Finished r 11 ∧ r.session.pipeline.next_seq ≤ 2 ^ 63 ∧
        Keeps sample_serde .in_memory s stored partial_failure_sample.run_id r.session := by
  obtain ⟨r, hrun, hfinished, hnext, hkeys⟩ := partial_failure_recorded
  have hkey : ∀ event ∈ r.session.persisted, (event.run_id, event.seq) ∈ partial_failure_keys := by
    intro event hmem
    rw [← hkeys]
    exact List.mem_map_of_mem hmem
  have hmap : (r.session.persisted.filterMap stamp).map StampedEvent.event = r.session.persisted := by
    refine map_event_stamp fun event hmem => ?_
    obtain ⟨seq, hseq, heq⟩ := List.mem_map.mp (hkey event hmem)
    have hnumber : seq = event.seq := congrArg Prod.snd heq
    rw [← hnumber]
    exact (List.mem_range'_1.mp hseq).2.trans (by decide)
  have hentries : (r.session.persisted.filterMap stamp).map StampedEvent.key = partial_failure_keys := by
    rw [← hkeys, ← congrArg (List.map fun event : WriteEvent => (event.run_id, event.seq)) hmap, List.map_map]
    rfl
  have hrun_id : ∀ event ∈ r.session.persisted.filterMap stamp, event.run_id = partial_failure_sample.run_id := by
    intro event hmem
    have hin : event.key ∈ partial_failure_keys := hentries ▸ List.mem_map_of_mem hmem
    obtain ⟨seq, _, heq⟩ := List.mem_map.mp hin
    exact (congrArg Prod.fst heq).symm
  have hnodup : ((r.session.persisted.filterMap stamp).map StampedEvent.key).Nodup := by
    rw [hentries]
    decide +kernel
  have hnonempty : r.session.persisted.filterMap stamp ≠ [] := by
    intro hnil
    rw [hnil] at hentries
    cases hentries
  have hwritten := @in_memory.Holds.write_run _ _ in_memory.holds_new
    (partial_failure_sample.run_id, r.session.persisted.filterMap stamp) hrun_id hnonempty hnodup
  have hsame : keyed.merged StampedEvent.key ∅ (r.session.persisted.filterMap stamp) =
      { event | event ∈ r.session.persisted.filterMap stamp } := by
    refine (keyed.Distinct.merged_eq ?_).trans (by ext event; simp)
    rintro a (hnone | ha) b (hnone' | hb) hkey_eq
    · exact hnone.elim
    · exact hnone.elim
    · exact hnone'.elim
    · exact List.inj_on_of_nodup_map hnodup ha hb hkey_eq
  rw [hsame] at hwritten
  exact ⟨r, _, _, hrun, hfinished, by rw [hnext]; decide, hwritten, _, .of_eq hmap, fun _ _ => Iff.rfl⟩

theorem run_nodes_reported_sample : ∃ r s results,
    RecordedExecution partial_failure_config partial_failure_sample partial_failure_behaviour partial_failure_actions r ∧
      (Backend.in_memory.run_store sample_serde).get_node_results s partial_failure_sample.run_id = .ok results ∧
      (results.map NodeRunResult.node_id).Nodup := by
  obtain ⟨r, s, _, hrun, hfinished, hwraps, hkeeps⟩ := partial_failure_kept
  obtain ⟨results, hresults, hnodup, _⟩ := run_nodes_reported partial_failure_accepted
    executor.partial_failure_no_panic hrun hfinished hwraps hkeeps
  exact ⟨r, s, results, hrun, hresults, hnodup⟩

end flow_engine.runtime
