import FlowEngine.Executor.Tasks.Ending
import FlowEngine.Executor.Tasks.Overrun

namespace flow_engine.executor

section Stored

open write_pipeline

/-- The store holds the events in some order, each as the pipeline has redacted it. -/
def StoredAs (redactor : Redactor) (node_meta : String → Option NodeMeta) (events stored : List WriteEvent) : Prop :=
  ∃ redacted, List.Forall₂ (fun event after => redact_event redactor node_meta event = some after) events redacted ∧
    stored.Perm redacted

/-- However the events of the run are redacted and in whatever order they are stored, each
summary agrees with the stored log. -/
def StoredSummariesAgree (w : WholeRun) : Prop :=
  ∀ redactor node_meta stored, StoredAs redactor node_meta (w.live.log.map Entry.numbered) stored →
    SummariesAgree stored

variable {redactor : Redactor} {node_meta : String → Option NodeMeta} {events stored : List WriteEvent}

theorem completion_summary_redact {event redacted : WriteEvent} (h : redact_event redactor node_meta event = some redacted) :
    completion_summary redacted = completion_summary event := by
  cases redact_event_cases h <;> rfl

/-- The stored LLM calls are those of the log, up to their order and their messages. -/
theorem StoredAs.facts (h : StoredAs redactor node_meta events stored) :
    ((logged_invocations stored).map call_facts).Perm ((logged_invocations events).map call_facts) := by
  obtain ⟨redacted, hredacted, hperm⟩ := h
  have hsame : (logged_invocations redacted).map call_facts = (logged_invocations events).map call_facts := by
    unfold logged_invocations
    clear hperm
    induction hredacted with
    | nil => rfl
    | @cons event after events redacted hredact _ ih =>
      have hcall := llm_invocation_redact hredact
      rw [List.map_filterMap, List.map_filterMap] at ih
      rw [List.map_filterMap, List.map_filterMap, List.filterMap_cons, List.filterMap_cons, hcall, ih]
  rw [← hsame]
  exact (hperm.filterMap llm_invocation).map call_facts

theorem StoredAs.mem_source (h : StoredAs redactor node_meta events stored) {after : WriteEvent} (hafter : after ∈ stored) :
    ∃ event ∈ events, completion_summary after = completion_summary event := by
  obtain ⟨redacted, hredacted, hperm⟩ := h
  have hmem := hperm.mem_iff.mp hafter
  clear hperm
  induction hredacted with
  | nil => cases hmem
  | @cons event first events redacted hredact _ ih =>
    obtain rfl | hrest := List.mem_cons.mp hmem
    · exact ⟨event, List.mem_cons_self, completion_summary_redact hredact⟩
    · obtain ⟨source, hsource, heq⟩ := ih hrest
      exact ⟨source, List.mem_cons_of_mem _ hsource, heq⟩

/-- What agrees with the log agrees with the stored log. -/
theorem SummariesAgree.kept (h : SummariesAgree events) (hstored : StoredAs redactor node_meta events stored) :
    SummariesAgree stored := by
  intro after hafter summary hsummary hfits
  obtain ⟨event, hevent, heq⟩ := hstored.mem_source hafter
  have hagrees := h event hevent summary (heq ▸ hsummary) (hfits.of_perm hstored.facts)
  constructor
  · rw [hagrees.none_iff, ← List.length_eq_zero_iff, ← List.length_eq_zero_iff]
    have hlength := hstored.facts.length_eq
    simp only [List.length_map] at hlength
    rw [hlength]
  · exact fun totals htotals => (hagrees.totals totals htotals).of_perm hstored.facts

/-- A redactor that leaves everything as it is. -/
def plain_redactor : Redactor where
  redact _ _ value := some value
  redact_llm_messages messages _ := some messages

theorem stored_as_self (events : List WriteEvent) : StoredAs plain_redactor (fun _ => none) events events := by
  refine ⟨events, ?_, .refl _⟩
  rw [List.forall₂_same]
  intro event _
  cases event with
  | Custom seq run_id node_id name data => cases node_id <;> rfl
  | _ => rfl

theorem summaries_agree_numbered (log : List Entry) :
    SummariesAgree (log.map Entry.numbered) ↔ SummariesAgree (log.map Entry.event) := by
  have hcall : ∀ entry : Entry, llm_invocation entry.numbered = llm_invocation entry.event := by
    intro entry
    unfold Entry.numbered
    cases entry.event <;> rfl
  have hend : ∀ entry : Entry, completion_summary entry.numbered = completion_summary entry.event := by
    intro entry
    unfold Entry.numbered
    cases entry.event <;> rfl
  have hextract : logged_invocations (log.map Entry.numbered) = logged_invocations (log.map Entry.event) := by
    rw [logged_invocations, logged_invocations, List.filterMap_map, List.filterMap_map]
    exact List.filterMap_congr fun entry _ => hcall entry
  unfold SummariesAgree
  simp only [List.forall_mem_map, hend, hextract, summary_agrees_congr hextract]

theorem stored_summaries_agree_iff {w : WholeRun} : StoredSummariesAgree w ↔ SummariesAgree w.events := by
  rw [WholeRun.events, ← summaries_agree_numbered]
  constructor
  · exact fun h => h plain_redactor (fun _ => none) _ (stored_as_self _)
  · exact fun h redactor node_meta stored hstored => SummariesAgree.kept h hstored

/-- The summaries of a run agree with its stored log exactly if the session is not dropped in a
panic of the loop that has collected LLM calls. -/
theorem stored_summaries_agree_iff_calm {ctx : RunContext} {behave : Task → Behaviour}
    {config : runtime.ExecutionConfig} {first_seq : Nat} {moves : List RunMove} {w : WholeRun}
    (hrun : transition.Run (run_step ctx behave) (fun _ _ => True) (initial_run ctx config first_seq) moves w) :
    StoredSummariesAgree w ↔
      transition.Run (run_step ctx behave) (fun w move => Calm w move) (initial_run ctx config first_seq) moves w := by
  have hstart : SummariesAgree (initial_run ctx config first_seq).events := by
    refine summaries_agree_of_quiet fun event hevent => ?_
    cases List.mem_singleton.mp hevent
    rfl
  rw [stored_summaries_agree_iff]
  refine (hrun.holds_iff_good (fun w => SummariesAgree w.events) Calm hstart ?_).trans ?_
  · intro moves w move next hreached _ hstep
    exact ((run_collected hreached).step (run_step_cases hstep)).2
  · exact ⟨fun h => h.mono fun _ _ hcalm => hcalm.2, fun h => h.mono fun _ _ hcalm => ⟨trivial, hcalm⟩⟩

end Stored

/-- A handler of the first node that makes an LLM call and puts out an array. -/
def sample_call : LlmInvocationRecord :=
  ⟨"A", ⟨"openai", "gpt", .null⟩, ⟨.null, some [⟨"1", "search", .null⟩], "gpt", some 7, some 3, "stop"⟩⟩

def calling_behaviour (items : List Value) (task : Task) : Behaviour where
  timeout_ms := 0
  retry := ⟨1, none⟩
  attempts _ := ⟨if task.node_id = "A" then [sample_call] else [], .ok (if task.node_id = "A" then .array items else .null)⟩

/-- The first node's task ends, and the run is cancelled. -/
def cancelled_moves : List RunMove :=
  [.live (.write ⟨0, 0⟩), .live (.write ⟨0, 0⟩), .live (.write ⟨0, 0⟩), .live (.join ⟨0, 0⟩), .live .record,
    .live .record, .live .spawn, .finish true, .live (.write ⟨1, 0⟩)]

def sample_config : runtime.ExecutionConfig where
  session_name := none
  redactor := plain_redactor
  metadata := []
  pipeline_config := ⟨1, 100, fun _ => true⟩
  critical_capacity := 1
  advisory_capacity := 1
  version_id := none
  config_hash := none
  triggered_by := none
  trigger_inputs := none
  parent_run_id := none

theorem stored_summaries_agree_cancelled : ∃ w,
    transition.Run (run_step overrun_sample (calling_behaviour [])) (fun _ _ => True)
      (initial_run overrun_sample sample_config 1) cancelled_moves w ∧
      (logged_invocations w.events).length = 1 ∧ StoredSummariesAgree w := by
  have hfold : (cancelled_moves.foldlM (run_step overrun_sample (calling_behaviour []))
      (initial_run overrun_sample sample_config 1)).map (fun w => (logged_invocations w.events).length) = some 1 := by
    decide +kernel
  obtain ⟨w, hmoves, hlength⟩ := Option.map_eq_some_iff.mp hfold
  have hcalm : ∀ move ∈ cancelled_moves, ∀ w, Calm w move := by
    rintro move hmove w records rfl
    simp [cancelled_moves] at hmove
  refine ⟨w, transition.run_of_foldlM hmoves, hlength, ?_⟩
  exact (stored_summaries_agree_iff_calm (transition.run_of_foldlM hmoves)).mpr
    (transition.run_of_foldlM_allowed hmoves hcalm)

section Panic

variable {ctx : RunContext} {behave : Task → Behaviour}

/-- The execution with earlier entries in its log. -/
def Live.after (entries : List Entry) (x : Live) : Live := { x with log := entries ++ x.log }

/-- The moves do not read the log. -/
theorem live_step_after (entries : List Entry) {x y : Live} {move : Move} (h : live_step ctx behave x move = some y) :
    live_step ctx behave (x.after entries) move = some (y.after entries) := by
  cases move with
  | write id =>
    simp only [live_step, Live.after] at h ⊢
    split at h
    · cases h
    · split at h
      · cases h
      · cases h
        simp [Live.write]
  | join id =>
    simp only [live_step, Live.after] at h ⊢
    split at h
    · split at h
      · rename_i hwritten
        obtain ⟨next, hstep, rfl⟩ := Option.map_eq_some_iff.mp h
        refine (if_pos hwritten).trans ?_
        rw [hstep]
        rfl
      · cases h
    · cases h
  | record =>
    simp only [live_step, Live.after] at h ⊢
    split at h
    · cases h
      simp [Live.record]
    · cases h
  | spawn =>
    simp only [live_step, Live.after] at h ⊢
    split at h
    · cases h
      rfl
    · cases h
  | draw =>
    cases h
    rfl

/-- The executions are the runs as long as the loop does not end. -/
theorem run_of_live {config : runtime.ExecutionConfig} {first_seq : Nat} {moves : List Move} {x : Live}
    (hrun : LiveRun ctx behave (first_seq + 1) moves x) :
    transition.Run (run_step ctx behave) (fun _ _ => True) (initial_run ctx config first_seq) (moves.map .live)
      ⟨x.after [⟨first_seq, .loop [], runtime.run_started config ctx.run_id⟩], .looping⟩ := by
  induction hrun with
  | nil => exact .nil
  | snoc _ _ hstep ih =>
    rw [List.map_append]
    refine ih.snoc trivial ?_
    simp only [run_step, RunPhase.is_looping, Bool.true_or, if_true, live_step_after _ hstep]
    rfl

/-- The loop panics where it joins a task with no next state. -/
theorem run_step_panic {w : WholeRun} {task : Task} (hphase : w.phase = .looping) (hbetween : w.live.iteration = none)
    (hfind : w.live.loop.running.find? (fun other => other.id = task.id) = some task)
    (hwritten : w.live.written task.id = (script ctx behave task).1.length)
    (hpanic : next_state ctx w.live.loop ⟨task.id, (script ctx behave task).2⟩ = none) :
    run_step ctx behave w (.panic task.id) = some { w with
      phase := .panicking (w.live.loop.llm_records ++ (node_result task (script ctx behave task).2).llm_records)
        (invocation_events ctx (node_result task (script ctx behave task).2).llm_records) } := by
  simp [run_step, hphase, hbetween, hfind, hwritten, hpanic]

/-- When the session is dropped in a panic, the collected calls have no summary. -/
theorem summary_lost_of_panicking {config : runtime.ExecutionConfig} {first_seq : Nat} {moves : List RunMove}
    {w : WholeRun} {records : List LlmInvocationRecord}
    (hrun : transition.Run (run_step ctx behave) (fun _ _ => True) (initial_run ctx config first_seq) moves w)
    (hphase : w.phase = .panicking records []) (hfits : Fits records) (hne : records ≠ []) :
    ∃ next, transition.Run (run_step ctx behave) (fun _ _ => True) (initial_run ctx config first_seq)
      (moves ++ [.drop]) next ∧ logged_invocations next.events = records ∧ ¬ StoredSummariesAgree next := by
  have hcollected := run_collected hrun
  have hcalls : logged_invocations w.events = records := by
    have h := hcollected.panicking _ _ hphase
    simpa [logged_invocations] using h
  have hcase := @RunCase.dropped ctx behave w records hphase
  have hdrop : run_step ctx behave w .drop = some ⟨w.live.emit (.RunCompleted 0 ctx.run_id .Failed none), .ended⟩ := by
    simp only [run_step, hphase]
  refine ⟨_, hrun.snoc trivial hdrop, ?_, ?_⟩
  · rw [WholeRun.events, emit_events, ← hcalls]
    exact extract_append_plain rfl
  · rw [stored_summaries_agree_iff, (hcollected.step hcase).2]
    rintro ⟨_, hcalm⟩
    exact hne (hcalm records rfl hphase hfits)

end Panic

section Abort

variable {rest : List Value}

/-- The second instance of the fan-out finds no slot, and the loop panics. -/
theorem FannedOut.panics {s : RunState} (h : FannedOut s (.null :: .null :: rest))
    (hlength : (rest.length + 2) % 2 ^ 32 = 1) :
    next_state overrun_sample s ⟨⟨1, 1⟩, .returned (.Success .null) []⟩ = none := by
  have hfind : s.running.find? (fun task => task.id = ⟨1, 1⟩) = some ⟨⟨1, 1⟩, "S", some 1, .null⟩ := by
    rw [h.tasks]
    rfl
  have hstate : s.fan_out_states "S" = some (fresh_fan_out (.null :: .null :: rest)) := by
    rw [h.fan_out_states, Function.update_self]
  have hbound : ¬ 1 < (fresh_fan_out (.null :: .null :: rest)).results.length := by
    rw [fresh_fan_out, List.length_replicate]
    change ¬ 1 < (rest.length + 2) % 2 ^ 32
    omega
  cases hnext : next_state overrun_sample s ⟨⟨1, 1⟩, .returned (.Success .null) []⟩ with
  | none => rfl
  | some next =>
    obtain ⟨task, hfound, hcase⟩ := next_state_cases hnext
    have htask : task = ⟨⟨1, 1⟩, "S", some 1, .null⟩ := Option.some.inj (hfound.symm.trans hfind)
    subst htask
    cases hcase with
    | plain_success hjoined hindex => cases hindex
    | plain_failure hjoined hindex => cases hindex
    | panic hjoined => cases hjoined
    | instance_dropped hjoined hindex hnone => simp [hstate] at hnone
    | instance_kept hjoined hindex hsome hlt _ =>
      cases hindex
      cases hstate.symm.trans hsome
      exact absurd hlt hbound
    | fan_in hjoined hindex hsome hlt _ =>
      cases hindex
      cases hstate.symm.trans hsome
      exact absurd hlt hbound

/-- The loop's part of the run: the first node's task has made a call, and its array is fanned out. -/
theorem calling_run : ∃ s,
    transition.Run (next_state overrun_sample)
      (Scripted overrun_sample (calling_behaviour (.null :: .null :: rest))) (initial_state overrun_sample)
      [⟨⟨0, 0⟩, .returned (.Success (.array (.null :: .null :: rest))) [sample_call]⟩] s ∧
      FannedOut s (.null :: .null :: rest) ∧ s.llm_records = [sample_call] := by
  obtain ⟨_, _, _, _, _, hentry, _, _⟩ := overrun_facts
  obtain ⟨s, hfirst, hfanned⟩ := @overrun_fans_out rest [sample_call]
  have hscripted : ∀ task, (initial_state overrun_sample).running.find? (fun task => task.id = ⟨0, 0⟩) = some task →
      JoinResult.returned (.Success (.array (.null :: .null :: rest))) [sample_call] =
        (script overrun_sample (calling_behaviour (.null :: .null :: rest)) task).2 := by
    intro task hfind
    have hmem := List.mem_of_find?_eq_some hfind
    rw [initial_state_eq (by rw [hentry]; decide +kernel), hentry] at hmem
    cases List.mem_singleton.mp hmem
    rfl
  have hrun : transition.Run (next_state overrun_sample)
      (Scripted overrun_sample (calling_behaviour (.null :: .null :: rest))) (initial_state overrun_sample)
      ([] ++ [⟨⟨0, 0⟩, .returned (.Success (.array (.null :: .null :: rest))) [sample_call]⟩]) s :=
    transition.Run.nil.snoc hscripted hfirst
  obtain ⟨task, hfind, events, _, hrecords, hextract, _⟩ :=
    next_state_records (run_countsBounded (@transition.Run.nil _ _ _ (fun _ _ => True) _)) hfirst
  refine ⟨s, hrun, hfanned, ?_⟩
  rw [hrecords, initial_llm_records, List.nil_append, hextract]
  rfl

end Abort

/-- A fan-out over more than 2^32 elements makes the loop panic on an index without a slot, and
the run of which a call is logged is stored with no summary. -/
theorem summary_lost_in_panic : ∃ items : List Value, items.length = 2 ^ 32 + 1 ∧ ∃ moves w,
    transition.Run (run_step overrun_sample (calling_behaviour items)) (fun _ _ => True)
      (initial_run overrun_sample sample_config 1) moves w ∧
      (logged_invocations w.events).length = 1 ∧ ¬ StoredSummariesAgree w := by
  generalize hrest : List.replicate (2 ^ 32 - 1) Value.null = rest
  have hlength : rest.length = 2 ^ 32 - 1 := by rw [← hrest, List.length_replicate]
  refine ⟨.null :: .null :: rest, ?_, ?_⟩
  · rw [List.length_cons, List.length_cons, hlength]
    omega
  obtain ⟨s, hrun, hfanned, hrecords⟩ := @calling_run rest
  have haccepted : Accepted overrun_sample := sample_accepted 50 (by decide +kernel)
  obtain ⟨moves, x, hlive, hwrote⟩ := live_of_run haccepted 2 hrun
  have hfind : s.running.find? (fun other => other.id = (⟨⟨1, 1⟩, "S", some 1, .null⟩ : Task).id) =
      some ⟨⟨1, 1⟩, "S", some 1, .null⟩ := by
    rw [hfanned.tasks]
    rfl
  obtain ⟨moves', y, hlive', hwrote', hwritten, _⟩ := hlive.write_part hwrote hfind (by simp) (Nat.le_refl _)
  have hlooping := @run_of_live _ _ sample_config 1 moves' y hlive'
  have hpanic := @run_step_panic overrun_sample (calling_behaviour (.null :: .null :: rest))
    ⟨y.after [⟨1, .loop [], runtime.run_started sample_config overrun_sample.run_id⟩], .looping⟩
    ⟨⟨1, 1⟩, "S", some 1, .null⟩ rfl hwrote'.between (hwrote'.loop ▸ hfind) hwritten
    (hwrote'.loop ▸ hfanned.panics (by rw [hlength]; omega))
  have hrecords' : y.loop.llm_records = [sample_call] := by rw [hwrote'.loop, hrecords]
  obtain ⟨w, hended, hcalls, hlost⟩ := summary_lost_of_panicking (hlooping.snoc trivial hpanic)
    (show _ = RunPhase.panicking (y.loop.llm_records ++ []) [] from rfl)
    (by rw [hrecords']; exact ⟨by decide, by decide⟩) (by rw [hrecords']; simp)
  exact ⟨_, w, hended, by rw [hcalls, hrecords']; rfl, hlost⟩

end flow_engine.executor
