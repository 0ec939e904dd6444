import FlowEngine.Executor.Summary
import FlowEngine.Executor.Tasks.Records
import FlowEngine.Runtime.Session

namespace flow_engine.executor

/-- The summary in a `RunCompleted` event. -/
def completion_summary : WriteEvent → Option (Option LlmRunSummary)
  | .RunCompleted _ _ _ llm_summary => some llm_summary
  | _ => none

/-- Where the task of a run stands: in its loop, unwinding from a panic of the loop after the
records of the joined task were collected, or past its `RunCompleted`. -/
inductive RunPhase where
  | looping
  | panicking (llm_records : List LlmInvocationRecord) (unwritten : List WriteEvent)
  | ended

def RunPhase.is_looping : RunPhase → Bool
  | .looping => true
  | _ => false

structure WholeRun where
  live : Live
  phase : RunPhase

/-- What can happen in a run: a move of its execution, an advisory event, the end of the loop
at its head, or the loop's panic, after which the session is dropped. -/
inductive RunMove where
  | live (move : Move)
  | advise (event : WriteEvent)
  | finish (cancelled : Bool)
  | panic (id : TaskId)
  | record
  | drop

/-- A move that does not need the loop. -/
def Move.of_task : Move → Bool
  | .write _ | .draw => true
  | .join _ | .record | .spawn => false

/-- The session writes an event. -/
def Live.emit (x : Live) (event : WriteEvent) : Live :=
  { x with
    seq := x.seq + 1
    log := x.log ++ [⟨x.seq, .loop [], event⟩] }

/-- The events the loop records of a joined task's LLM calls. -/
def invocation_events (ctx : RunContext) (records : List LlmInvocationRecord) : List WriteEvent :=
  records.map fun record => .LlmInvocation 0 ctx.run_id record.node_id record.request record.response

/-- The steps of a run. The loop ends at its head when it is cancelled or has no task left, and
finishes the session. When it panics, the session's `drop` emits a `RunCompleted` without a summary.
Tasks in flight go on writing. -/
def run_step (ctx : RunContext) (behave : Task → Behaviour) (w : WholeRun) : RunMove → Option WholeRun
  | .live move =>
    if w.phase.is_looping || move.of_task then (live_step ctx behave w.live move).map fun live => { w with live }
    else none
  | .advise event => if event.is_critical then none else some { w with live := w.live.emit event }
  | .finish cancelled =>
    if w.phase.is_looping && w.live.iteration.isNone && (cancelled || w.live.loop.running.isEmpty) then
      some ⟨w.live.emit (.RunCompleted 0 ctx.run_id (final_status ctx w.live.loop cancelled)
        (run_summary w.live.loop.llm_records)), .ended⟩
    else none
  | .panic id =>
    match w.phase, w.live.iteration, w.live.loop.running.find? fun task => task.id = id with
    | .looping, none, some task =>
      let joined := (script ctx behave task).2
      if w.live.written id = (script ctx behave task).1.length ∧ (next_state ctx w.live.loop ⟨id, joined⟩).isNone then
        let records := (node_result task joined).llm_records
        some { w with phase := .panicking (w.live.loop.llm_records ++ records) (invocation_events ctx records) }
      else none
    | _, _, _ => none
  | .record =>
    match w.phase with
    | .panicking records (event :: rest) => some ⟨w.live.emit event, .panicking records rest⟩
    | _ => none
  | .drop =>
    match w.phase with
    | .panicking _ [] => some ⟨w.live.emit (.RunCompleted 0 ctx.run_id .Failed none), .ended⟩
    | _ => none

/-- The run once its session has emitted `RunStarted`. -/
def initial_run (ctx : RunContext) (config : runtime.ExecutionConfig) (first_seq : Nat) : WholeRun :=
  ⟨(initial_live ctx first_seq).emit (runtime.run_started config ctx.run_id), .looping⟩

/-- The events a run has written. -/
def WholeRun.events (w : WholeRun) : List WriteEvent := w.live.log.map Entry.event

/-- What a step can do. -/
inductive RunCase (ctx : RunContext) (behave : Task → Behaviour) (w : WholeRun) : RunMove → WholeRun → Prop
  | looping {move : Move} {live : Live} (hphase : w.phase = .looping) (hcase : MoveCase ctx behave w.live live) :
      RunCase ctx behave w (.live move) ⟨live, .looping⟩
  | wrote {move : Move} {task : Task} {event : WriteEvent} (hevent : event ∈ (script ctx behave task).1) :
      RunCase ctx behave w (.live move) ⟨w.live.write task event, w.phase⟩
  | drew {move : Move} : RunCase ctx behave w (.live move) ⟨w.live.draw, w.phase⟩
  | advised {event : WriteEvent} (hadvisory : event.is_critical = false) :
      RunCase ctx behave w (.advise event) ⟨w.live.emit event, w.phase⟩
  | finished {cancelled : Bool} (hphase : w.phase = .looping) (hbetween : w.live.iteration = none) :
      RunCase ctx behave w (.finish cancelled) ⟨w.live.emit (.RunCompleted 0 ctx.run_id
        (final_status ctx w.live.loop cancelled) (run_summary w.live.loop.llm_records)), .ended⟩
  | panicked {id : TaskId} {records : List LlmInvocationRecord} (hphase : w.phase = .looping)
      (hbetween : w.live.iteration = none) : RunCase ctx behave w (.panic id)
        { w with phase := .panicking (w.live.loop.llm_records ++ records) (invocation_events ctx records) }
  | recorded {records : List LlmInvocationRecord} {event : WriteEvent} {rest : List WriteEvent}
      (hphase : w.phase = .panicking records (event :: rest)) :
      RunCase ctx behave w .record ⟨w.live.emit event, .panicking records rest⟩
  | dropped {records : List LlmInvocationRecord} (hphase : w.phase = .panicking records []) :
      RunCase ctx behave w .drop ⟨w.live.emit (.RunCompleted 0 ctx.run_id .Failed none), .ended⟩

theorem RunPhase.eq_looping {phase : RunPhase} (h : phase.is_looping = true) : phase = .looping := by
  cases phase with
  | looping => rfl
  | panicking => cases h
  | ended => cases h

/-- Without the loop a task writes, or a number is drawn. -/
theorem live_step_of_task {ctx : RunContext} {behave : Task → Behaviour} {x y : Live} {move : Move}
    (h : live_step ctx behave x move = some y) (hmove : move.of_task = true) :
    (∃ task event, event ∈ (script ctx behave task).1 ∧ y = x.write task event) ∨ y = x.draw := by
  cases move with
  | write id =>
    simp only [live_step] at h
    split at h
    · cases h
    · rename_i task hfind
      split at h
      · cases h
      · rename_i event hevent
        cases h
        exact Or.inl ⟨task, event, List.mem_of_getElem? hevent, rfl⟩
  | draw =>
    cases h
    exact Or.inr rfl
  | join => cases hmove
  | record => cases hmove
  | spawn => cases hmove

theorem run_step_cases {ctx : RunContext} {behave : Task → Behaviour} {w next : WholeRun} {move : RunMove}
    (h : run_step ctx behave w move = some next) : RunCase ctx behave w move next := by
  cases move with
  | live move =>
    simp only [run_step] at h
    split at h
    · rename_i hallowed
      obtain ⟨live, hmove, rfl⟩ := Option.map_eq_some_iff.mp h
      cases hlooping : w.phase.is_looping with
      | true =>
        have hphase := RunPhase.eq_looping hlooping
        rw [hphase]
        exact .looping hphase (live_step_cases hmove)
      | false =>
        rw [hlooping, Bool.false_or] at hallowed
        obtain ⟨task, event, hevent, rfl⟩ | rfl := live_step_of_task hmove hallowed
        · exact .wrote hevent
        · exact .drew
    · cases h
  | advise event =>
    simp only [run_step] at h
    split at h
    · cases h
    · rename_i hadvisory
      cases h
      exact .advised (by simpa using hadvisory)
  | finish cancelled =>
    simp only [run_step] at h
    split at h
    · rename_i hend
      cases h
      simp only [Bool.and_eq_true, Option.isNone_iff_eq_none] at hend
      exact .finished (RunPhase.eq_looping hend.1.1) hend.1.2
    · cases h
  | panic id =>
    simp only [run_step] at h
    split at h
    · rename_i task hphase hbetween hfind
      split at h
      · cases h
        exact .panicked hphase hbetween
      · cases h
    · cases h
  | record =>
    simp only [run_step] at h
    split at h
    · rename_i records event rest hphase
      cases h
      exact .recorded hphase
    · cases h
  | drop =>
    simp only [run_step] at h
    split at h
    · rename_i records hphase
      cases h
      exact .dropped hphase
    · cases h

section Records

variable {ctx : RunContext} {s next : RunState} {c : Completion}

theorem spawn_plain_llm_records (s : RunState) (node_id : String) :
    (spawn_plain ctx s node_id).llm_records = s.llm_records := by
  rw [spawn_plain_eq]
  split <;> rfl

theorem spawn_ready_nodes_llm_records (nodes : List ReadyNode) (s : RunState) :
    (spawn_ready_nodes ctx nodes s).llm_records = s.llm_records := by
  have hnode : ∀ (s : RunState) (ready : ReadyNode), (spawn_ready_node ctx s ready).llm_records = s.llm_records := by
    intro s ready
    cases hitems : ready.fan_out_items with
    | none =>
      rw [spawn_ready_node_plain ctx s hitems, spawn_plain_llm_records]
      rfl
    | some items =>
      rw [spawn_ready_node_fan_out ctx s hitems, spawn_fan_out_eq]
      rfl
  induction nodes generalizing s with
  | nil => rfl
  | cons ready rest ih => exact (ih _).trans (hnode s ready)

/-- An event that is neither of an LLM call nor of the end of a run. -/
def Plain (event : WriteEvent) : Prop := llm_invocation event = none ∧ completion_summary event = none

theorem plain_of_event_node {event : WriteEvent} {node_id : String} (h : event_node event = some node_id) : Plain event := by
  cases event <;> first | exact ⟨rfl, rfl⟩ | cases h

theorem plain_of_advisory {event : WriteEvent} (h : event.is_critical = false) : Plain event := by
  cases event <;> first | exact ⟨rfl, rfl⟩ | cases h

theorem extract_of_plain {events : List WriteEvent} (h : ∀ event ∈ events, Plain event) :
    logged_invocations events = [] :=
  List.filterMap_eq_nil_iff.mpr fun event hevent => (h event hevent).1

theorem extract_append (events more : List WriteEvent) : logged_invocations (events ++ more) =
    logged_invocations events ++ logged_invocations more :=
  List.filterMap_append

theorem extract_invocation_events (records : List LlmInvocationRecord) :
    logged_invocations (invocation_events ctx records) = records := by
  rw [logged_invocations, invocation_events, List.filterMap_map]
  exact List.filterMap_some

theorem initial_llm_records (ctx : RunContext) : (initial_state ctx).llm_records = [] := by
  have hentry : ∀ (s : RunState) (node_id : String), (spawn_entry ctx s node_id).llm_records = s.llm_records := by
    intro s node_id
    unfold spawn_entry
    split <;> rfl
  have hfold : ∀ (entries : List String) (s : RunState),
      (entries.foldl (spawn_entry ctx) s).llm_records = s.llm_records := by
    intro entries
    induction entries with
    | nil => exact fun _ => rfl
    | cons entry rest ih => exact fun s => (ih _).trans (hentry s entry)
  exact hfold (entry_nodes ctx) _

/-- Evaluating edges records no LLM calls. -/
theorem evaluate_downstream_records (hcounts : CountsBounded ctx s.edge_traversal_counts) (node_id : String)
    (outputs : Value) (from_fan_in : Bool) :
    (evaluate_downstream ctx s node_id outputs from_fan_in).llm_records = s.llm_records ∧
      ∃ events, (evaluate_downstream ctx s node_id outputs from_fan_in).log = s.log ++ events ∧
        ∀ event ∈ events, Plain event := by
  rw [evaluate_downstream_eq hcounts, spawn_ready_nodes_llm_records, spawn_ready_nodes_log]
  refine ⟨rfl, _, rfl, ?_⟩
  intro event hevent
  obtain ⟨edge, _, passed, rfl⟩ := mem_edge_events hevent
  exact ⟨rfl, rfl⟩

/-- What an iteration adds to the log and to the LLM calls collected. -/
structure Adds (s after : RunState) (records : List LlmInvocationRecord) (events : List WriteEvent) : Prop where
  log : after.log = s.log ++ events
  llm_records : after.llm_records = s.llm_records ++ logged_invocations events
  extracted : logged_invocations events = records
  quiet : ∀ event ∈ events, completion_summary event = none

/-- The loop records an event for each LLM call it collects. -/
theorem next_state_records (hcounts : CountsBounded ctx s.edge_traversal_counts) (hstep : next_state ctx s c = some next) :
    ∃ task, s.running.find? (fun task => task.id = c.task) = some task ∧
      ∃ events, Adds s next (node_result task c.joined).llm_records events := by
  obtain ⟨task, hfind, hcase⟩ := next_state_cases hstep
  refine ⟨task, hfind, ?_⟩
  generalize hrecords : (node_result task c.joined).llm_records = records
  have hlog : (joined ctx s c task).log = s.log ++ invocation_events ctx records := by
    rw [← hrecords]
    rfl
  have hllm : (joined ctx s c task).llm_records = s.llm_records ++ records := by
    rw [← hrecords]
    rfl
  have hquiet : ∀ event ∈ invocation_events ctx records, completion_summary event = none := by
    intro event hevent
    obtain ⟨record, _, rfl⟩ := List.mem_map.mp hevent
    rfl
  -- the edges of a completed node are evaluated in a state with the log of the join
  have hdownstream : ∀ (settled : RunState) (node_id : String) (outputs : Value) (from_fan_in : Bool),
      settled.edge_traversal_counts = s.edge_traversal_counts → settled.log = (joined ctx s c task).log →
      settled.llm_records = (joined ctx s c task).llm_records →
      ∃ events, Adds s (evaluate_downstream ctx settled node_id outputs from_fan_in) records events := by
    intro settled node_id outputs from_fan_in hsame hsettled hkept
    obtain ⟨hafter, events, hevents, hplain⟩ := evaluate_downstream_records (hsame ▸ hcounts) node_id outputs from_fan_in
    have hextract : logged_invocations (invocation_events ctx records ++ events) = records := by
      rw [extract_append, extract_invocation_events, extract_of_plain hplain, List.append_nil]
    refine ⟨invocation_events ctx records ++ events, ?_, ?_, hextract, ?_⟩
    · rw [hevents, hsettled, hlog, List.append_assoc]
    · rw [hafter, hkept, hllm, hextract]
    · intro event hevent
      exact (List.mem_append.mp hevent).elim (hquiet event) fun hmem => (hplain event hmem).2
  -- nothing more is recorded otherwise
  have hkeeps : ∀ after : RunState, after.log = (joined ctx s c task).log →
      after.llm_records = (joined ctx s c task).llm_records → ∃ events, Adds s after records events := by
    intro after hafter hkept
    have hextract := @extract_invocation_events ctx records
    exact ⟨_, hafter.trans hlog, by rw [hkept, hllm, hextract], hextract, hquiet⟩
  have hfailure : ∀ node_id, (proceed_after_failure ctx (joined ctx s c task) node_id).log = (joined ctx s c task).log ∧
      (proceed_after_failure ctx (joined ctx s c task) node_id).llm_records = (joined ctx s c task).llm_records := by
    intro node_id
    rw [proceed_after_failure_eq, spawn_ready_nodes_log, spawn_ready_nodes_llm_records]
    exact ⟨rfl, rfl⟩
  cases hcase with
  | plain_success hjoined hindex => exact hdownstream _ _ _ _ rfl rfl rfl
  | plain_failure hjoined hindex => exact hkeeps _ (hfailure _).1 (hfailure _).2
  | panic hjoined => exact hkeeps _ (hfailure _).1 (hfailure _).2
  | instance_dropped hjoined hindex hstate => exact hkeeps _ rfl rfl
  | instance_kept hjoined hindex hstate hbound hmore => exact hkeeps _ rfl rfl
  | fan_in hjoined hindex hstate hbound hlast => exact hdownstream _ _ _ _ rfl rfl rfl

end Records

/-- The summary of every `RunCompleted` in the log agrees with the log. -/
def SummariesAgree (log : List WriteEvent) : Prop :=
  ∀ event ∈ log, ∀ summary, completion_summary event = some summary → Fits (logged_invocations log) →
    SummaryAgrees log summary

section Agreement

variable {log : List WriteEvent} {event : WriteEvent}

theorem summaries_agree_of_quiet (h : ∀ event ∈ log, completion_summary event = none) : SummariesAgree log := by
  intro event hevent summary hsummary
  rw [h event hevent] at hsummary
  cases hsummary

theorem extract_append_plain (h : llm_invocation event = none) :
    logged_invocations (log ++ [event]) = logged_invocations log := by
  have hone : logged_invocations [event] = [] := List.filterMap_cons_none h
  rw [extract_append, hone, List.append_nil]

theorem summary_agrees_congr {other : List WriteEvent} (h : logged_invocations other = logged_invocations log)
    (summary : Option LlmRunSummary) : SummaryAgrees other summary ↔ SummaryAgrees log summary := by
  constructor
  · rintro ⟨hnone, htotals⟩
    exact ⟨h ▸ hnone, h ▸ htotals⟩
  · rintro ⟨hnone, htotals⟩
    exact ⟨h ▸ hnone, h ▸ htotals⟩

theorem summaries_agree_append_plain (h : Plain event) : SummariesAgree (log ++ [event]) ↔ SummariesAgree log := by
  have hextract := @extract_append_plain log event h.1
  unfold SummariesAgree
  simp only [hextract, summary_agrees_congr hextract, List.mem_append, List.mem_singleton]
  constructor
  · exact fun hall other hother => hall other (Or.inl hother)
  · rintro hall other (hother | rfl)
    · exact hall other hother
    · intro summary hsummary
      rw [h.2] at hsummary
      cases hsummary

/-- Where the end of the run is the only one, its summary is the one to agree. -/
theorem summaries_agree_append_completed (h : ∀ event ∈ log, completion_summary event = none)
    (run_id : String) (status : RunStatus) (summary : Option LlmRunSummary) :
    SummariesAgree (log ++ [.RunCompleted 0 run_id status summary]) ↔
      (Fits (logged_invocations log) → SummaryAgrees log summary) := by
  have hextract : logged_invocations (log ++ [.RunCompleted 0 run_id status summary]) = logged_invocations log :=
    extract_append_plain rfl
  unfold SummariesAgree
  simp only [hextract, summary_agrees_congr hextract, List.mem_append, List.mem_singleton]
  constructor
  · exact fun hall => hall _ (Or.inr rfl) summary rfl
  · rintro hagrees event (hevent | rfl) other hother
    · rw [h event hevent] at hother
      cases hother
    · cases hother
      exact hagrees

/-- A run that is finished with the summary of its LLM calls agrees. -/
theorem summary_agrees_run_summary (hfits : Fits (logged_invocations log)) :
    SummaryAgrees log (run_summary (logged_invocations log)) := by
  constructor
  · unfold run_summary
    split
    · rename_i hempty
      simpa using hempty
    · rename_i hnonempty
      simpa using hnonempty
  · intro totals htotals
    unfold run_summary at htotals
    split at htotals
    · cases htotals
    · cases htotals
      exact compute_llm_summary_summarises hfits

/-- No summary agrees exactly if there is nothing to summarise. -/
theorem summary_agrees_none_iff : SummaryAgrees log none ↔ logged_invocations log = [] := by
  constructor
  · exact fun h => h.none_iff.mp rfl
  · exact fun h => ⟨⟨fun _ => h, fun _ => rfl⟩, fun _ htotals => by cases htotals⟩

end Agreement

/-- The events of the iteration under way that are not yet recorded. -/
def Live.unwritten (x : Live) : List WriteEvent :=
  match x.iteration with
  | some iteration => iteration.unwritten
  | none => []

/-- The LLM calls in the log are those collected by the loop, but for the ones it has still
to record, and the run has no end before it ended. -/
structure Collected (ctx : RunContext) (w : WholeRun) : Prop where
  reached : ∃ cs, transition.Run (next_state ctx) (fun _ _ => True) (initial_state ctx) cs w.live.ahead
  looping : w.phase = .looping → logged_invocations w.events ++ logged_invocations w.live.unwritten =
    w.live.ahead.llm_records
  panicking : ∀ records unwritten, w.phase = .panicking records unwritten →
    logged_invocations w.events ++ logged_invocations unwritten = records
  quiet : w.phase = .looping → ∀ event ∈ w.live.unwritten, completion_summary event = none
  quiet_panic : ∀ records unwritten, w.phase = .panicking records unwritten →
    ∀ event ∈ unwritten, completion_summary event = none
  unended : w.phase ≠ .ended → ∀ event ∈ w.events, completion_summary event = none

section Invariant

variable {ctx : RunContext} {behave : Task → Behaviour} {w : WholeRun}

theorem emit_events (x : Live) (event : WriteEvent) : (x.emit event).log.map Entry.event = x.log.map Entry.event ++ [event] := by
  simp [Live.emit]

theorem write_events (x : Live) (task : Task) (event : WriteEvent) :
    (x.write task event).log.map Entry.event = x.log.map Entry.event ++ [event] := by
  simp [Live.write]

theorem Collected.unended_looping (h : Collected ctx w) (hphase : w.phase = .looping) :
    ∀ event ∈ w.events, completion_summary event = none :=
  h.unended (by rw [hphase]; exact fun hended => by cases hended)

theorem Collected.unended_panicking (h : Collected ctx w) {records : List LlmInvocationRecord} {unwritten : List WriteEvent}
    (hphase : w.phase = .panicking records unwritten) : ∀ event ∈ w.events, completion_summary event = none :=
  h.unended (by rw [hphase]; exact fun hended => by cases hended)

/-- Between two iterations every call that was collected is logged. -/
theorem Collected.logged (h : Collected ctx w) (hphase : w.phase = .looping) (hbetween : w.live.iteration = none) :
    logged_invocations w.events = w.live.loop.llm_records := by
  have hrecords := h.looping hphase
  rw [Live.unwritten, hbetween, ahead_eq_loop hbetween] at hrecords
  exact (List.append_nil _).symm.trans hrecords

section Phases

variable {live : Live} {records : List LlmInvocationRecord} {unwritten : List WriteEvent}

theorem collected_looping (hreached : ∃ cs, transition.Run (next_state ctx) (fun _ _ => True) (initial_state ctx) cs live.ahead)
    (hrecords : logged_invocations (live.log.map Entry.event) ++ logged_invocations live.unwritten =
      live.ahead.llm_records)
    (hquiet : ∀ event ∈ live.unwritten, completion_summary event = none)
    (hunended : ∀ event ∈ live.log.map Entry.event, completion_summary event = none) : Collected ctx ⟨live, .looping⟩ :=
  ⟨hreached, fun _ => hrecords, fun _ _ hpanic => (by cases hpanic), fun _ => hquiet, fun _ _ hpanic => (by cases hpanic),
    fun _ => hunended⟩

theorem collected_panicking
    (hreached : ∃ cs, transition.Run (next_state ctx) (fun _ _ => True) (initial_state ctx) cs live.ahead)
    (hrecords : logged_invocations (live.log.map Entry.event) ++ logged_invocations unwritten = records)
    (hquiet : ∀ event ∈ unwritten, completion_summary event = none)
    (hunended : ∀ event ∈ live.log.map Entry.event, completion_summary event = none) :
    Collected ctx ⟨live, .panicking records unwritten⟩ := by
  refine ⟨hreached, fun hlooping => (by cases hlooping), ?_, fun hlooping => (by cases hlooping), ?_, fun _ => hunended⟩
  · intro total rest hpanic
    cases hpanic
    exact hrecords
  · intro total rest hpanic
    cases hpanic
    exact hquiet

theorem collected_ended (hreached : ∃ cs, transition.Run (next_state ctx) (fun _ _ => True) (initial_state ctx) cs live.ahead) :
    Collected ctx ⟨live, .ended⟩ :=
  ⟨hreached, fun hlooping => (by cases hlooping), fun _ _ hpanic => (by cases hpanic), fun hlooping => (by cases hlooping),
    fun _ _ hpanic => (by cases hpanic), fun hended => absurd rfl hended⟩

end Phases

/-- A plain event changes nothing about the LLM calls. -/
theorem Collected.append_plain (h : Collected ctx w) {live : Live} {event : WriteEvent} (hplain : Plain event)
    (hlog : live.log.map Entry.event = w.events ++ [event]) (hahead : live.ahead = w.live.ahead)
    (hunwritten : live.unwritten = w.live.unwritten) : Collected ctx ⟨live, w.phase⟩ := by
  have hextract : logged_invocations (WholeRun.events ⟨live, w.phase⟩) = logged_invocations w.events := by
    rw [WholeRun.events, hlog]
    exact extract_append_plain hplain.1
  constructor
  · rw [hahead]
    exact h.reached
  · intro hphase
    rw [hextract, hahead, hunwritten]
    exact h.looping hphase
  · intro records unwritten hphase
    rw [hextract]
    exact h.panicking records unwritten hphase
  · rw [hunwritten]
    exact h.quiet
  · exact h.quiet_panic
  · intro hphase other hother
    rw [WholeRun.events, hlog, List.mem_append, List.mem_singleton] at hother
    obtain hold | rfl := hother
    · exact h.unended hphase other hold
    · exact hplain.2

/-- The loop has what it joined to record. -/
theorem Collected.join (h : Collected ctx w) (hphase : w.phase = .looping) (hbetween : w.live.iteration = none) {task : Task}
    {joined : JoinResult} {next : RunState} (hstep : next_state ctx w.live.loop ⟨task.id, joined⟩ = some next) :
    Collected ctx ⟨w.live.join task joined next, .looping⟩ := by
  obtain ⟨cs, hreached⟩ := h.reached
  rw [ahead_eq_loop hbetween] at hreached
  obtain ⟨_, _, events, hlog, hrecords, _, hnone⟩ := next_state_records (run_countsBounded hreached) hstep
  have hunwritten : (w.live.join task joined next).unwritten = events := by
    change next.log.drop w.live.loop.log.length = events
    rw [hlog, List.drop_left]
  refine collected_looping ⟨_, hreached.snoc trivial hstep⟩ ?_ (hunwritten ▸ hnone) (h.unended_looping hphase)
  rw [hunwritten]
  change logged_invocations w.events ++ _ = next.llm_records
  rw [hrecords, h.logged hphase hbetween]

/-- The loop records an event of its iteration. -/
theorem Collected.record (h : Collected ctx w) (hphase : w.phase = .looping) {next : RunState} {event : WriteEvent}
    {rest : List WriteEvent} (hwithin : w.live.iteration = some ⟨next, event :: rest⟩) :
    Collected ctx ⟨w.live.record next event rest, .looping⟩ := by
  have hbefore := h.looping hphase
  have hnone := h.quiet hphase
  have hahead : w.live.ahead = next := by rw [Live.ahead, hwithin]
  rw [Live.unwritten, hwithin] at hbefore hnone
  have hevents : (w.live.record next event rest).log.map Entry.event = w.events ++ [event] := by
    simp [WholeRun.events, Live.record]
  refine collected_looping (hahead ▸ h.reached) ?_ (fun other hother => hnone other (List.mem_cons_of_mem _ hother)) ?_
  · rw [hevents]
    change _ ++ logged_invocations rest = next.llm_records
    rw [← hahead, ← hbefore, ← extract_append, ← extract_append, List.append_assoc]
    rfl
  · intro other hother
    rw [hevents, List.mem_append, List.mem_singleton] at hother
    obtain hold | rfl := hother
    · exact h.unended_looping hphase other hold
    · exact hnone other List.mem_cons_self

/-- The move of an execution within the loop. -/
theorem Collected.move (h : Collected ctx w) (hphase : w.phase = .looping) {live : Live}
    (hcase : MoveCase ctx behave w.live live) : Collected ctx ⟨live, .looping⟩ := by
  cases hcase with
  | @write task event hfind hevent =>
    have hplain := plain_of_event_node (script_node (List.mem_of_getElem? hevent))
    have hnext : Collected ctx ⟨w.live.write task event, w.phase⟩ := h.append_plain hplain (write_events _ _ _) rfl rfl
    rwa [hphase] at hnext
  | join hbetween hfind hwritten hstep => exact h.join hphase hbetween hstep
  | record hwithin => exact h.record hphase hwithin
  | @spawn next hwithin =>
    have hbefore := h.looping hphase
    have hahead : w.live.ahead = next := by rw [Live.ahead, hwithin]
    rw [hahead, Live.unwritten, hwithin] at hbefore
    exact collected_looping (hahead ▸ h.reached) hbefore (fun _ hother => by cases hother) (h.unended_looping hphase)
  | draw => exact collected_looping h.reached (h.looping hphase) (h.quiet hphase) (h.unended_looping hphase)

/-- A drop of the session in a panic of the loop finds nothing to summarise. -/
def Calm (w : WholeRun) (move : RunMove) : Prop :=
  ∀ records, move = .drop → w.phase = .panicking records [] → Fits records → records = []

theorem calm_of_ne_drop {move : RunMove} (hmove : move ≠ .drop) : Calm w move := fun _ hdrop => absurd hdrop hmove

/-- The loop panics before it records what it has just collected. -/
theorem Collected.panic (h : Collected ctx w) (hphase : w.phase = .looping) (hbetween : w.live.iteration = none)
    (records : List LlmInvocationRecord) :
    Collected ctx ⟨w.live, .panicking (w.live.loop.llm_records ++ records) (invocation_events ctx records)⟩ := by
  refine collected_panicking h.reached ?_ ?_ (h.unended_looping hphase)
  · rw [extract_invocation_events]
    exact congrArg (· ++ records) (h.logged hphase hbetween)
  · intro event hevent
    obtain ⟨record, _, rfl⟩ := List.mem_map.mp hevent
    rfl

/-- A loop that has panicked leaves what it collected in the log. -/
theorem Collected.record_panicking (h : Collected ctx w) {records : List LlmInvocationRecord} {event : WriteEvent}
    {rest : List WriteEvent} (hphase : w.phase = .panicking records (event :: rest)) :
    Collected ctx ⟨w.live.emit event, .panicking records rest⟩ := by
  have hnone := h.quiet_panic _ _ hphase
  refine collected_panicking h.reached ?_ (fun other hother => hnone other (List.mem_cons_of_mem _ hother)) ?_
  · rw [emit_events, ← WholeRun.events, ← h.panicking _ _ hphase, ← extract_append, ← extract_append, List.append_assoc]
    rfl
  · intro other hother
    rw [emit_events, ← WholeRun.events, List.mem_append, List.mem_singleton] at hother
    obtain hold | rfl := hother
    · exact h.unended_panicking hphase other hold
    · exact hnone other List.mem_cons_self

/-- The summary that the loop finishes with is that of the log. -/
theorem Collected.finish_agrees (h : Collected ctx w) (hphase : w.phase = .looping) (hbetween : w.live.iteration = none)
    (status : RunStatus) :
    SummariesAgree (w.events ++ [.RunCompleted 0 ctx.run_id status (run_summary w.live.loop.llm_records)]) := by
  refine (summaries_agree_append_completed (h.unended_looping hphase) _ _ _).mpr fun hfits => ?_
  rw [← h.logged hphase hbetween]
  exact summary_agrees_run_summary hfits

/-- A session that is dropped gives no summary, which agrees exactly if nothing was collected. -/
theorem Collected.drop_agrees_iff (h : Collected ctx w) {records : List LlmInvocationRecord}
    (hphase : w.phase = .panicking records []) (status : RunStatus) :
    SummariesAgree (w.events ++ [.RunCompleted 0 ctx.run_id status none]) ↔ Calm w .drop := by
  have hsame : logged_invocations w.events = records := (List.append_nil _).symm.trans (h.panicking _ _ hphase)
  rw [summaries_agree_append_completed (h.unended_panicking hphase), summary_agrees_none_iff, hsame]
  constructor
  · intro hagrees other _ hother hfits
    rw [hphase] at hother
    cases hother
    exact hagrees hfits
  · exact fun hcalm hfits => hcalm records rfl hphase hfits

/-- A step keeps the invariant, and the summaries agreeing exactly if it is calm. -/
theorem Collected.step (h : Collected ctx w) {move : RunMove} {next : WholeRun}
    (hcase : RunCase ctx behave w move next) :
    Collected ctx next ∧ (SummariesAgree next.events ↔ SummariesAgree w.events ∧ Calm w move) := by
  cases hcase with
  | @looping move live hphase hmove =>
    have hnext := h.move hphase hmove
    refine ⟨hnext, iff_of_true (summaries_agree_of_quiet (hnext.unended_looping rfl)) ?_⟩
    exact ⟨summaries_agree_of_quiet (h.unended_looping hphase), calm_of_ne_drop (by simp)⟩
  | @wrote move task event hevent =>
    have hplain := plain_of_event_node (script_node hevent)
    refine ⟨h.append_plain hplain (write_events _ _ _) rfl rfl, ?_⟩
    rw [WholeRun.events, write_events, and_iff_left (calm_of_ne_drop (by simp))]
    exact summaries_agree_append_plain hplain
  | drew =>
    refine ⟨⟨h.reached, h.looping, h.panicking, h.quiet, h.quiet_panic, h.unended⟩, ?_⟩
    exact (and_iff_left (calm_of_ne_drop (by simp))).symm
  | @advised event hadvisory =>
    have hplain := plain_of_advisory hadvisory
    refine ⟨h.append_plain hplain (emit_events _ _) rfl rfl, ?_⟩
    rw [WholeRun.events, emit_events, and_iff_left (calm_of_ne_drop (by simp))]
    exact summaries_agree_append_plain hplain
  | finished hphase hbetween =>
    refine ⟨collected_ended h.reached, ?_⟩
    rw [WholeRun.events, emit_events]
    refine iff_of_true (h.finish_agrees hphase hbetween _) ?_
    exact ⟨summaries_agree_of_quiet (h.unended_looping hphase), calm_of_ne_drop (by simp)⟩
  | panicked hphase hbetween =>
    exact ⟨h.panic hphase hbetween _, (and_iff_left (calm_of_ne_drop (by simp))).symm⟩
  | recorded hphase =>
    have hnext := h.record_panicking hphase
    refine ⟨hnext, iff_of_true (summaries_agree_of_quiet (hnext.unended_panicking rfl)) ?_⟩
    exact ⟨summaries_agree_of_quiet (h.unended_panicking hphase), calm_of_ne_drop (by simp)⟩
  | dropped hphase =>
    refine ⟨collected_ended h.reached, ?_⟩
    rw [WholeRun.events, emit_events, and_iff_right (summaries_agree_of_quiet (h.unended_panicking hphase))]
    exact h.drop_agrees_iff hphase _

theorem run_collected {config : runtime.ExecutionConfig} {first_seq : Nat} {allowed : WholeRun → RunMove → Prop}
    {moves : List RunMove} (hrun : transition.Run (run_step ctx behave) allowed (initial_run ctx config first_seq) moves w) :
    Collected ctx w := by
  refine hrun.invariant (P := fun _ w => Collected ctx w) ?_ ?_
  · have hquiet : ∀ event ∈ (initial_run ctx config first_seq).events, completion_summary event = none := by
      intro event hevent
      cases List.mem_singleton.mp hevent
      rfl
    exact ⟨⟨[], .nil⟩, fun _ => (initial_llm_records ctx).symm, fun _ _ hpanic => (by cases hpanic), fun _ _ hother => (by cases hother),
      fun _ _ hpanic => (by cases hpanic), fun _ => hquiet⟩
  · exact fun _ _ _ _ _ h _ hstep => (h.step (run_step_cases hstep)).1

end Invariant

end flow_engine.executor
