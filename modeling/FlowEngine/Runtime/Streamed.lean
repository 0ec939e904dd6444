import FlowEngine.Runtime.Watched

namespace flow_engine.runtime

open write_pipeline
open broadcast (Told)
open executor (RunContext Behaviour Live LiveRun TaskId Recorded Accepted script by_task task_ids)
open interleaving (thread SameThreads)

variable {config : ExecutionConfig} {ctx : RunContext} {behave : executor.Task → Behaviour}

section Upcoming

variable {r next : RecordedRun} {p : WritePipeline} {action : RecordedAction}

theorem upcoming_eq_some {id : TaskId} {event : WriteEvent} (h : r.upcoming ctx behave id = some event) :
    r.session.phase ≠ .starting ∧ ∃ task, r.live.loop.running.find? (fun other => other.id = id) = some task ∧ task.id = id ∧
      (script ctx behave task).1[r.live.written id]? = some event := by
  unfold RecordedRun.upcoming at h
  split at h
  · cases h
  · rename_i hphase
    split at h
    · cases h
    · obtain ⟨task, hfind, hevent⟩ := Option.bind_eq_some_iff.mp h
      exact ⟨hphase, task, hfind, by simpa using List.find?_some hfind, hevent⟩

/-- Only a write and the end of an iteration are something to the tasks. -/
theorem RecordedMove.tasks_kept (h : RecordedMove p ctx behave r action next) (hwrite : ∀ id, action ≠ .live (.write id))
    (hspawn : action ≠ .live .spawn) : next.live.written = r.live.written ∧ next.live.loop = r.live.loop := by
  cases h with
  | writes task => exact absurd rfl (hwrite task.id)
  | spawns => exact absurd rfl hspawn
  | _ => exact ⟨rfl, rfl⟩

end Upcoming

variable {s next : WatchedRun} {actions : List WatchedAction} {said : List (Speaker × WriteEvent)}

/-- A task has broadcast what it has written, and the event it writes next if it is ready to write it. -/
structure TasksAhead (ctx : RunContext) (behave : executor.Task → Behaviour) (s : WatchedRun)
    (said : List (Speaker × WriteEvent)) : Prop where
  own : ∀ task, Recorded s.run.live.loop.activations task → thread (.task task.id) said =
    (script ctx behave task).1.take (s.run.live.written task.id + (s.ready task.id).toNat)
  fresh : ∀ id, (∀ task, Recorded s.run.live.loop.activations task → task.id ≠ id) →
    thread (.task id) said = [] ∧ s.ready id = false

section Tasks

/-- What the loop broadcasts is nothing to the tasks. -/
theorem thread_task_loop (id : TaskId) (event : WriteEvent) :
    thread (.task id) (said ++ [(.loop, event)]) = thread (.task id) said := by
  rw [interleaving.thread_append, interleaving.thread_cons_of_ne (fun heq => by cases heq), interleaving.thread_nil,
    List.append_nil]

/-- The tasks that were started, and what they have broadcast, are the same. -/
theorem TasksAhead.keep (h : TasksAhead ctx behave s said) {said' : List (Speaker × WriteEvent)}
    (hsaid : ∀ id, thread (.task id) said' = thread (.task id) said)
    (hactivations : next.run.live.loop.activations = s.run.live.loop.activations)
    (hahead : ∀ id, next.run.live.written id + (next.ready id).toNat = s.run.live.written id + (s.ready id).toNat)
    (hready : ∀ id, s.ready id = false → next.ready id = false) : TasksAhead ctx behave next said' := by
  constructor
  · intro task htask
    rw [hsaid, hahead]
    exact h.own task (hactivations ▸ htask)
  · intro id hid
    rw [hactivations] at hid
    rw [hsaid]
    exact ⟨(h.fresh id hid).1, hready id (h.fresh id hid).2⟩

/-- A task broadcasts the next event of its script. -/
theorem TasksAhead.announce (h : TasksAhead ctx behave s said) {task : executor.Task} {event : WriteEvent}
    (hrecorded : Recorded s.run.live.loop.activations task) (hready : s.ready task.id = false)
    (hevent : (script ctx behave task).1[s.run.live.written task.id]? = some event) (stream : EventStream) :
    TasksAhead ctx behave { s with ready := Function.update s.ready task.id true, stream }
      (said ++ [(.task task.id, event)]) := by
  constructor
  · intro other hother
    rw [interleaving.thread_append, h.own other hother]
    by_cases hid : other.id = task.id
    · cases hother.unique hrecorded hid
      rw [interleaving.thread_cons_self, interleaving.thread_nil]
      dsimp only
      rw [Function.update_self, hready, Bool.toNat_false, Bool.toNat_true, Nat.add_zero, List.take_add_one, hevent]
      rfl
    · have hne : Speaker.task task.id ≠ .task other.id := fun heq => hid (Speaker.task.inj heq).symm
      rw [interleaving.thread_cons_of_ne hne, interleaving.thread_nil, List.append_nil]
      dsimp only
      rw [Function.update_of_ne hid]
  · intro id hid
    have hne : Speaker.task task.id ≠ .task id := fun heq => hid task hrecorded (Speaker.task.inj heq)
    obtain ⟨hsaid, hidle⟩ := h.fresh id hid
    rw [interleaving.thread_append, hsaid, interleaving.thread_cons_of_ne hne]
    exact ⟨rfl, (Function.update_of_ne (hid task hrecorded).symm _ _).trans hidle⟩

/-- The tasks that an iteration starts have broadcast nothing. -/
theorem TasksAhead.spawn (h : TasksAhead ctx behave s said) {more : List executor.Activation}
    (hactivations : next.run.live.loop.activations = s.run.live.loop.activations ++ more)
    (hwritten : next.run.live.written = s.run.live.written) (hready : next.ready = s.ready)
    (hfresh : ∀ id, id ∉ task_ids s.run.live.loop.activations → s.run.live.written id = 0) :
    TasksAhead ctx behave next said := by
  constructor
  · intro task htask
    rw [hactivations] at htask
    rw [hwritten, hready]
    by_cases hid : task.id ∈ task_ids s.run.live.loop.activations
    · exact h.own task (htask.of_mem_task_ids hid)
    · obtain ⟨hsaid, hidle⟩ := h.fresh task.id fun other hother heq => hid (heq ▸ hother.mem_task_ids)
      rw [hsaid, hidle, hfresh task.id hid]
      rfl
  · intro id hid
    rw [hready]
    refine h.fresh id fun task htask => hid task ?_
    rw [hactivations]
    exact htask.append more

variable (haccepted : Accepted ctx)

include haccepted

theorem run_tasks_ahead (hrun : WatchedExecution config ctx behave actions s) :
    TasksAhead ctx behave s (announced config ctx behave actions) := by
  refine hrun.invariant (P := fun actions s => TasksAhead ctx behave s (announced config ctx behave actions)) ?_ ?_
  · refine ⟨fun task _ => ?_, fun id _ => ⟨rfl, rfl⟩⟩
    exact List.take_zero.symm
  intro actions s action next run h _ hstep
  rw [announced_snoc run]
  obtain ⟨⟨moves, hlive⟩, _⟩ := run_projections (watched_recorded run)
  have hin_step := executor.run_in_step hlive
  obtain ⟨cs, hloop⟩ := hin_step.loop_run
  have hledger := executor.run_ledger haccepted hloop
  cases watched_moves hstep with
  | @run action run' hawaits hacted =>
    have hmove := recorded_moves hacted
    cases action with
    | started =>
      obtain ⟨hwritten, hsame⟩ := hmove.tasks_kept (fun _ heq => by cases heq) fun heq => by cases heq
      exact h.keep (thread_task_loop · _) (congrArg executor.RunState.activations hsame)
        (fun id => congrArg (· + _) (congrFun hwritten id)) fun _ hready => hready
    | live move =>
      rw [show announced_at config ctx behave s (.run (.live move)) = none from rfl, Option.toList_none, List.append_nil]
      cases hmove with
      | writes task event hreturned hphase hmoved hfind hevent hsenders =>
        -- what the task was ready to write it has written
        have hready : s.ready task.id = true := by simpa [WatchedRun.awaits] using hawaits
        refine h.keep (fun _ => rfl) rfl (fun id => ?_) fun id hidle => ?_
        · by_cases hid : id = task.id
          · subst hid
            simp [WatchedRun.acted, Live.write, hready]
          · simp [WatchedRun.acted, Live.write, hid]
        · by_cases hid : id = task.id
          · rw [hid]
            exact Function.update_self ..
          · exact (Function.update_of_ne hid ..).trans hidle
      | joins | records => exact h.keep (fun _ => rfl) rfl (fun _ => rfl) fun _ hready => hready
      | spawns state hphase hmoved =>
        have hwithin : s.run.live.iteration = some ⟨state, []⟩ := by
          simp only [executor.live_step] at hmoved
          split at hmoved
          · rename_i reached hwithin
            have hsame : reached = state := congrArg Live.loop (Option.some.inj hmoved)
            rw [hwithin, hsame]
          · cases hmoved
        obtain ⟨_, _, _, _, _, hnext⟩ := hin_step.within _ hwithin
        obtain ⟨more, hmore⟩ := executor.next_state_activations (executor.run_countsBounded hloop) hnext
        exact h.spawn hmore rfl rfl (executor.run_transcribed haccepted hlive).fresh
    | advise | pipeline | finish | shutdown | drop | drop_handle =>
      obtain ⟨hwritten, hsame⟩ := hmove.tasks_kept (fun _ heq => by cases heq) fun heq => by cases heq
      rw [show announced_at config ctx behave s (.run _) = none from rfl, Option.toList_none, List.append_nil]
      exact h.keep (fun _ => rfl) (congrArg executor.RunState.activations hsame)
        (fun id => congrArg (· + _) (congrFun hwritten id)) fun _ hready => hready
  | @announce id event hready hupcoming =>
    obtain ⟨_, task, hfind, rfl, hevent⟩ := upcoming_eq_some hupcoming
    simp only [announced_at, hupcoming, Option.map_some, Option.toList_some]
    exact h.announce (hledger.recorded _ (List.mem_of_find?_eq_some hfind)) hready hevent _
  | @broadcast event hreturned howed =>
    simp only [announced_at, howed, Option.map_some, Option.toList_some]
    exact h.keep (thread_task_loop · event) rfl (fun _ => rfl) fun _ hready => hready
  | watch hstream htaken hsilent =>
    rw [hsilent, Option.toList_none, List.append_nil]
    exact h.keep (fun _ => rfl) rfl (fun _ => rfl) fun _ hready => hready

/-- What a task has broadcast is what the log has of it, and the next event of its script if it is ready to write that. -/
theorem announced_by_task (hrun : WatchedExecution config ctx behave actions s) (id : TaskId) :
    (∃ task, Recorded s.run.live.loop.activations task ∧ task.id = id ∧
      thread (.task id) (announced config ctx behave actions) =
        (s.run.live.log.filter (by_task id)).map executor.Entry.event ++
          ((script ctx behave task).1.drop (s.run.live.written id)).take (s.ready id).toNat) ∨
      thread (.task id) (announced config ctx behave actions) = [] ∧ s.run.live.log.filter (by_task id) = [] := by
  have hahead := run_tasks_ahead haccepted hrun
  obtain ⟨⟨moves, hlive⟩, _⟩ := run_projections (watched_recorded hrun)
  have htranscribed := executor.run_transcribed haccepted hlive
  by_cases hstarted : ∃ task, Recorded s.run.live.loop.activations task ∧ task.id = id
  · obtain ⟨task, htask, rfl⟩ := hstarted
    exact .inl ⟨task, htask, rfl, by rw [hahead.own task htask, htranscribed.own task htask, List.take_add]⟩
  · have hnone : ∀ task, Recorded s.run.live.loop.activations task → task.id ≠ id := fun task htask heq =>
      hstarted ⟨task, htask, heq⟩
    refine .inr ⟨(hahead.fresh id hnone).1, List.filter_eq_nil_iff.mpr fun entry hentry hby => ?_⟩
    unfold by_task at hby
    split at hby
    · rename_i task hwriter
      exact hnone task (htranscribed.writers entry hentry task hwriter) (of_decide_eq_true hby)
    · cases hby

end Tasks

/-- What the loop has written: the start of the run, the edges and LLM calls, and the end. -/
def RecordedRun.spoken (config : ExecutionConfig) (ctx : RunContext) (r : RecordedRun) (cancelled : Bool) : List WriteEvent :=
  (match r.session.phase with
    | .starting => []
    | _ => [run_started config ctx.run_id]) ++
    ((r.live.log.filter by_loop).map executor.Entry.event ++
      (r.session.phase.ending.map fun _ => loop_completed ctx r.live.loop cancelled).toList)

/-- What the loop has still to broadcast. -/
def WatchedRun.owing (s : WatchedRun) : List (Speaker × WriteEvent) := s.owed.toList.map fun event => (.loop, event)

/-- The loop has broadcast what it has written but for what it owes, its start first and its end last. -/
structure LoopBehind (config : ExecutionConfig) (ctx : RunContext) (s : WatchedRun) (said : List (Speaker × WriteEvent))
    (cancelled : Bool) : Prop where
  critical : (thread .loop (said ++ s.owing)).filter WriteEvent.is_critical = s.run.spoken config ctx cancelled
  owes : s.owed ≠ none → s.run.session.phase = .live ∨ ∃ number, s.run.session.phase = .finishing number
  opening : s.run.session.phase = .starting → said = []
  opened : s.run.session.phase ≠ .starting → ∃ later, said = (.loop, run_started config ctx.run_id) :: later
  ends : ∀ number, s.run.session.phase.ending = some number → s.run.live.Over →
    ∃ earlier, said ++ s.owing = earlier ++ [(.loop, loop_completed ctx s.run.live.loop cancelled)]

section Loop

variable {cancelled : Bool} {r : RecordedRun}

theorem spoken_of_ne (h : r.session.phase ≠ .starting) : r.spoken config ctx cancelled =
    run_started config ctx.run_id :: ((r.live.log.filter by_loop).map executor.Entry.event ++
      (r.session.phase.ending.map fun _ => loop_completed ctx r.live.loop cancelled).toList) := by
  rw [RecordedRun.spoken]
  split
  · rename_i hphase
    exact absurd hphase h
  · rfl

theorem spoken_record (hphase : r.session.phase = .live) {live : Live} {pipeline : PipelineState} {entry : executor.Entry}
    (hlog : live.log = r.live.log ++ [entry]) (hby : by_loop entry = true) :
    RecordedRun.spoken config ctx ⟨live, r.session.phase, pipeline⟩ cancelled =
      r.spoken config ctx cancelled ++ [entry.event] := by
  simp [RecordedRun.spoken, hphase, hlog, hby, Phase.ending]

/-- While the channel is open no write of the session is refused. -/
theorem not_refused {p : WritePipeline} (hmanned : Manned p r.session) (hpanics : r.session.pipeline.pc ≠ .panicked)
    (index : Nat) : r.refused index = false := by
  rw [RecordedRun.refused]
  cases hphase : r.session.phase with
  | live =>
    have hopen := (hmanned.open hpanics (by rw [hphase]; rfl)).1
    rw [Phase.is_live, Bool.true_and]
    split
    · rename_i next e hsend
      unfold PipelineState.send at hsend
      split at hsend
      · cases hsend
      · rename_i number event _
        obtain ⟨ch, _, haccept⟩ | ⟨hclosed, _⟩ | ⟨_, haccept⟩ :=
          accept_cases { r.session.pipeline with waiting := r.session.pipeline.waiting.eraseIdx index } .critical number event
        · simp [haccept] at hsend
        · change (r.session.pipeline.channels .critical).receiver = false at hclosed
          rw [hopen] at hclosed
          cases hclosed
        · simp [haccept] at hsend
    · rfl
  | _ => rfl

/-- Nothing changes for the loop. -/
theorem LoopBehind.keep (h : LoopBehind config ctx s said cancelled) (howed : next.owed = s.owed)
    (hphase : next.run.session.phase = s.run.session.phase)
    (hlog : (next.run.live.log.filter by_loop).map executor.Entry.event = (s.run.live.log.filter by_loop).map executor.Entry.event)
    (hloop : s.run.session.phase.ending ≠ none → next.run.live.loop = s.run.live.loop)
    (hover : s.run.session.phase.ending ≠ none → next.run.live.Over → s.run.live.Over) :
    LoopBehind config ctx next said cancelled := by
  have howing : next.owing = s.owing := congrArg (fun owed => owed.toList.map fun event => (Speaker.loop, event)) howed
  constructor
  · rw [howing, h.critical, RecordedRun.spoken, RecordedRun.spoken, hphase, hlog]
    cases hending : s.run.session.phase.ending with
    | none => rfl
    | some number => rw [hloop (by rw [hending]; exact Option.some_ne_none _)]
  · rw [howed, hphase]
    exact h.owes
  · rw [hphase]
    exact h.opening
  · rw [hphase]
    exact h.opened
  · intro number hending hnext
    rw [hphase] at hending
    have hsome : s.run.session.phase.ending ≠ none := by rw [hending]; exact Option.some_ne_none _
    rw [howing, hloop hsome]
    exact h.ends number hending (hover hsome hnext)

/-- The loop has broadcast what it has written, and an action of its own has it write more. -/
theorem LoopBehind.writes (h : LoopBehind config ctx s said cancelled) (howed : s.owed = none)
    (hlive : s.run.session.phase = .live) {after : Bool} {added : List WriteEvent}
    (hspoken : next.run.spoken config ctx after = s.run.spoken config ctx cancelled ++ added)
    (hadded : next.owed.toList.filter WriteEvent.is_critical = added)
    (hphase : next.run.session.phase = .live ∨ ∃ number, next.run.session.phase = .finishing number ∧
      next.owed = some (loop_completed ctx next.run.live.loop after)) : LoopBehind config ctx next said after := by
  have hstarting : next.run.session.phase ≠ .starting := by
    rcases hphase with hphase | ⟨number, hphase, _⟩ <;>
    · rw [hphase]
      exact fun heq => by cases heq
  have hcritical := h.critical
  rw [WatchedRun.owing, howed, Option.toList_none, List.map_nil, List.append_nil] at hcritical
  constructor
  · have howing : thread .loop next.owing = next.owed.toList := by
      rw [WatchedRun.owing]
      cases next.owed with
      | none => rfl
      | some event => exact interleaving.thread_cons_self event
    rw [hspoken, interleaving.thread_append, howing, List.filter_append, hcritical, hadded]
  · exact fun _ => hphase.imp_right fun ⟨number, hfinishing, _⟩ => ⟨number, hfinishing⟩
  · exact fun hother => absurd hother hstarting
  · exact fun _ => h.opened (by rw [hlive]; exact fun heq => by cases heq)
  · intro number hending _
    rcases hphase with hphase | ⟨_, _, hcompleted⟩
    · rw [hphase] at hending
      cases hending
    · exact ⟨said, by rw [WatchedRun.owing, hcompleted]; rfl⟩

/-- The session goes on without a word. -/
theorem LoopBehind.settle (h : LoopBehind config ctx s said cancelled) (howed : s.owed = none) (hnext : next.owed = none)
    (hbefore : s.run.session.phase ≠ .starting) (hafter : next.run.session.phase ≠ .starting)
    (hending : next.run.session.phase.ending = s.run.session.phase.ending)
    (hlog : next.run.live.log = s.run.live.log) (hloop : next.run.live.loop = s.run.live.loop)
    (hiteration : next.run.live.iteration = s.run.live.iteration) : LoopBehind config ctx next said cancelled := by
  have howing : next.owing = s.owing := by rw [WatchedRun.owing, WatchedRun.owing, howed, hnext]
  constructor
  · rw [howing, h.critical, spoken_of_ne hbefore, spoken_of_ne hafter, hending, hlog, hloop]
  · exact fun hsome => absurd hnext hsome
  · exact fun hstarting => absurd hstarting hafter
  · exact fun _ => h.opened hbefore
  · intro number hended hover
    rw [howing, hloop]
    refine h.ends number (hending ▸ hended) ⟨?_, ?_⟩
    · rw [← hiteration]
      exact hover.between
    · rw [← hloop]
      exact hover.running

/-- At the end all is broadcast. -/
theorem LoopBehind.owes_none (h : LoopBehind config ctx s said cancelled) {number : Nat}
    (hphase : s.run.session.phase = .finished number) : s.owed = none := by
  by_contra hsome
  rcases h.owes hsome with hlive | ⟨other, hfinishing⟩
  · rw [hphase] at hlive
    cases hlive
  · rw [hphase] at hfinishing
    cases hfinishing

/-- The session broadcasts its start. -/
theorem LoopBehind.started (h : LoopBehind config ctx s said cancelled) (hphase : s.run.session.phase = .starting)
    (pipeline : PipelineState) :
    LoopBehind config ctx (s.acted config ctx .started ⟨s.run.live, .live, pipeline⟩)
      (said ++ [(.loop, run_started config ctx.run_id)]) cancelled := by
  have howed : s.owed = none := by
    by_contra hsome
    rcases h.owes hsome with hlive | ⟨number, hfinishing⟩
    · rw [hphase] at hlive
      cases hlive
    · rw [hphase] at hfinishing
      cases hfinishing
  have hcritical := h.critical
  simp only [h.opening hphase, WatchedRun.owing, howed, RecordedRun.spoken, hphase, Phase.ending, Option.toList_none,
    List.map_nil, List.append_nil, List.nil_append, interleaving.thread_nil, List.filter_nil, Option.map_none] at hcritical
  have howing : (s.acted config ctx .started ⟨s.run.live, .live, pipeline⟩).owing = [] :=
    congrArg (fun owed => owed.toList.map fun event => (Speaker.loop, event)) howed
  rw [h.opening hphase]
  constructor
  · rw [howing, spoken_of_ne fun heq => by cases heq]
    simp only [WatchedRun.acted, ← hcritical]
    rfl
  · exact fun hsome => absurd howed hsome
  · intro hother
    cases hother
  · exact fun _ => ⟨[], rfl⟩
  · intro number hending
    cases hending

/-- Any other action broadcasts nothing. -/
theorem LoopBehind.acted {p : WritePipeline} {action : RecordedAction} {run : RecordedRun}
    (h : LoopBehind config ctx s said cancelled) (hmove : RecordedMove p ctx behave s.run action run)
    (hstarted : action ≠ .started) (hawaits : s.awaits action = false) (hmanned : Manned p s.run.session)
    (hpanics : s.run.session.pipeline.pc ≠ .panicked) (hown : ∀ event ∈ s.run.live.unwritten, executor.Own ctx.run_id event) :
    LoopBehind config ctx (s.acted config ctx action run) said (action.verdict cancelled) := by
  have hfree : s.owed.isSome = false → s.owed = none := fun hnone => by simpa using hnone
  cases hmove with
  | started => exact absurd rfl hstarted
  | writes task event hreturned hphase hmoved hfind hevent hsenders =>
    refine h.keep rfl rfl ?_ (fun _ => rfl) fun _ hover => ⟨hover.between, hover.running⟩
    simp [WatchedRun.acted, Live.write, by_loop]
  | joins task state hreturned hphase hmoved =>
    refine h.keep rfl rfl rfl (fun _ => rfl) fun hending => ?_
    rw [hphase] at hending
    exact absurd rfl hending
  | records state event rest hreturned hphase hmoved hwithin hsenders =>
    have hcritical : event.is_critical = true := (hown event (by simp [Live.unwritten, hwithin])).critical
    have howes : s.owes ctx (.live .record) = some event := by simp [WatchedRun.owes, hwithin]
    have hadded : (s.owes ctx (.live .record)).toList.filter WriteEvent.is_critical = [event] := by
      rw [howes, Option.toList_some, List.filter_cons_of_pos hcritical, List.filter_nil]
    exact h.writes (hfree hawaits) hphase (spoken_record hphase rfl rfl) hadded (.inl hphase)
  | spawns state hphase hmoved =>
    have hending : ¬ s.run.session.phase.ending ≠ none := by rw [hphase]; exact fun hne => hne rfl
    exact h.keep rfl rfl rfl (fun hne => absurd hne hending) fun hne => absurd hne hending
  | advises event pipeline hadvisory hphase htry =>
    simp only [WatchedRun.awaits, Bool.or_eq_false_iff, Bool.not_eq_false'] at hawaits
    have hadded : (s.owes ctx (.advise event)).toList.filter WriteEvent.is_critical = [] := by
      rw [WatchedRun.owes]
      split
      · simp [hadvisory]
      · rfl
    refine h.writes (hfree hawaits.1) (Phase.eq_live hawaits.2) ?_ hadded (.inl (Phase.eq_live hawaits.2))
    rw [List.append_nil]
    rfl
  | pipeline action pipeline hallows hkind hstep =>
    refine h.keep ?_ rfl rfl (fun _ => rfl) fun _ hover => hover
    cases action with
    | send index => exact if_neg (by rw [not_refused hmanned hpanics]; exact Bool.false_ne_true)
    | _ => rfl
  | finishes after hreturned hphase hbetween =>
    have hne : s.run.session.phase ≠ .starting := by rw [hphase]; exact fun heq => by cases heq
    have hadded : (s.owes ctx (.finish after)).toList.filter WriteEvent.is_critical =
        [loop_completed ctx s.run.live.loop after] := rfl
    refine h.writes (hfree hawaits) hphase ?_ hadded (.inr ⟨_, rfl, rfl⟩)
    rw [spoken_of_ne hne, spoken_of_ne fun heq => by cases heq]
    simp [WatchedRun.acted, Live.draw, hphase, Phase.ending, RecordedAction.verdict]
  | shutdown number pipeline hphase hsent hshutdown =>
    have hne : s.run.session.phase ≠ .starting := by rw [hphase]; exact fun heq => by cases heq
    exact h.settle (hfree hawaits) (hfree hawaits) hne (fun heq => by cases heq) (by rw [hphase]; rfl) rfl rfl rfl
  | drops completed hphase =>
    have hne : s.run.session.phase ≠ .starting := by rw [hphase]; exact fun heq => by cases heq
    exact h.settle (hfree hawaits) (hfree hawaits) hne (fun heq => by cases heq) (by rw [hphase]; rfl) rfl rfl rfl
  | drops_handle completed pipeline hphase hdrop =>
    exact h.keep rfl hphase.symm rfl (fun _ => rfl) fun _ hover => hover

theorem run_loop_behind (hrun : WatchedExecution config ctx behave actions s)
    (hpanics : s.run.session.pipeline.pc ≠ .panicked) :
    LoopBehind config ctx s (announced config ctx behave actions) (was_cancelled (recorded_actions actions)) := by
  refine hrun.invariant (P := fun actions s => s.run.session.pipeline.pc ≠ .panicked →
    LoopBehind config ctx s (announced config ctx behave actions) (was_cancelled (recorded_actions actions))) ?_ ?_ hpanics
  · intro _
    refine ⟨rfl, fun hsome => absurd rfl hsome, fun _ => rfl, fun hother => absurd rfl hother, ?_⟩
    intro number hending
    cases hending
  intro actions s action next run hbefore _ hstep hnext
  rw [announced_snoc run]
  obtain ⟨⟨moves, hlive⟩, hpipeline⟩ := run_projections (watched_recorded run)
  rw [recorded_actions_snoc]
  cases watched_moves hstep with
  | @run action run' hawaits hacted =>
    have hmove := recorded_moves hacted
    have halive := hmove.panicked hnext
    have h := hbefore halive
    rw [show recorded_actions [.run action] = [action] from rfl, was_cancelled_snoc]
    by_cases hstarted : action = .started
    · subst hstarted
      cases hmove with
      | started pipeline hphase hsend => exact h.started hphase pipeline
    · have hsilent : announced_at config ctx behave s (.run action) = none := by
        cases action with
        | started => exact absurd rfl hstarted
        | _ => rfl
      rw [hsilent, Option.toList_none, List.append_nil]
      exact h.acted hmove hstarted hawaits (hpipeline halive).1 halive (executor.run_own hlive).2
  | @announce id event hready hupcoming =>
    have h := hbefore hnext
    obtain ⟨hphase, task, hfind, _⟩ := upcoming_eq_some hupcoming
    rw [show recorded_actions [.announce id] = [] from rfl, List.append_nil, announced_at, hupcoming, Option.map_some,
      Option.toList_some]
    have hloop : ∀ rest, thread .loop ((Speaker.task id, event) :: rest) = thread .loop rest := fun rest =>
      interleaving.thread_cons_of_ne (fun heq => by cases heq) event
    refine ⟨?_, h.owes, fun hstarting => absurd hstarting hphase, fun _ => ?_, fun number _ hover => ?_⟩
    · rw [List.append_assoc, interleaving.thread_append, List.singleton_append, hloop, ← interleaving.thread_append]
      exact h.critical
    · obtain ⟨later, hlater⟩ := h.opened hphase
      exact ⟨later ++ [(.task id, event)], by rw [hlater]; rfl⟩
    · have hnone : s.run.live.loop.running = [] := hover.running
      rw [hnone] at hfind
      cases hfind
  | @broadcast event hreturned howed =>
    have h := hbefore hnext
    rw [show recorded_actions [.broadcast] = [] from rfl, List.append_nil]
    have hsame : announced config ctx behave actions ++ (announced_at config ctx behave s .broadcast).toList ++ [] =
        announced config ctx behave actions ++ s.owing := by
      rw [List.append_nil, announced_at, WatchedRun.owing, Option.toList_map]
    refine ⟨?_, fun hsome => absurd rfl hsome, fun hstarting => ?_, fun hother => ?_, fun number hending hover => ?_⟩
    · exact (congrArg (fun said => (thread .loop said).filter WriteEvent.is_critical) hsame).trans h.critical
    · rcases h.owes (by rw [howed]; exact Option.some_ne_none _) with hlive | ⟨number, hfinishing⟩
      · exact absurd (hlive.symm.trans hstarting) fun heq => by cases heq
      · exact absurd (hfinishing.symm.trans hstarting) fun heq => by cases heq
    · obtain ⟨later, hlater⟩ := h.opened hother
      exact ⟨later ++ (announced_at config ctx behave s .broadcast).toList, by rw [hlater]; rfl⟩
    · obtain ⟨earlier, hearlier⟩ := h.ends number hending hover
      exact ⟨earlier, hsame.trans hearlier⟩
  | watch hstream htaken hsilent hother =>
    rw [hother, hsilent, List.append_nil, Option.toList_none, List.append_nil]
    exact (hbefore hnext).keep rfl rfl rfl (fun _ => rfl) fun _ hover => hover

end Loop

/-- The stream has of each writer what the log has, but for the event that a task broadcasts before it
writes it, and for the one that the loop has written and has still to broadcast. -/
structure Streamed (config : ExecutionConfig) (ctx : RunContext) (s : WatchedRun) (said : List (Speaker × WriteEvent))
    (cancelled : Bool) : Prop where
  tasks : ∀ id, ∃ ahead, thread (.task id) said = (s.run.live.log.filter (by_task id)).map executor.Entry.event ++ ahead ∧
    ahead.length ≤ (s.ready id).toNat
  loop : (thread .loop said ++ s.owed.toList).filter WriteEvent.is_critical = s.run.spoken config ctx cancelled

/-- Who has written an entry of the log. -/
def speaker (entry : executor.Entry) : Speaker :=
  match entry.writer with
  | .task task => .task task.id
  | .loop _ => .loop

/-- What a finished run has written, by whom, in the order of the numbers. -/
def RecordedRun.logged (config : ExecutionConfig) (ctx : RunContext) (r : RecordedRun) (cancelled : Bool) :
    List (Speaker × WriteEvent) :=
  (.loop, run_started config ctx.run_id) :: (r.live.log.map (fun entry => (speaker entry, entry.event)) ++
    [(.loop, loop_completed ctx r.live.loop cancelled)])

section Finished

theorem speaker_eq_task {entry : executor.Entry} {id : TaskId} : speaker entry = .task id ↔ by_task id entry = true := by
  unfold speaker by_task
  cases entry.writer <;> simp

theorem speaker_eq_loop {entry : executor.Entry} : speaker entry = .loop ↔ by_loop entry = true := by
  unfold speaker by_loop
  cases entry.writer <;> simp

theorem thread_owing : thread .loop s.owing = s.owed.toList := by
  rw [WatchedRun.owing]
  cases s.owed with
  | none => rfl
  | some event => exact interleaving.thread_cons_self event

theorem thread_logged_task {r : RecordedRun} {cancelled : Bool} (id : TaskId) : thread (.task id) (r.logged config ctx cancelled) =
    (r.live.log.filter (by_task id)).map executor.Entry.event := by
  have hloop : Speaker.loop ≠ .task id := fun heq => by cases heq
  rw [RecordedRun.logged, interleaving.thread_cons_of_ne hloop, interleaving.thread_append, interleaving.thread_cons_of_ne hloop,
    interleaving.thread_nil, List.append_nil, interleaving.thread_map]
  simp only [speaker_eq_task, Bool.decide_eq_true]

theorem thread_logged_loop {r : RecordedRun} {cancelled : Bool} : thread .loop (r.logged config ctx cancelled) =
    run_started config ctx.run_id :: ((r.live.log.filter by_loop).map executor.Entry.event ++
      [loop_completed ctx r.live.loop cancelled]) := by
  rw [RecordedRun.logged, interleaving.thread_cons_self, interleaving.thread_append, interleaving.thread_cons_self,
    interleaving.thread_nil, interleaving.thread_map]
  simp only [speaker_eq_loop, Bool.decide_eq_true]

variable (haccepted : Accepted ctx)

include haccepted

omit haccepted in
/-- What receivers make of the events is none of the stream's. -/
theorem nothing_pending (hrun : WatchedExecution config ctx behave actions s) {index : Nat} {r : Unit × broadcast.Reader Unit}
    (hreader : s.stream.readers[index]? = some r) : r.2.pending = none := by
  obtain ⟨_, _, _, _, hhanded⟩ := broadcast.run_reads stream_fresh (stream_run hrun) hreader
  rw [List.filterMap_none, List.append_eq_nil_iff] at hhanded
  exact Option.toList_eq_nil_iff.mp hhanded.2

/-- At every moment of every run the live stream tells what the log tells, and each receiver is told
what is broadcast since it has subscribed, in order and but for what it is told it has missed. -/
theorem run_streamed (hrun : WatchedExecution config ctx behave actions s)
    (hpanics : s.run.session.pipeline.pc ≠ .panicked) :
    Streamed config ctx s (announced config ctx behave actions) (was_cancelled (recorded_actions actions)) ∧
      ∀ index r, s.stream.readers[index]? = some r → ∃ read rest, offered config ctx behave index actions = read ++ rest ∧
        broadcast.Covers read (received config ctx behave index actions) := by
  refine ⟨⟨fun id => ?_, ?_⟩, fun index r hreader => ?_⟩
  · rcases announced_by_task haccepted hrun id with ⟨task, _, _, hthread⟩ | ⟨hthread, hlog⟩
    · exact ⟨_, hthread, List.length_take_le _ _⟩
    · exact ⟨[], by rw [hthread, hlog]; rfl, Nat.zero_le _⟩
  · have hcritical := (run_loop_behind hrun hpanics).critical
    rwa [interleaving.thread_append, thread_owing] at hcritical
  · obtain ⟨read, rest, hsplit, hcovers, _⟩ := broadcast.run_reads stream_fresh (stream_run hrun) hreader
    rw [offered_eq hrun, received_eq hrun]
    exact ⟨read, rest, hsplit, hcovers⟩

/-- The stream of a finished run has begun with its start and ended with its end, and its critical events
are those of the log, with the events of each writer in the same order. -/
theorem finished_streamed (hrun : WatchedExecution config ctx behave actions s) {number : Nat} (hfinished : Finished s.run number) :
    (∃ middle, announced config ctx behave actions = (.loop, run_started config ctx.run_id) :: (middle ++
      [(.loop, loop_completed ctx s.run.live.loop (was_cancelled (recorded_actions actions)))])) ∧
      SameThreads ((announced config ctx behave actions).filter fun said => said.2.is_critical)
        (s.run.logged config ctx (was_cancelled (recorded_actions actions))) := by
  have hbehind := run_loop_behind hrun hfinished.lives
  have hne : s.run.session.phase ≠ .starting := by rw [hfinished.phase]; exact fun heq => by cases heq
  have howed := hbehind.owes_none hfinished.phase
  have howing : s.owing = [] := by rw [WatchedRun.owing, howed]; rfl
  obtain ⟨⟨moves, hlive⟩, _⟩ := run_projections (watched_recorded hrun)
  constructor
  · obtain ⟨later, hlater⟩ := hbehind.opened hne
    obtain ⟨earlier, hearlier⟩ := hbehind.ends number (by rw [hfinished.phase]; rfl) hfinished.quiet
    rw [howing, List.append_nil] at hearlier
    cases earlier with
    | nil => exact absurd (hlater.symm.trans hearlier) fun heq => by cases heq
    | cons first middle =>
      obtain ⟨_, hrest⟩ := List.cons.inj (hlater.symm.trans hearlier)
      exact ⟨middle, hlater.trans (congrArg _ hrest)⟩
  · intro k
    rw [interleaving.thread_filter (fun event : WriteEvent => event.is_critical)]
    cases k with
    | task id =>
      have hcritical : ((s.run.live.log.filter (by_task id)).map executor.Entry.event).filter WriteEvent.is_critical =
          (s.run.live.log.filter (by_task id)).map executor.Entry.event := by
        refine List.filter_eq_self.mpr fun event hevent => ?_
        obtain ⟨entry, hentry, rfl⟩ := List.mem_map.mp hevent
        exact ((executor.run_own hlive).1 entry (List.mem_filter.mp hentry).1).critical
      rw [thread_logged_task]
      rcases announced_by_task haccepted hrun id with ⟨task, htask, rfl, hthread⟩ | ⟨hthread, hlog⟩
      · -- the task was joined, so it has nothing left to write
        have hends := (executor.run_in_step hlive).in_flight_or_joined haccepted htask
        rw [executor.ahead_eq_loop hfinished.quiet.between, hfinished.quiet.running] at hends
        obtain ⟨j, hj, hid⟩ := hends.resolve_left List.not_mem_nil
        obtain ⟨hjoined, hwritten⟩ := (executor.run_transcribed haccepted hlive).finished j hj
        cases hjoined.unique htask hid
        rw [hthread, hwritten, List.drop_length, List.take_nil, List.append_nil]
        exact hcritical
      · rw [hthread, hlog]
        rfl
    | loop =>
      have hcritical := hbehind.critical
      rw [howing, List.append_nil] at hcritical
      rw [hcritical, spoken_of_ne hne, thread_logged_loop, hfinished.phase]
      rfl

omit haccepted in
/-- What was written is what is logged, under numbers. -/
theorem written_of_logged {R : WriteEvent → WriteEvent → Prop} {r : RecordedRun} {number : Nat} {cancelled : Bool}
    {stored : List WriteEvent} (h : List.Forall₂ R (r.written config ctx number cancelled) stored) :
    List.Forall₂ (fun event stored => ∃ seq, R (event.set_seq seq) stored) ((r.logged config ctx cancelled).map Prod.snd) stored := by
  obtain ⟨numbered, hwritten, hlogged⟩ : ∃ numbered : List (Nat × WriteEvent),
      r.written config ctx number cancelled = numbered.map (fun entry => entry.2.set_seq entry.1) ∧
        (r.logged config ctx cancelled).map Prod.snd = numbered.map Prod.snd :=
    ⟨(1, run_started config ctx.run_id) :: (r.live.log.map (fun entry => (entry.seq, entry.event)) ++
      [(number, loop_completed ctx r.live.loop cancelled)]), by simp [RecordedRun.written, executor.Entry.numbered],
      by simp [RecordedRun.logged]⟩
  rw [hwritten, List.forall₂_map_left_iff] at h
  rw [hlogged, List.forall₂_map_left_iff]
  exact h.imp fun entry _ hmatch => ⟨entry.1, hmatch⟩

/-- A client of the session's handle that has kept up and has nothing left to receive has seen all of a
finished run: its start first, its end last, the events of each writer in the order of the log, and one
by one those that the store holds, before they were numbered and redacted. -/
theorem watcher_sees_run (hrun : WatchedExecution config ctx behave actions s) {number : Nat}
    (hfinished : Finished s.run number) {r : Unit × broadcast.Reader Unit} (hreader : s.stream.readers[0]? = some r)
    (hrunning : r.2.stopped = false) (hdone : stream_step s.stream (.receive 0) = none)
    (hprompt : ∀ missed, Told.lagged missed ∉ received config ctx behave 0 actions) :
    ∃ cancelled said, (received config ctx behave 0 actions).filterMap Told.value? = said.map Prod.snd ∧
      (∃ middle, said = (Speaker.loop, run_started config ctx.run_id) :: (middle ++
        [(.loop, loop_completed ctx s.run.live.loop cancelled)])) ∧
      SameThreads (said.filter fun said => said.2.is_critical) (s.run.logged config ctx cancelled) ∧
      ∃ seen, seen.Perm ((said.map Prod.snd).filter WriteEvent.is_critical) ∧
        List.Forall₂ (fun event stored => ∃ seq, redact_event config.redactor (fun _ => none) (event.set_seq seq) = some stored)
          seen s.run.session.critical_log := by
  obtain ⟨hends, hthreads⟩ := finished_streamed haccepted hrun hfinished
  obtain ⟨sources, hperm, hmatch, hascending⟩ := written_stored haccepted (watched_recorded hrun) hfinished
  have hlog := critical_log_matches hperm hmatch hascending
  have hcovers := broadcast.run_read_up stream_fresh (stream_run hrun) hreader hrunning (nothing_pending hrun hreader) hdone
  rw [← offered_eq hrun, ← received_eq hrun, offered_announced hrun] at hcovers
  refine ⟨_, announced config ctx behave actions, hcovers.complete hprompt, hends, hthreads, _, ?_, written_of_logged hlog⟩
  have hsame := (hthreads.perm.map Prod.snd).symm
  rw [List.filter_map]
  exact hsame

end Finished

open executor (Move partial_failure_sample partial_failure_behaviour partial_failure_moves)

/-- Each task broadcasts before it writes, and the loop after it has written. -/
def watched_moves_of (moves : List Move) : List WatchedAction :=
  moves.flatMap fun move => match move with
    | .write id => [.announce id, .run (.live move), .run (.pipeline (.send 0))]
    | .record => [.run (.live move), .run (.pipeline (.send 0)), .broadcast]
    | _ => [.run (.live move)]

/-- The flow with a failing instance runs, and the client receives its events when it has ended. -/
def watched_actions : List WatchedAction :=
  .run .started :: (watched_moves_of partial_failure_moves ++
    [.run (.finish false), .run (.pipeline (.send 0)), .broadcast, .run .shutdown] ++
    List.replicate 18 (.run (.pipeline (.proceed false))) ++ List.replicate 11 (.receive 0))

abbrev SampleExecution : List WatchedAction → WatchedRun → Prop :=
  WatchedExecution partial_failure_config partial_failure_sample partial_failure_behaviour

/-- How a run has ended, which receivers have stopped, and whether the first has nothing left to receive. -/
structure WatchedSummary where
  run : Bool × Option Nat × Nat × List (String × Nat)
  stopped : List Bool
  done : Bool
  deriving DecidableEq

def WatchedRun.summary (s : WatchedRun) : WatchedSummary :=
  ⟨s.run.summary, s.stream.readers.map fun r => r.2.stopped, (stream_step s.stream (.receive 0)).isNone⟩

theorem partial_failure_watched : ∃ s, SampleExecution watched_actions s ∧ Finished s.run 11 ∧
    (∃ r, s.stream.readers[0]? = some r ∧ r.2.stopped = false) ∧ stream_step s.stream (.receive 0) = none := by
  have hsummary : (watched_actions.foldlM
      (watched_step partial_failure_config partial_failure_sample partial_failure_behaviour
        (session_pipeline partial_failure_config fun _ => false))
      (watched_start partial_failure_config partial_failure_sample
        (session_pipeline partial_failure_config fun _ => false))).map WatchedRun.summary =
      some ⟨(true, some 11, 12, partial_failure_keys), [false], true⟩ := by
    decide +kernel
  obtain ⟨s, hfold, hs⟩ := Option.map_eq_some_iff.mp hsummary
  obtain ⟨hrun, hreaders, hdone⟩ := WatchedSummary.mk.inj hs
  rw [Option.isNone_iff_eq_none] at hdone
  obtain ⟨hover, hphase, hreturned, hnext, _⟩ := summary_finished hrun
  refine ⟨s, transition.run_of_foldlM hfold, ⟨hover, hphase, hreturned, by rw [hnext]; decide⟩, ?_, hdone⟩
  obtain ⟨r, hr, hstopped⟩ := List.map_eq_singleton_iff.mp hreaders
  exact ⟨r, by rw [hr]; rfl, hstopped⟩

theorem run_streamed_sample : ∃ s, SampleExecution watched_actions s ∧
    Streamed partial_failure_config partial_failure_sample s
      (announced partial_failure_config partial_failure_sample partial_failure_behaviour watched_actions)
      (was_cancelled (recorded_actions watched_actions)) := by
  obtain ⟨s, hrun, hfinished, _⟩ := partial_failure_watched
  exact ⟨s, hrun, (run_streamed partial_failure_accepted hrun hfinished.lives).1⟩

theorem watcher_sees_run_sample : ∃ s, SampleExecution watched_actions s ∧
    (received partial_failure_config partial_failure_sample partial_failure_behaviour 0 watched_actions).length = 11 ∧
    ∃ (cancelled : Bool) (said : List (Speaker × WriteEvent)),
      (received partial_failure_config partial_failure_sample partial_failure_behaviour 0 watched_actions).filterMap
        Told.value? = said.map Prod.snd ∧
      SameThreads (said.filter fun said => said.2.is_critical)
        (s.run.logged partial_failure_config partial_failure_sample cancelled) := by
  obtain ⟨s, hrun, hfinished, ⟨r, hreader, hrunning⟩, hdone⟩ := partial_failure_watched
  have hvalues : ((received partial_failure_config partial_failure_sample partial_failure_behaviour 0 watched_actions).map
      fun told => told.value?.isSome) = List.replicate 11 true := by
    decide +kernel
  have hprompt : ∀ missed, Told.lagged missed ∉
      received partial_failure_config partial_failure_sample partial_failure_behaviour 0 watched_actions := by
    intro missed hmem
    have hfalse := List.mem_map_of_mem (f := fun told : Told WriteEvent => told.value?.isSome) hmem
    rw [hvalues] at hfalse
    exact absurd (List.eq_of_mem_replicate hfalse) Bool.false_ne_true
  obtain ⟨cancelled, said, hsaid, _, hthreads, _⟩ := watcher_sees_run partial_failure_accepted
    hrun hfinished hreader hrunning hdone hprompt
  exact ⟨s, hrun, by simpa using congrArg List.length hvalues, cancelled, said, hsaid, hthreads⟩

end flow_engine.runtime
