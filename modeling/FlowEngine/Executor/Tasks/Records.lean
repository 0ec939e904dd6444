import FlowEngine.Executor.Tasks.Scripts
import FlowEngine.Executor.Started
import FlowEngine.Executor.Traversals
import FlowEngine.Executor.Dag.Steps

namespace flow_engine.executor

/-- A task was joined with an outcome. -/
def Joined (joins : List (Task × JoinResult)) (task : Task) (outcome : NodeOutcome) : Prop :=
  ∃ records, (task, .returned outcome records) ∈ joins

/-- The joined tasks as the loop processed them. -/
def completions (joins : List (Task × JoinResult)) : List Completion := joins.map fun j => ⟨j.1.id, j.2⟩

/-- A task in flight is joined with one of the results. -/
def JoinsOneOf (joins : List (Task × JoinResult)) (s : RunState) (c : Completion) : Prop :=
  ∃ task, s.running.find? (fun task => task.id = c.task) = some task ∧ (task, c.joined) ∈ joins

/-- The runs of the loop that join tasks with these results. -/
abbrev LoopRun (ctx : RunContext) (joins : List (Task × JoinResult)) : List Completion → RunState → Prop :=
  transition.Run (next_state ctx) (JoinsOneOf joins) (initial_state ctx)

/-- The loop has processed the joined tasks, the last one in the iteration under way. -/
structure InStep (ctx : RunContext) (behave : Task → Behaviour) (x : Live) : Prop where
  between : x.iteration = none → LoopRun ctx x.joins (completions x.joins) x.loop
  within : ∀ iteration, x.iteration = some iteration → ∃ before task,
    x.joins = before ++ [(task, (script ctx behave task).2)] ∧
    LoopRun ctx before (completions before) x.loop ∧
    JoinsOneOf x.joins x.loop ⟨task.id, (script ctx behave task).2⟩ ∧
    next_state ctx x.loop ⟨task.id, (script ctx behave task).2⟩ = some iteration.next

theorem loop_run_mono {ctx : RunContext} {joins more : List (Task × JoinResult)} {cs : List Completion} {s : RunState}
    (hrun : LoopRun ctx joins cs s) : LoopRun ctx (joins ++ more) cs s := by
  refine transition.Run.mono ?_ hrun
  rintro s c ⟨task, hfind, hmem⟩
  exact ⟨task, hfind, List.mem_append_left _ hmem⟩

section InStep

variable {ctx : RunContext} {behave : Task → Behaviour} {x : Live}

/-- The state of the loop ahead is the one after the joined tasks. -/
theorem InStep.ahead_run (h : InStep ctx behave x) : LoopRun ctx x.joins (completions x.joins) x.ahead := by
  unfold Live.ahead
  cases hiteration : x.iteration with
  | none => exact h.between hiteration
  | some iteration =>
    obtain ⟨before, task, hjoins, hrun, hjoin, hstep⟩ := h.within iteration hiteration
    have hcompletions : completions x.joins = completions before ++ [⟨task.id, (script ctx behave task).2⟩] := by
      rw [hjoins]
      simp [completions]
    rw [hcompletions]
    exact (hjoins ▸ loop_run_mono hrun).snoc hjoin hstep

theorem InStep.loop_run (h : InStep ctx behave x) : ∃ cs, LoopRun ctx x.joins cs x.loop := by
  cases hiteration : x.iteration with
  | none => exact ⟨_, h.between hiteration⟩
  | some iteration =>
    obtain ⟨before, task, hjoins, hrun, _, _⟩ := h.within iteration hiteration
    exact ⟨_, hjoins ▸ loop_run_mono hrun⟩

theorem InStep.step (h : InStep ctx behave x) {y : Live} (hcase : MoveCase ctx behave x y) : InStep ctx behave y := by
  cases hcase with
  | write hfind hevent => exact ⟨h.between, h.within⟩
  | @join task next hbetween hfind hwritten hstep =>
    refine ⟨?_, ?_⟩
    · intro hnone
      cases hnone
    intro iteration hsome
    cases hsome
    exact ⟨x.joins, task, rfl, h.between hbetween,
      ⟨task, hfind, List.mem_append_right _ (List.mem_singleton_self _)⟩, hstep⟩
  | @record next event rest hwithin =>
    refine ⟨?_, ?_⟩
    · intro hnone
      cases hnone
    intro iteration hsome
    cases hsome
    obtain ⟨before, task, hjoins, hreached, hjoin, hstep⟩ := h.within _ hwithin
    exact ⟨before, task, hjoins, hreached, hjoin, hstep⟩
  | @spawn next hwithin =>
    refine ⟨fun _ => ?_, fun _ hsome => nomatch hsome⟩
    have hrun := h.ahead_run
    rwa [Live.ahead, hwithin] at hrun
  | draw => exact ⟨h.between, h.within⟩

theorem run_in_step {first_seq : Nat} {moves : List Move} (hrun : LiveRun ctx behave first_seq moves x) :
    InStep ctx behave x := by
  refine hrun.invariant (P := fun _ x => InStep ctx behave x) ?_ ?_
  · exact ⟨fun _ => .nil, fun _ hsome => nomatch hsome⟩
  · exact fun _ _ _ _ _ h _ hstep => h.step (live_step_cases hstep)

/-- A task is joined with the result of its script. -/
theorem run_joins_scripted {first_seq : Nat} {moves : List Move} (hrun : LiveRun ctx behave first_seq moves x) :
    ∀ j ∈ x.joins, j.2 = (script ctx behave j.1).2 := by
  refine hrun.invariant (P := fun _ x => ∀ j ∈ x.joins, j.2 = (script ctx behave j.1).2) (by simp [initial_live]) ?_
  intro moves x move y _ h _ hstep
  cases live_step_cases hstep with
  | @join task next hbetween hfind hwritten hnext =>
    intro j hj
    cases List.mem_append.mp hj with
    | inl hold => exact h j hold
    | inr hlast =>
      rw [List.mem_singleton.mp hlast]
  | write hfind hevent => exact h
  | record hwithin => exact h
  | spawn hwithin => exact h
  | draw => exact h

/-- Where no handler panics the tasks are joined with outcomes. -/
theorem run_of_loop_run (hpanic : ∀ task, (behave task).NoPanic) {joins : List (Task × JoinResult)}
    (hscripted : ∀ j ∈ joins, j.2 = (script ctx behave j.1).2) {cs : List Completion} {s : RunState}
    (hrun : LoopRun ctx joins cs s) : RunOf ctx (Joined joins) cs s := by
  refine transition.Run.mono ?_ hrun
  rintro s c ⟨task, hfind, hmem⟩
  obtain ⟨outcome, records, hreturned, _⟩ := @script_ending ctx behave task (hpanic task)
  have hjoined : c.joined = .returned outcome records := (hscripted _ hmem).trans hreturned
  exact ⟨task, hfind, outcome, records, hjoined, records, hjoined ▸ hmem⟩

theorem run_ahead (hpanic : ∀ task, (behave task).NoPanic) {first_seq : Nat} {moves : List Move}
    (hrun : LiveRun ctx behave first_seq moves x) : RunOf ctx (Joined x.joins) (completions x.joins) x.ahead :=
  run_of_loop_run hpanic (run_joins_scripted hrun) (run_in_step hrun).ahead_run

end InStep

/-- An entry of the task with the id. -/
def by_task (id : TaskId) (entry : Entry) : Bool :=
  match entry.writer with
  | .task task => decide (task.id = id)
  | .loop _ => false

/-- The log holds of every task the part of its script that it has written, and of the loop
no event of a node; it is in the order of the numbers. -/
structure Transcribed (ctx : RunContext) (behave : Task → Behaviour) (x : Live) : Prop where
  own : ∀ task, Recorded x.loop.activations task →
    (x.log.filter (by_task task.id)).map Entry.event = (script ctx behave task).1.take (x.written task.id)
  writers : ∀ entry ∈ x.log, ∀ task, entry.writer = .task task → Recorded x.loop.activations task
  loops : ∀ entry ∈ x.log, ∀ nodes, entry.writer = .loop nodes →
    event_node entry.event = none ∧ ∀ n ∈ nodes, n ∈ started x.ahead
  unwritten : ∀ iteration, x.iteration = some iteration → ∀ event ∈ iteration.unwritten, event_node event = none
  fresh : ∀ id, id ∉ task_ids x.loop.activations → x.written id = 0
  finished : ∀ j ∈ x.joins, Recorded x.loop.activations j.1 ∧ x.written j.1.id = (script ctx behave j.1).1.length
  numbered : x.log.Pairwise fun earlier later => earlier.seq < later.seq
  below : ∀ entry ∈ x.log, entry.seq < x.seq

/-- A task is determined by its id. -/
theorem Recorded.unique {activations : List Activation} {task other : Task} (h : Recorded activations task)
    (hother : Recorded activations other) (hid : task.id = other.id) : task = other := by
  obtain ⟨work, hget, hwork⟩ := h
  obtain ⟨work', hget', hwork'⟩ := hother
  rw [hid, hget'] at hget
  obtain ⟨hnode, rfl⟩ := Activation.mk.inj (Option.some.inj hget)
  obtain ⟨id, node_id, fan_out_index, inputs⟩ := task
  obtain ⟨id', node_id', fan_out_index', inputs'⟩ := other
  cases hid
  cases hnode
  cases hwork with
  | plain hinputs hposition hindex =>
    cases hwork' with
    | plain hinputs' hposition' hindex' =>
      cases hinputs.trans hinputs'.symm
      cases hindex.trans hindex'.symm
      rfl
  | fan_out hitem hindex =>
    cases hwork' with
    | fan_out hitem' hindex' =>
      cases hitem.symm.trans hitem'
      cases hindex.trans hindex'.symm
      rfl

theorem Recorded.mem_task_ids {activations : List Activation} {task : Task} (h : Recorded activations task) :
    task.id ∈ task_ids activations := by
  obtain ⟨work, hget, hwork⟩ := h
  refine executor.mem_task_ids.mpr ⟨_, hget, ?_⟩
  cases hwork with
  | plain hinputs hposition hindex => simp [Work.width, hposition]
  | fan_out hitem hindex => exact (List.getElem?_eq_some_iff.mp hitem).1

/-- A task with an id of earlier activations was started by them. -/
theorem Recorded.of_mem_task_ids {activations more : List Activation} {task : Task}
    (h : Recorded (activations ++ more) task) (hid : task.id ∈ task_ids activations) : Recorded activations task := by
  obtain ⟨work, hget, hwork⟩ := h
  refine ⟨work, ?_, hwork⟩
  rwa [List.getElem?_append_left (activation_lt_of_mem_task_ids hid)] at hget

section Logged

variable {ctx : RunContext} {s next : RunState} {c : Completion}

/-- The loop records edges and LLM calls. -/
theorem next_state_log (hcounts : CountsBounded ctx s.edge_traversal_counts) (hstep : next_state ctx s c = some next) :
    ∃ events, next.log = s.log ++ events ∧ ∀ event ∈ events, event_node event = none := by
  obtain ⟨task, _, heffect⟩ := step_effect hstep
  have hjoined : (joined ctx s c task).log = s.log ++ (node_result task c.joined).llm_records.map fun record =>
      .LlmInvocation 0 ctx.run_id record.node_id record.request record.response := rfl
  have hrecords : ∀ event ∈ (node_result task c.joined).llm_records.map fun record =>
      WriteEvent.LlmInvocation 0 ctx.run_id record.node_id record.request record.response, event_node event = none := by
    intro event hevent
    obtain ⟨record, _, rfl⟩ := List.mem_map.mp hevent
    rfl
  cases heffect with
  | @completes settled outputs from_fan_in hend houtputs hsame hactivations hlog =>
    rw [evaluate_downstream_eq (hsame ▸ hcounts), spawn_ready_nodes_log]
    refine ⟨_, by rw [hlog, hjoined, List.append_assoc], ?_⟩
    intro event hevent
    cases List.mem_append.mp hevent with
    | inl hrecord => exact hrecords event hrecord
    | inr hedge =>
      obtain ⟨edge, _, passed, rfl⟩ := mem_edge_events hedge
      rfl
  | fails hend =>
    rw [proceed_after_failure_eq, spawn_ready_nodes_log]
    exact ⟨_, hjoined, hrecords⟩
  | waits hend houtputs hsame hactivations hlog => exact ⟨_, hlog.trans hjoined, hrecords⟩

end Logged

section Transcribed

variable {ctx : RunContext} {behave : Task → Behaviour} {x : Live}

theorem ahead_eq_loop (hbetween : x.iteration = none) : x.ahead = x.loop := by
  unfold Live.ahead
  rw [hbetween]

/-- An entry under the counter's next number comes after the others. -/
theorem Transcribed.append_numbered (h : Transcribed ctx behave x) (writer : Writer) (event : WriteEvent) :
    (x.log ++ [Entry.mk x.seq writer event]).Pairwise (fun earlier later => earlier.seq < later.seq) ∧
      ∀ entry ∈ x.log ++ [Entry.mk x.seq writer event], entry.seq < x.seq + 1 := by
  constructor
  · rw [List.pairwise_append]
    refine ⟨h.numbered, List.pairwise_singleton _ _, ?_⟩
    intro earlier hearlier later hlater
    rw [List.mem_singleton.mp hlater]
    exact h.below earlier hearlier
  · intro entry hentry
    cases List.mem_append.mp hentry with
    | inl hold => exact Nat.lt_succ_of_lt (h.below entry hold)
    | inr hnew =>
      rw [List.mem_singleton.mp hnew]
      exact Nat.lt_succ_self _

/-- A task writes the next event of its script. -/
theorem Transcribed.write {task : Task} {event : WriteEvent} (h : Transcribed ctx behave x)
    (hrecorded : Recorded x.loop.activations task)
    (hevent : (script ctx behave task).1[x.written task.id]? = some event) :
    Transcribed ctx behave (x.write task event) := by
  obtain ⟨hnumbered, hbelow⟩ := h.append_numbered (.task task) event
  refine ⟨?_, ?_, ?_, h.unwritten, ?_, ?_, hnumbered, hbelow⟩
  · intro other hother
    unfold Live.write
    dsimp only
    rw [List.filter_append, List.map_append, h.own other hother]
    by_cases hid : task.id = other.id
    · cases hrecorded.unique hother hid
      simp [by_task, List.take_add_one, hevent]
    · simp [by_task, hid, Function.update_of_ne (Ne.symm hid)]
  · intro entry hentry writer hwriter
    cases List.mem_append.mp hentry with
    | inl hold => exact h.writers entry hold writer hwriter
    | inr hnew =>
      rw [List.mem_singleton.mp hnew] at hwriter
      cases hwriter
      exact hrecorded
  · intro entry hentry nodes hwriter
    cases List.mem_append.mp hentry with
    | inl hold => exact h.loops entry hold nodes hwriter
    | inr hnew =>
      rw [List.mem_singleton.mp hnew] at hwriter
      cases hwriter
  · intro id hid
    have hne : id ≠ task.id := fun heq => hid (heq ▸ hrecorded.mem_task_ids)
    exact (Function.update_of_ne hne _ _).trans (h.fresh id hid)
  · intro j hj
    obtain ⟨hrecorded', hlength⟩ := h.finished j hj
    have hne : j.1.id ≠ task.id := by
      intro hid
      cases hrecorded'.unique hrecorded hid
      rw [hlength, List.getElem?_eq_none (Nat.le_refl _)] at hevent
      cases hevent
    exact ⟨hrecorded', (Function.update_of_ne hne _ _).trans hlength⟩

theorem Transcribed.join {task : Task} {next : RunState} (h : Transcribed ctx behave x)
    (hcounts : CountsBounded ctx x.loop.edge_traversal_counts) (hrecorded : Recorded x.loop.activations task)
    (hbetween : x.iteration = none) (hwritten : x.written task.id = (script ctx behave task).1.length)
    (hstep : next_state ctx x.loop ⟨task.id, (script ctx behave task).2⟩ = some next) :
    Transcribed ctx behave (x.join task (script ctx behave task).2 next) := by
  refine ⟨h.own, h.writers, ?_, ?_, h.fresh, ?_, h.numbered, h.below⟩
  · intro entry hentry nodes hwriter
    obtain ⟨hevent, hstarted⟩ := h.loops entry hentry nodes hwriter
    obtain ⟨more, hmore⟩ := next_state_activations hcounts hstep
    refine ⟨hevent, fun n hn => ?_⟩
    have hbefore := hstarted n hn
    rw [ahead_eq_loop hbetween] at hbefore
    change n ∈ started next
    rw [started, hmore, List.map_append]
    exact List.mem_append_left _ hbefore
  · intro iteration hsome event hevent
    cases hsome
    obtain ⟨events, hlog, hevents⟩ := next_state_log hcounts hstep
    change event ∈ next.log.drop x.loop.log.length at hevent
    rw [hlog, List.drop_left] at hevent
    exact hevents event hevent
  · intro j hj
    cases List.mem_append.mp hj with
    | inl hold => exact h.finished j hold
    | inr hnew =>
      rw [List.mem_singleton.mp hnew]
      exact ⟨hrecorded, hwritten⟩

theorem Transcribed.record {next : RunState} {event : WriteEvent} {rest : List WriteEvent} (h : Transcribed ctx behave x)
    (hwithin : x.iteration = some ⟨next, event :: rest⟩) : Transcribed ctx behave (x.record next event rest) := by
  obtain ⟨hnumbered, hbelow⟩ := h.append_numbered (.loop (starting x.loop next)) event
  have hahead : x.ahead = next := by
    unfold Live.ahead
    rw [hwithin]
  have hunwritten := h.unwritten _ hwithin
  refine ⟨?_, ?_, ?_, ?_, h.fresh, h.finished, hnumbered, hbelow⟩
  · intro task htask
    unfold Live.record
    dsimp only
    rw [List.filter_append, List.map_append, h.own task htask]
    simp [by_task]
  · intro entry hentry task hwriter
    cases List.mem_append.mp hentry with
    | inl hold => exact h.writers entry hold task hwriter
    | inr hnew =>
      rw [List.mem_singleton.mp hnew] at hwriter
      cases hwriter
  · intro entry hentry nodes hwriter
    cases List.mem_append.mp hentry with
    | inl hold =>
      have hbefore := h.loops entry hold nodes hwriter
      rwa [hahead] at hbefore
    | inr hnew =>
      rw [List.mem_singleton.mp hnew] at hwriter ⊢
      cases hwriter
      refine ⟨hunwritten event List.mem_cons_self, fun n hn => ?_⟩
      obtain ⟨activation, hmem, rfl⟩ := List.mem_map.mp hn
      exact List.mem_map_of_mem (List.mem_of_mem_drop hmem)
  · intro iteration hsome other hother
    cases hsome
    exact hunwritten other (List.mem_cons_of_mem _ hother)

/-- The tasks started by an iteration have written nothing. -/
theorem Transcribed.spawn {next : RunState} (h : Transcribed ctx behave x) (hwithin : x.iteration = some ⟨next, []⟩)
    {more : List Activation} (hmore : next.activations = x.loop.activations ++ more) :
    Transcribed ctx behave (x.spawn next) := by
  refine ⟨?_, ?_, ?_, ?_, ?_, ?_, h.numbered, h.below⟩
  · intro task htask
    change Recorded next.activations task at htask
    rw [hmore] at htask
    by_cases hid : task.id ∈ task_ids x.loop.activations
    · exact h.own task (htask.of_mem_task_ids hid)
    · have hnone : x.log.filter (by_task task.id) = [] := by
        rw [List.filter_eq_nil_iff]
        intro entry hentry hby
        unfold by_task at hby
        split at hby
        · rename_i writer hwriter
          have hrecorded := h.writers entry hentry writer hwriter
          exact hid (of_decide_eq_true hby ▸ hrecorded.mem_task_ids)
        · cases hby
      simp [Live.spawn, hnone, h.fresh task.id hid]
  · intro entry hentry task hwriter
    have hrecorded := (h.writers entry hentry task hwriter).append more
    rwa [← hmore] at hrecorded
  · intro entry hentry nodes hwriter
    have hbefore := h.loops entry hentry nodes hwriter
    rwa [Live.ahead, hwithin] at hbefore
  · intro iteration hsome
    cases hsome
  · intro id hid
    refine h.fresh id fun hmem => hid ?_
    change id ∈ task_ids next.activations
    obtain ⟨activation, hget, hposition⟩ := mem_task_ids.mp hmem
    refine mem_task_ids.mpr ⟨activation, ?_, hposition⟩
    rw [hmore, List.getElem?_append_left (activation_lt_of_mem_task_ids hmem)]
    exact hget
  · intro j hj
    obtain ⟨hrecorded, hlength⟩ := h.finished j hj
    refine ⟨?_, hlength⟩
    change Recorded next.activations j.1
    rw [hmore]
    exact hrecorded.append more

theorem run_transcribed (haccepted : Accepted ctx) {first_seq : Nat} {moves : List Move}
    (hrun : LiveRun ctx behave first_seq moves x) : Transcribed ctx behave x := by
  refine hrun.invariant (P := fun _ x => Transcribed ctx behave x) ?_ ?_
  · refine ⟨?_, ?_, ?_, ?_, fun _ _ => rfl, ?_, .nil, ?_⟩
    · exact fun _ _ => by simp [initial_live]
    all_goals simp [initial_live]
  · intro moves x move y hreached h _ hstep
    have hin_step := run_in_step hreached
    obtain ⟨cs, hloop⟩ := hin_step.loop_run
    have hledger := run_ledger haccepted hloop
    have hcounts := run_countsBounded hloop
    cases live_step_cases hstep with
    | write hfind hevent => exact h.write (hledger.recorded _ (List.mem_of_find?_eq_some hfind)) hevent
    | join hbetween hfind hwritten hnext =>
      exact h.join hcounts (hledger.recorded _ (List.mem_of_find?_eq_some hfind)) hbetween hwritten hnext
    | record hwithin => exact h.record hwithin
    | spawn hwithin =>
      obtain ⟨_, _, _, _, _, hnext⟩ := hin_step.within _ hwithin
      obtain ⟨more, hmore⟩ := next_state_activations hcounts hnext
      exact h.spawn hwithin hmore
    | draw => exact ⟨h.own, h.writers, h.loops, h.unwritten, h.fresh, h.finished, h.numbered,
        fun entry hentry => Nat.lt_succ_of_lt (h.below entry hentry)⟩

end Transcribed

end flow_engine.executor
