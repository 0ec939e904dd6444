import FlowEngine.Executor.Tasks.Own
import FlowEngine.Pipeline.Drain
import FlowEngine.Pipeline.Once
import FlowEngine.Runtime.Recorded

namespace flow_engine.runtime

open write_pipeline
open executor (RunContext Behaviour Live LiveRun Move Accepted)

section Channel

variable {p : WritePipeline} {s next : PipelineState}

/-- What the critical channel was asked to take: what waits for room, and what it has taken. -/
def given (s : PipelineState) : List (Nat × WriteEvent) :=
  s.waiting ++ (s.accepted.filter fun source => source.lane = .critical).map fun source => (source.number, source.event)

/-- An action that asks nothing of the critical channel and gives nothing up. -/
def keeps_given : PipelineAction → Bool
  | .write _ | .abandon _ => false
  | _ => true

/-- A source in the critical channel was sent before the shutdown. -/
def AllEarly (s : PipelineState) : Prop := ∀ source ∈ s.accepted, source.lane = .critical → source.early = true

theorem given_of_writers (hwriters : next.writers = s.writers) : given next = given s := by
  simp only [PipelineState.writers, Prod.mk.injEq] at hwriters
  rw [given, hwriters.2.1, hwriters.2.2, given]

theorem given_step {action : PipelineAction} (hstep : pipeline_step p s action = some next)
    (hkeeps : keeps_given action = true) (hopen : (s.channels .critical).receiver = true ∨ s.waiting = []) :
    (given next).Perm (given s) := by
  cases pipeline_moves hstep with
  | proceeds elapsed next hproceed => rw [given_of_writers (proceed_writers hproceed)]
  | writes | abandons => cases hkeeps
  | sends index label ch hlabel hsend =>
    obtain ⟨hindex, rfl⟩ := List.getElem?_eq_some_iff.mp hlabel
    have herase := List.getElem_cons_eraseIdx_perm hindex
    simp only [given, List.filter_append, List.map_append]
    have hsource : ([s.waiting_source s.waiting[index]].filter fun source => source.lane = .critical).map
        (fun source => (source.number, source.event)) = [s.waiting[index]] := rfl
    rw [hsource]
    refine List.Perm.trans ?_ (herase.append_right _)
    rw [List.cons_append, ← List.append_assoc]
    exact List.perm_append_singleton _ _
  | gives_up index label hlabel hclosed =>
    rcases hopen with hopen | hnone
    · rw [hclosed] at hopen
      cases hopen
    · rw [hnone] at hlabel
      cases hlabel
  | tries event ch hsenders hsend =>
    have hsource : [s.tried_source event].filter (fun source => source.lane = .critical) = [] := rfl
    simp only [given, List.filter_append, hsource, List.append_nil]
    exact .refl _
  | drops | closes | signals => exact .refl _

theorem all_early_step {action : PipelineAction} (h : AllEarly s) (hstep : pipeline_step p s action = some next)
    (hheld : s.shutdown = .held ∨ s.waiting = []) : AllEarly next := by
  cases pipeline_moves hstep with
  | proceeds elapsed next hproceed =>
    have hwriters := proceed_writers hproceed
    simp only [PipelineState.writers, Prod.mk.injEq] at hwriters
    rw [AllEarly, hwriters.2.2]
    exact h
  | sends index label ch hlabel hsend =>
    intro source hmem hlane
    rcases List.mem_append.mp hmem with hold | hnew
    · exact h source hold hlane
    · rw [List.mem_singleton.mp hnew]
      rcases hheld with hheld | hnone
      · simp [PipelineState.waiting_source, hheld]
      · rw [hnone] at hlabel
        cases hlabel
  | tries event ch hsenders hsend =>
    intro source hmem hlane
    rcases List.mem_append.mp hmem with hold | hnew
    · exact h source hold hlane
    · rw [List.mem_singleton.mp hnew] at hlane
      cases hlane
  | _ => exact h

/-- Only a `write` and a `try_write` count. -/
theorem counter_step {action : PipelineAction} (hstep : pipeline_step p s action = some next)
    (hwrite : ∀ event, action ≠ .write event) :
    next.waiting ⊆ s.waiting ∧ ((∀ event, action ≠ .try_write event) → next.next_seq = s.next_seq) ∧
      ∀ event, action = .try_write event → next.next_seq = s.next_seq + 1 := by
  cases pipeline_moves hstep with
  | proceeds elapsed next hproceed =>
    have hwriters := proceed_writers hproceed
    simp only [PipelineState.writers, Prod.mk.injEq] at hwriters
    rw [hwriters.1, hwriters.2.1]
    exact ⟨List.Subset.refl _, fun _ => rfl, fun event heq => by cases heq⟩
  | writes event => exact absurd rfl (hwrite event)
  | sends | gives_up | abandons =>
    exact ⟨fun label hmem => List.mem_of_mem_eraseIdx hmem, fun _ => rfl, fun event heq => by cases heq⟩
  | tries event | drops event => exact ⟨List.Subset.refl _, fun hother => absurd rfl (hother event), fun _ _ => rfl⟩
  | closes => exact ⟨List.Subset.refl _, fun _ => rfl, fun event heq => by cases heq⟩
  | signals action shutdown haction =>
    refine ⟨List.Subset.refl _, fun _ => rfl, fun event heq => ?_⟩
    rcases haction with rfl | rfl <;> cases heq

theorem try_write_counts (s : PipelineState) (event : WriteEvent) :
    (s.try_write event).1.waiting = s.waiting ∧ (s.try_write event).1.next_seq = s.next_seq + 1 := by
  unfold PipelineState.try_write
  simp only
  obtain ⟨ch, _, haccept⟩ | ⟨_, haccept⟩ | ⟨_, haccept⟩ :=
    accept_cases { s with next_seq := s.next_seq + 1 } .advisory s.next_seq (event.set_seq (s.next_seq % 2 ^ 64)) <;>
  · rw [haccept]
    exact ⟨rfl, rfl⟩

end Channel

variable {config : ExecutionConfig} {ctx : RunContext} {behave : executor.Task → Behaviour} {r next : RecordedRun}

section Projections

variable {p : WritePipeline} {action : RecordedAction}

/-- What a recorded run does is a move of the executor, or none. -/
theorem RecordedMove.live_step (h : RecordedMove p ctx behave r action next) :
    next.live = r.live ∨ ∃ move, executor.live_step ctx behave r.live move = some next.live := by
  cases h with
  | writes task event hreturned hphase hstep => exact Or.inr ⟨_, hstep⟩
  | joins task state hreturned hphase hstep => exact Or.inr ⟨_, hstep⟩
  | records state event rest hreturned hphase hstep => exact Or.inr ⟨_, hstep⟩
  | spawns state hphase hstep => exact Or.inr ⟨_, hstep⟩
  | advises | finishes | drops => exact Or.inr ⟨.draw, rfl⟩
  | started | pipeline | shutdown | drops_handle => exact Or.inl rfl

/-- A loop that has panicked stays dead. -/
theorem RecordedMove.panicked (h : RecordedMove p ctx behave r action next)
    (hnext : next.session.pipeline.pc ≠ .panicked) : r.session.pipeline.pc ≠ .panicked := by
  cases h with
  | started pipeline hphase hsend =>
    have hstep : pipeline_step p r.session.pipeline (.send 0) = some pipeline := by simp [pipeline_step, hsend]
    exact panicked_step hstep hnext
  | advises event pipeline hadvisory hphase htry => exact panicked_step htry hnext
  | pipeline action pipeline hallows hkind hstep => exact panicked_step hstep hnext
  | shutdown number pipeline hphase hsent hshutdown => exact panicked_step hshutdown hnext
  | drops_handle completed pipeline hphase hdrop => exact panicked_step hdrop hnext
  | drops completed hphase =>
    rw [try_write_pc] at hnext
    exact hnext
  | writes | joins | records | spawns | finishes => exact hnext

/-- While a session holds the pipeline, the handles of that are in place. -/
def Handled (s : ExecutionSession) : Prop :=
  s.phase.holds = true → s.pipeline.shutdown = .held ∧ ∀ lane, (s.pipeline.channels lane).senders = true

/-- While the session holds the pipeline, its handles are in place and the loop has not left. -/
structure Manned (p : WritePipeline) (s : ExecutionSession) : Prop where
  steady : Steady p s.pipeline
  held : s.phase.holds = true → s.pipeline.shutdown = .held ∧ ∀ lane, (s.pipeline.channels lane).senders = true

/-- What a recorded run does is an action of the pipeline, or none. -/
theorem RecordedMove.pipeline_step (h : RecordedMove p ctx behave r action next) (hheld : Handled r.session) :
    next.session.pipeline = r.session.pipeline ∨
      ∃ taken, write_pipeline.pipeline_step p r.session.pipeline taken = some next.session.pipeline := by
  have hsenders : r.session.phase = .live → ∀ lane, (r.session.pipeline.channels lane).senders = true := by
    intro hphase
    exact (hheld (by rw [hphase]; rfl)).2
  cases h with
  | started pipeline hphase hsend =>
    refine Or.inr ⟨.send 0, ?_⟩
    simp [write_pipeline.pipeline_step, hsend]
  | writes task event hreturned hphase hstep hfind hevent hopen =>
    exact Or.inr ⟨.write event, by simp [write_pipeline.pipeline_step, hopen]⟩
  | records state event rest hreturned hphase hstep hwithin hopen =>
    exact Or.inr ⟨.write event, by simp [write_pipeline.pipeline_step, hopen]⟩
  | joins | spawns => exact Or.inl rfl
  | advises event pipeline hadvisory hphase htry => exact Or.inr ⟨_, htry⟩
  | pipeline action pipeline hallows hkind hstep => exact Or.inr ⟨_, hstep⟩
  | finishes cancelled hreturned hphase hbetween =>
    refine Or.inr ⟨.write (loop_completed ctx r.live.loop cancelled), ?_⟩
    simp [write_pipeline.pipeline_step, hsenders hphase]
  | shutdown number pipeline hphase hsent hshutdown => exact Or.inr ⟨_, hshutdown⟩
  | drops completed hphase =>
    refine Or.inr ⟨.try_write (run_completed ctx.run_id .Failed none), ?_⟩
    simp [write_pipeline.pipeline_step, hsenders hphase]
  | drops_handle completed pipeline hphase hdrop => exact Or.inr ⟨_, hdrop⟩

/-- The handles go with the session. -/
theorem RecordedMove.handled (h : RecordedMove p ctx behave r action next) (hheld : Handled r.session) :
    Handled next.session := by
  intro hholds
  have hkeeps : r.session.phase.holds = true → ∀ {taken : PipelineAction} {pipeline : PipelineState},
      write_pipeline.pipeline_step p r.session.pipeline taken = some pipeline → taken.keeps_owners = true →
      pipeline.shutdown = .held ∧ ∀ lane, (pipeline.channels lane).senders = true := by
    intro hbefore taken pipeline hstep hkeeps
    obtain ⟨hshutdown, hchannels⟩ := Prod.ext_iff.mp (pipeline_step_owners hstep hkeeps)
    refine ⟨hshutdown.trans (hheld hbefore).1, fun lane => ?_⟩
    exact (congrArg Prod.fst (congrFun hchannels lane)).trans ((hheld hbefore).2 lane)
  cases h with
  | started pipeline hphase hsend =>
    have hstep : write_pipeline.pipeline_step p r.session.pipeline (.send 0) = some pipeline := by
      simp [write_pipeline.pipeline_step, hsend]
    exact hkeeps (by rw [hphase]; rfl) hstep rfl
  | writes | records | joins | spawns => exact hheld hholds
  | advises event pipeline hadvisory hphase htry => exact hkeeps hholds htry rfl
  | pipeline action pipeline hallows hkind hstep =>
    change r.session.phase.holds = true at hholds
    refine hkeeps hholds hstep ?_
    cases action with
    | drop_senders lane =>
      cases hphase : r.session.phase <;> simp [hphase, ExecutionSession.allows, Phase.holds] at hallows hholds
    | shutdown | drop_handle => cases hkind
    | _ => rfl
  | finishes cancelled hreturned hphase hbetween => exact hheld (by rw [hphase]; rfl)
  | shutdown | drops | drops_handle => cases hholds

theorem Manned.step (h : Manned p r.session) (hworks : ∀ call, p.fails call = false)
    (hmove : RecordedMove p ctx behave r action next) (hnext : next.session.pipeline.pc ≠ .panicked) :
    Manned p next.session := by
  refine ⟨?_, hmove.handled h.held⟩
  rcases hmove.pipeline_step h.held with hsame | ⟨taken, hstep⟩
  · rw [hsame]
    exact h.steady
  · exact h.steady.step (hworks _) hstep hnext

end Projections

/-- A recorded run whose loop has not panicked is one of the executor and one of the pipeline. -/
theorem run_projections {actions : List RecordedAction} (hrun : RecordedExecution config ctx behave actions r) :
    (∃ moves, LiveRun ctx behave 2 moves r.live) ∧
      (r.session.pipeline.pc ≠ .panicked → Manned (session_pipeline config fun _ => false) r.session ∧
        ∃ taken, PipelineRun (session_pipeline config fun _ => false) taken r.session.pipeline) := by
  refine hrun.invariant (P := fun _ r => (∃ moves, LiveRun ctx behave 2 moves r.live) ∧
    (r.session.pipeline.pc ≠ .panicked → Manned (session_pipeline config fun _ => false) r.session ∧
      ∃ taken, PipelineRun (session_pipeline config fun _ => false) taken r.session.pipeline)) ?_ ?_
  · have hlife := start_life (session_pipeline config fun _ => false) (fun _ => rfl) config ctx.run_id
    have hwrite : pipeline_step (session_pipeline config fun _ => false) (spawn (session_pipeline config fun _ => false))
        (.write (run_started config ctx.run_id)) =
          some ((spawn (session_pipeline config fun _ => false)).write (run_started config ctx.run_id)) := rfl
    exact ⟨⟨[], .nil⟩, fun _ => ⟨⟨hlife.steady, hlife.held⟩, [] ++ [_], .snoc .nil trivial hwrite⟩⟩
  intro actions r action next _ h _ hstep
  have hmove := recorded_moves hstep
  obtain ⟨⟨moves, hlive⟩, hpipeline⟩ := h
  constructor
  · rcases hmove.live_step with hsame | ⟨move, hmoved⟩
    · exact ⟨moves, hsame ▸ hlive⟩
    · exact ⟨moves ++ [move], hlive.snoc trivial hmoved⟩
  · intro hnext
    obtain ⟨hmanned, taken, htaken⟩ := hpipeline (hmove.panicked hnext)
    refine ⟨hmanned.step (fun _ => rfl) hmove hnext, ?_⟩
    rcases hmove.pipeline_step hmanned.held with hsame | ⟨more, hmore⟩
    · exact ⟨taken, hsame ▸ htaken⟩
    · exact ⟨taken ++ [more], htaken.snoc trivial hmore⟩

/-- Which writes have not returned: none of the start of the run once it is live, none of a joined
task, and none of the loop once that has ended. -/
structure Awaited (r : RecordedRun) : Prop where
  counter : r.session.pipeline.next_seq = r.live.seq
  numbered : 2 ≤ r.live.seq ∧ ∀ entry ∈ r.live.log, 2 ≤ entry.seq
  starting : r.session.phase = .starting → ∃ label, r.session.pipeline.waiting = [label] ∧ label.1 = 1
  started : r.session.phase ≠ .starting → ∀ label ∈ r.session.pipeline.waiting, label.1 ≠ 1
  joined : ∀ label ∈ r.session.pipeline.waiting, ∀ entry ∈ r.live.log, entry.seq = label.1 →
    ∀ task, entry.writer = .task task → ∀ j ∈ r.live.joins, j.1.id ≠ task.id
  ended : ∀ number, r.session.phase = .finishing number → r.live.iteration = none ∧
    ∀ label ∈ r.session.pipeline.waiting, ∀ entry ∈ r.live.log, entry.seq = label.1 → by_loop entry = false

/-- No entry of the predicate waits. -/
theorem writing_eq_false {wrote : executor.Entry → Bool} : r.writing wrote = false ↔
    ∀ label ∈ r.session.pipeline.waiting, ∀ entry ∈ r.live.log, entry.seq = label.1 → wrote entry = false := by
  simp only [RecordedRun.writing, List.any_eq_false, Bool.and_eq_true, decide_eq_true_eq, not_and, Bool.not_eq_true,
    List.any_eq_true, not_exists]

section Awaited

variable {p : WritePipeline}

/-- The write handle is given nothing more. -/
theorem Awaited.narrow (h : Awaited r) {phase : Phase} {pipeline : PipelineState} {live : Live}
    (hwaiting : pipeline.waiting ⊆ r.session.pipeline.waiting) (hcounter : pipeline.next_seq = live.seq)
    (hlive : r.live.seq ≤ live.seq ∧ live.log = r.live.log ∧ live.joins = r.live.joins ∧ live.iteration = r.live.iteration)
    (hstarted : r.session.phase ≠ .starting ∧ phase ≠ .starting)
    (hended : ∀ number, phase = .finishing number → r.session.phase = .finishing number) :
    Awaited ⟨live, phase, pipeline⟩ := by
  obtain ⟨hseq, hlog, hjoins, hiteration⟩ := hlive
  constructor
  · exact hcounter
  · refine ⟨le_trans h.numbered.1 hseq, ?_⟩
    rw [hlog]
    exact h.numbered.2
  · exact fun hstarting => absurd hstarting hstarted.2
  · exact fun _ label hmem => h.started hstarted.1 label (hwaiting hmem)
  · rw [hlog, hjoins]
    exact fun label hmem => h.joined label (hwaiting hmem)
  · intro number hnumber
    obtain ⟨hbetween, hloop⟩ := h.ended number (hended number hnumber)
    rw [hlog]
    exact ⟨hiteration.trans hbetween, fun label hmem => hloop label (hwaiting hmem)⟩

/-- An event is handed to the write handle. -/
theorem Awaited.write (h : Awaited r) (hnumbered : Numbered r.session.pipeline)
    (hbelow : ∀ entry ∈ r.live.log, entry.seq < r.live.seq) {live : Live} {writer : executor.Writer} {event : WriteEvent}
    (hlog : live.log = r.live.log ++ [⟨r.live.seq, writer, event⟩]) (hseq : live.seq = r.live.seq + 1)
    (hjoins : live.joins = r.live.joins) (hphase : r.session.phase ≠ .starting)
    (hwriter : ∀ task, writer = .task task → ∀ j ∈ r.live.joins, j.1.id ≠ task.id)
    (hended : ∀ number, r.session.phase = .finishing number → live.iteration = none ∧ ∃ task, writer = .task task) :
    Awaited ⟨live, r.session.phase, r.session.pipeline.write event⟩ := by
  -- an old label is below the counter, and so is an old entry
  have hlabels : ∀ label ∈ r.session.pipeline.waiting, label.1 < r.live.seq := by
    intro label hmem
    rw [← h.counter]
    exact hnumbered.below _ (List.mem_append_left _ (List.mem_map_of_mem hmem))
  have hpair : ∀ label ∈ (r.session.pipeline.write event).waiting, ∀ entry ∈ live.log, entry.seq = label.1 →
      (label ∈ r.session.pipeline.waiting ∧ entry ∈ r.live.log) ∨ entry = ⟨r.live.seq, writer, event⟩ := by
    intro label hlabel entry hentry hsame
    rw [hlog] at hentry
    rcases List.mem_append.mp hentry with hold | hnew
    · refine Or.inl ⟨?_, hold⟩
      rcases List.mem_append.mp hlabel with hwaits | hadded
      · exact hwaits
      · have hlt := hbelow entry hold
        rw [List.mem_singleton.mp hadded, h.counter] at hsame
        omega
    · exact Or.inr (List.mem_singleton.mp hnew)
  constructor
  · change r.session.pipeline.next_seq + 1 = live.seq
    rw [h.counter, hseq]
  · have hleast := h.numbered.1
    refine ⟨hleast.trans (by rw [hseq]; exact Nat.le_succ _), ?_⟩
    rw [hlog, List.forall_mem_append]
    refine ⟨h.numbered.2, ?_⟩
    simpa using hleast
  · exact fun hstarting => absurd hstarting hphase
  · intro hother label hmem
    rcases List.mem_append.mp hmem with hold | hnew
    · exact h.started hother label hold
    · rw [List.mem_singleton.mp hnew, h.counter]
      have hleast := h.numbered.1
      omega
  · rw [hjoins]
    intro label hlabel entry hentry hsame task htask
    rcases hpair label hlabel entry hentry hsame with ⟨hold, hlogged⟩ | rfl
    · exact h.joined label hold entry hlogged hsame task htask
    · exact hwriter task htask
  · intro number hnumber
    obtain ⟨hbetween, task, htask⟩ := hended number hnumber
    refine ⟨hbetween, ?_⟩
    intro label hlabel entry hentry hsame
    rcases hpair label hlabel entry hentry hsame with ⟨hold, hlogged⟩ | rfl
    · exact (h.ended number hnumber).2 label hold entry hlogged hsame
    · rw [by_loop, htask]

/-- The write of the start of the run has returned. -/
theorem Awaited.starts (p : WritePipeline) (h : Awaited r) (hphase : r.session.phase = .starting) {pipeline : PipelineState}
    (hsend : r.session.pipeline.send 0 = some (pipeline, .ok ())) : Awaited ⟨r.live, ⟨.live, pipeline⟩⟩ := by
  have hstep : pipeline_step p r.session.pipeline (.send 0) = some pipeline := by simp [pipeline_step, hsend]
  obtain ⟨_, hcounter, _⟩ := counter_step hstep fun event heq => by cases heq
  obtain ⟨label, honly, hone⟩ := h.starting hphase
  have hnone : pipeline.waiting = [] := by
    generalize htaken : PipelineAction.send 0 = taken at hstep
    cases pipeline_moves hstep with
    | sends index | gives_up index =>
      cases htaken
      simp [honly]
    | signals action shutdown haction => rcases haction with rfl | rfl <;> cases htaken
    | _ => cases htaken
  constructor
  · exact (hcounter fun event heq => by cases heq).trans h.counter
  · exact h.numbered
  · intro hother
    cases hother
  · simp [hnone]
  · simp [hnone]
  · intro number hnumber
    cases hnumber

/-- Only the flush loop acts before the run has started. -/
theorem Awaited.flushes (h : Awaited r) (hphase : r.session.phase = .starting) {action : PipelineAction}
    {pipeline : PipelineState} (hallows : r.session.allows action = true)
    (hstep : pipeline_step p r.session.pipeline action = some pipeline) (hcounter : pipeline.next_seq = r.live.seq) :
    Awaited ⟨r.live, ⟨r.session.phase, pipeline⟩⟩ := by
  have hsame : pipeline.waiting = r.session.pipeline.waiting := by
    rw [ExecutionSession.allows.eq_def, hphase] at hallows
    cases action with
    | proceed elapsed =>
      have hwriters := proceed_writers hstep
      simp only [PipelineState.writers, Prod.mk.injEq] at hwriters
      exact hwriters.2.1
    | _ => cases hallows
  obtain ⟨label, honly, hone⟩ := h.starting hphase
  refine ⟨hcounter, h.numbered, fun _ => ⟨label, hsame.trans honly, hone⟩, fun hother => absurd hphase hother, ?_, ?_⟩
  · intro other hmem
    rw [hsame] at hmem
    exact h.joined other hmem
  · intro number hnumber
    rw [hphase] at hnumber
    cases hnumber

/-- The loop ends with a write, when its own have returned. -/
theorem Awaited.finishes (h : Awaited r) (hlabels : ∀ entry ∈ r.live.log, entry.seq < r.live.seq)
    (hreturned : r.writing by_loop = false) (hphase : r.session.phase = .live) (hbetween : r.live.iteration = none)
    (event : WriteEvent) :
    Awaited ⟨r.live.draw, ⟨.finishing r.session.pipeline.next_seq, r.session.pipeline.write event⟩⟩ := by
  constructor
  · change r.session.pipeline.next_seq + 1 = r.live.seq + 1
    rw [h.counter]
  · exact ⟨Nat.le_succ_of_le h.numbered.1, h.numbered.2⟩
  · intro hother
    cases hother
  · intro _ label hmem
    rcases List.mem_append.mp hmem with hold | hnew
    · exact h.started (by rw [hphase]; exact fun heq => by cases heq) label hold
    · rw [List.mem_singleton.mp hnew, h.counter]
      have hleast := h.numbered.1
      omega
  · intro label hmem entry hentry hsame
    rcases List.mem_append.mp hmem with hold | hnew
    · exact h.joined label hold entry hentry hsame
    · have hlt := hlabels entry hentry
      rw [List.mem_singleton.mp hnew, h.counter] at hsame
      omega
  · intro number _
    refine ⟨hbetween, ?_⟩
    intro label hmem entry hentry hsame
    rcases List.mem_append.mp hmem with hold | hnew
    · exact writing_eq_false.mp hreturned label hold entry hentry hsame
    · have hlt := hlabels entry hentry
      rw [List.mem_singleton.mp hnew, h.counter] at hsame
      omega

/-- A task that still writes has not been joined. -/
theorem not_joined_of_writes {x : Live} (htranscribed : executor.Transcribed ctx behave x) {task : executor.Task}
    (hrecorded : executor.Recorded x.loop.activations task) {event : WriteEvent}
    (hevent : (executor.script ctx behave task).1[x.written task.id]? = some event) :
    ∀ j ∈ x.joins, j.1.id ≠ task.id := by
  intro j hj hid
  obtain ⟨hother, hlength⟩ := htranscribed.finished j hj
  cases hother.unique hrecorded hid
  rw [hlength, List.getElem?_eq_none (Nat.le_refl _)] at hevent
  cases hevent

variable (haccepted : Accepted ctx)

include haccepted

theorem Awaited.step (h : Awaited r) (hnumbered : Numbered r.session.pipeline) {moves : List Move}
    (hlive : LiveRun ctx behave 2 moves r.live) {action : RecordedAction}
    (hmove : RecordedMove p ctx behave r action next) : Awaited next := by
  have htranscribed := executor.run_transcribed haccepted hlive
  cases hmove with
  | started pipeline hphase hsend => exact h.starts p hphase hsend
  | writes task event hreturned hphase hstep hfind hevent hsenders =>
    obtain ⟨_, hloop⟩ := (executor.run_in_step hlive).loop_run
    have hrecorded := (executor.run_ledger haccepted hloop).recorded _ (List.mem_of_find?_eq_some hfind)
    refine h.write hnumbered htranscribed.below rfl rfl rfl hphase ?_ ?_
    · intro other heq
      cases heq
      exact not_joined_of_writes htranscribed hrecorded hevent
    · exact fun number hnumber => ⟨(h.ended number hnumber).1, task, rfl⟩
  | joins task state hreturned hphase hstep =>
    refine ⟨h.counter, h.numbered, h.starting, h.started, ?_, ?_⟩
    · intro label hlabel entry hentry hsame writer hwriter j hj
      rcases List.mem_append.mp hj with hold | hnew
      · exact h.joined label hlabel entry hentry hsame writer hwriter j hold
      · have hby := writing_eq_false.mp hreturned label hlabel entry hentry hsame
        rw [List.mem_singleton.mp hnew]
        intro hid
        change task.id = writer.id at hid
        simp [executor.by_task, hwriter, hid] at hby
    · intro number hnumber
      rw [hphase] at hnumber
      cases hnumber
  | records state event rest hreturned hphase hstep hwithin hsenders =>
    refine h.write hnumbered htranscribed.below rfl rfl rfl (by rw [hphase]; exact fun heq => by cases heq) ?_ ?_
    · exact fun task heq => by cases heq
    · intro number hnumber
      rw [hphase] at hnumber
      cases hnumber
  | spawns state hphase hstep =>
    refine ⟨h.counter, h.numbered, h.starting, h.started, h.joined, ?_⟩
    intro number hnumber
    rw [hphase] at hnumber
    cases hnumber
  | advises event pipeline hadvisory hphase htry =>
    obtain ⟨hwaiting, _, hcounter⟩ := counter_step htry fun event heq => by cases heq
    refine h.narrow hwaiting ?_ ⟨Nat.le_succ _, rfl, rfl, rfl⟩ ⟨hphase, hphase⟩ fun _ hnumber => hnumber
    rw [hcounter event rfl, h.counter]
    rfl
  | pipeline action pipeline hallows hkind hstep =>
    obtain ⟨hwaiting, hcounter, _⟩ := counter_step hstep fun event heq => by rw [heq] at hkind; cases hkind
    have hseq := (hcounter fun event heq => by rw [heq] at hkind; cases hkind).trans h.counter
    by_cases hphase : r.session.phase = .starting
    · exact h.flushes hphase hallows hstep hseq
    · exact h.narrow hwaiting hseq ⟨le_rfl, rfl, rfl, rfl⟩ ⟨hphase, hphase⟩ fun _ hnumber => hnumber
  | finishes cancelled hreturned hphase hbetween => exact h.finishes htranscribed.below hreturned hphase hbetween _
  | shutdown number pipeline hphase hsent hshutdown =>
    obtain ⟨hwaiting, hcounter, _⟩ := counter_step hshutdown fun event heq => by cases heq
    have hseq := (hcounter fun event heq => by cases heq).trans h.counter
    refine h.narrow hwaiting hseq ⟨le_rfl, rfl, rfl, rfl⟩ ⟨?_, fun heq => by cases heq⟩ fun other hother => by cases hother
    rw [hphase]
    exact fun heq => by cases heq
  | drops completed hphase =>
    obtain ⟨hwaiting, hcounter⟩ := try_write_counts r.session.pipeline (run_completed ctx.run_id .Failed none)
    refine h.narrow (by rw [hwaiting]; exact List.Subset.refl _) ?_ ⟨Nat.le_succ _, rfl, rfl, rfl⟩
      ⟨?_, fun heq => by cases heq⟩ fun other hother => by cases hother
    · rw [hcounter, h.counter]
      rfl
    · rw [hphase]
      exact fun heq => by cases heq
  | drops_handle completed pipeline hphase hdrop =>
    obtain ⟨hwaiting, hcounter, _⟩ := counter_step hdrop fun event heq => by cases heq
    have hseq := (hcounter fun event heq => by cases heq).trans h.counter
    refine h.narrow hwaiting hseq ⟨le_rfl, rfl, rfl, rfl⟩ ⟨?_, fun heq => by cases heq⟩ fun other hother => by cases hother
    rw [hphase]
    exact fun heq => by cases heq

end Awaited

end flow_engine.runtime
