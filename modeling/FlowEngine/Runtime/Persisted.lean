import FlowEngine.Lib.KeyedLog
import FlowEngine.Runtime.Delivered
import FlowEngine.Stores.NodeStatus

namespace flow_engine.runtime

open write_pipeline
open executor (RunContext Behaviour Live LiveRun Move Accepted)

/-- The number of the `RunCompleted` that `finish` writes. -/
def Phase.ending : Phase → Option Nat
  | .finishing number | .finished number => some number
  | _ => none

/-- An entry as the write handle numbers it. -/
def label (entry : executor.Entry) : Nat × WriteEvent := (entry.seq, entry.event.set_seq (entry.seq % 2 ^ 64))

/-- What a run has given the critical channel: its start, the log of the executor and the end. -/
def RecordedRun.labels (config : ExecutionConfig) (ctx : RunContext) (r : RecordedRun) (cancelled : Bool) :
    List (Nat × WriteEvent) :=
  (1, (run_started config ctx.run_id).set_seq 1) :: (r.live.log.map label ++
    (r.session.phase.ending.map fun number =>
      (number, (loop_completed ctx r.live.loop cancelled).set_seq (number % 2 ^ 64))).toList)

/-- Whether the run was cancelled, as the session finishes with it. -/
def RecordedAction.verdict (before : Bool) : RecordedAction → Bool
  | .finish cancelled => cancelled
  | _ => before

def was_cancelled (actions : List RecordedAction) : Bool := actions.foldl RecordedAction.verdict false

/-- The critical channel was asked to take what the run has written, and took all of it before the shutdown. -/
structure Delivers (config : ExecutionConfig) (ctx : RunContext) (r : RecordedRun) (cancelled : Bool) : Prop where
  early : AllEarly r.session.pipeline
  given : (given r.session.pipeline).Perm (r.labels config ctx cancelled)

variable {config : ExecutionConfig} {ctx : RunContext} {behave : executor.Task → Behaviour} {r next : RecordedRun}
variable {p : WritePipeline} {cancelled : Bool}

theorem was_cancelled_snoc (actions : List RecordedAction) (action : RecordedAction) :
    was_cancelled (actions ++ [action]) = action.verdict (was_cancelled actions) := by
  rw [was_cancelled, List.foldl_append]
  rfl

theorem given_write (s : PipelineState) (event : WriteEvent) :
    (given (s.write event)).Perm ((s.next_seq, event.set_seq (s.next_seq % 2 ^ 64)) :: given s) := by
  simp only [given, PipelineState.write]
  rw [List.append_assoc]
  exact List.perm_middle

/-- An action of the pipeline leaves it at that. -/
theorem Delivers.pipeline (h : Delivers config ctx r cancelled) {phase : Phase} {pipeline : PipelineState} {live : Live}
    {action : PipelineAction} (hstep : pipeline_step p r.session.pipeline action = some pipeline)
    (hkeeps : keeps_given action = true)
    (hopen : (r.session.pipeline.channels .critical).receiver = true ∧ r.session.pipeline.shutdown = .held ∨
      r.session.pipeline.waiting = [])
    (hlog : live.log = r.live.log) (hloop : live.loop = r.live.loop) (hphase : phase.ending = r.session.phase.ending) :
    Delivers config ctx ⟨live, phase, pipeline⟩ cancelled := by
  constructor
  · exact all_early_step h.early hstep (hopen.imp_left fun hboth => hboth.2)
  · refine (given_step hstep hkeeps (hopen.imp_left fun hboth => hboth.1)).trans ?_
    rw [RecordedRun.labels, hlog, hloop, hphase]
    exact h.given

/-- A write of the executor is given under its number. -/
theorem Delivers.write (h : Delivers config ctx r cancelled) {live : Live} {writer : executor.Writer} {event : WriteEvent}
    (hcounter : r.session.pipeline.next_seq = r.live.seq) (hlog : live.log = r.live.log ++ [⟨r.live.seq, writer, event⟩])
    (hloop : live.loop = r.live.loop) :
    Delivers config ctx ⟨live, r.session.phase, r.session.pipeline.write event⟩ cancelled := by
  refine ⟨h.early, (given_write _ _).trans ((h.given.cons _).trans ?_)⟩
  rw [RecordedRun.labels, RecordedRun.labels, hlog, hloop, hcounter, List.map_append, List.append_assoc]
  refine (List.Perm.swap _ _ _).trans (.cons _ ?_)
  exact List.perm_middle.symm

/-- What is delivered while the session holds the pipeline, and after it when nothing is left running. -/
structure Kept (config : ExecutionConfig) (ctx : RunContext) (r : RecordedRun) (cancelled : Bool) : Prop where
  held : r.session.phase.holds = true → Delivers config ctx r cancelled
  quiet : ∀ number, r.session.phase = .finished number → r.live.Over →
    r.session.pipeline.waiting = [] ∧ Delivers config ctx r cancelled

/-- While the session holds the pipeline its channel is open. -/
theorem Manned.open (h : Manned p r.session) (hpanics : r.session.pipeline.pc ≠ .panicked)
    (hholds : r.session.phase.holds = true) :
    (r.session.pipeline.channels .critical).receiver = true ∧ r.session.pipeline.shutdown = .held := by
  have hheld := h.held hholds
  have hreads := h.steady.reads hpanics hheld.1 (hheld.2 .critical) .critical
  refine ⟨h.steady.attended.receiving ?_ .critical, hheld.1⟩
  cases hpc : r.session.pipeline.pc <;> simp [hpc, Pc.done_with, Pc.over] at hreads ⊢

/-- When nothing is left running nothing waits but the end of the run. -/
theorem Awaited.waiting_eq_nil (h : Awaited r) (hdelivers : Delivers config ctx r cancelled) {number : Nat}
    (hphase : r.session.phase = .finishing number)
    (hsent : (r.session.pipeline.waiting.any fun label => label.1 = number) = false)
    (htasks : ∀ entry ∈ r.live.log, ∀ task, entry.writer = .task task → ∃ j ∈ r.live.joins, j.1.id = task.id) :
    r.session.pipeline.waiting = [] := by
  rw [List.eq_nil_iff_forall_not_mem]
  intro waits hmem
  have hin : waits ∈ r.labels config ctx cancelled := hdelivers.given.subset (List.mem_append_left _ hmem)
  simp only [RecordedRun.labels, hphase, Phase.ending, Option.map_some, Option.toList_some, List.mem_cons, List.mem_append,
    List.mem_map, List.not_mem_nil, or_false] at hin
  rcases hin with rfl | ⟨entry, hentry, rfl⟩ | rfl
  · exact h.started (by rw [hphase]; exact fun heq => by cases heq) _ hmem rfl
  · have hloop := (h.ended number hphase).2 _ hmem entry hentry rfl
    cases hwriter : entry.writer with
    | loop nodes => simp [by_loop, hwriter] at hloop
    | task task =>
      obtain ⟨j, hj, hid⟩ := htasks entry hentry task hwriter
      exact h.joined _ hmem entry hentry rfl task hwriter j hj hid
  · rw [List.any_eq_false] at hsent
    exact hsent _ hmem (by simp)

section Run

variable (haccepted : Accepted ctx)

include haccepted

/-- Every task that has written has been joined when nothing is left running. -/
theorem written_joined {moves : List Move} {x : Live} (hlive : LiveRun ctx behave 2 moves x) (hover : x.Over) :
    ∀ entry ∈ x.log, ∀ task, entry.writer = .task task → ∃ j ∈ x.joins, j.1.id = task.id := by
  intro entry hentry task hwriter
  have hrecorded := (executor.run_transcribed haccepted hlive).writers entry hentry task hwriter
  have hends := (executor.run_in_step hlive).in_flight_or_joined haccepted hrecorded
  rw [executor.ahead_eq_loop hover.between, hover.running] at hends
  exact hends.resolve_left List.not_mem_nil

theorem Kept.step (h : Kept config ctx r cancelled) (hawaited : Awaited r) (hmanned : Manned p r.session)
    (hpanics : r.session.pipeline.pc ≠ .panicked) {moves : List Move} (hlive : LiveRun ctx behave 2 moves r.live)
    {action : RecordedAction} (hmove : RecordedMove p ctx behave r action next) :
    Kept config ctx next (action.verdict cancelled) := by
  cases hmove with
  | started pipeline hphase hsend =>
    have hholds : r.session.phase.holds = true := by rw [hphase]; rfl
    have hstep : pipeline_step p r.session.pipeline (.send 0) = some pipeline := by simp [pipeline_step, hsend]
    refine ⟨fun _ => ?_, fun number hnumber => by cases hnumber⟩
    exact (h.held hholds).pipeline hstep rfl (Or.inl (hmanned.open hpanics hholds)) rfl rfl (by rw [hphase]; rfl)
  | writes task event hreturned hphase hstep hfind hevent hsenders =>
    constructor
    · exact fun hholds => (h.held hholds).write hawaited.counter rfl rfl
    · intro number hnumber hover
      have hnone : r.live.loop.running = [] := hover.running
      rw [hnone] at hfind
      cases hfind
  | joins task state hreturned hphase hstep =>
    have hholds : r.session.phase.holds = true := by rw [hphase]; rfl
    refine ⟨fun _ => ⟨(h.held hholds).early, ?_⟩, fun number hnumber => by rw [hphase] at hnumber; cases hnumber⟩
    exact (h.held hholds).given
  | records state event rest hreturned hphase hstep hwithin hsenders =>
    refine ⟨fun hholds => (h.held hholds).write hawaited.counter rfl rfl, fun number hnumber => ?_⟩
    rw [hphase] at hnumber
    cases hnumber
  | spawns state hphase hstep =>
    have hholds : r.session.phase.holds = true := by rw [hphase]; rfl
    refine ⟨fun _ => ⟨(h.held hholds).early, ?_⟩, fun number hnumber => by rw [hphase] at hnumber; cases hnumber⟩
    have hgiven := (h.held hholds).given
    simp only [RecordedRun.labels, hphase] at hgiven ⊢
    exact hgiven
  | advises event pipeline hadvisory hphase htry =>
    obtain ⟨hwaiting, _⟩ := counter_step htry fun event heq => by cases heq
    constructor
    · exact fun hholds => (h.held hholds).pipeline htry rfl (Or.inl (hmanned.open hpanics hholds)) rfl rfl rfl
    · intro number hnumber hover
      obtain ⟨hnone, hdelivers⟩ := h.quiet number hnumber ⟨hover.between, hover.running⟩
      refine ⟨List.subset_nil.mp (hnone ▸ hwaiting), ?_⟩
      exact hdelivers.pipeline htry rfl (Or.inr hnone) rfl rfl rfl
  | pipeline action pipeline hallows hkind hstep =>
    obtain ⟨hwaiting, _⟩ := counter_step hstep fun event heq => by rw [heq] at hkind; cases hkind
    have hkeeps : keeps_given action = true := by cases action <;> first | rfl | cases hkind
    constructor
    · exact fun hholds => (h.held hholds).pipeline hstep hkeeps (Or.inl (hmanned.open hpanics hholds)) rfl rfl rfl
    · intro number hnumber hover
      obtain ⟨hnone, hdelivers⟩ := h.quiet number hnumber hover
      refine ⟨List.subset_nil.mp (hnone ▸ hwaiting), ?_⟩
      exact hdelivers.pipeline hstep hkeeps (Or.inr hnone) rfl rfl rfl
  | finishes after hreturned hphase hbetween =>
    have hholds : r.session.phase.holds = true := by rw [hphase]; rfl
    refine ⟨fun _ => ⟨(h.held hholds).early, ?_⟩, fun number hnumber => by cases hnumber⟩
    refine (given_write _ _).trans (((h.held hholds).given.cons _).trans ?_)
    simp only [RecordedRun.labels, hphase, Phase.ending, Option.map_none, Option.map_some, Option.toList_none,
      Option.toList_some, List.append_nil, Live.draw]
    refine (List.Perm.swap _ _ _).trans (.cons _ ?_)
    exact (List.perm_append_singleton _ _).symm
  | shutdown number pipeline hphase hsent hshutdown =>
    have hholds : r.session.phase.holds = true := by rw [hphase]; rfl
    refine ⟨fun hother => (by cases hother), fun other hother hover => ?_⟩
    have htasks := written_joined haccepted hlive hover
    have hnone := hawaited.waiting_eq_nil (h.held hholds) hphase hsent htasks
    obtain ⟨hwaiting, _⟩ := counter_step hshutdown fun event heq => by cases heq
    refine ⟨List.subset_nil.mp (hnone ▸ hwaiting), ?_⟩
    exact (h.held hholds).pipeline hshutdown rfl (Or.inr hnone) rfl rfl (by rw [hphase]; rfl)
  | drops | drops_handle =>
    constructor
    · intro hholds
      cases hholds
    · intro number hnumber
      cases hnumber

omit haccepted in
theorem start_kept : Kept config ctx (recorded_start p config ctx) false := by
  refine ⟨fun _ => ⟨?_, ?_⟩, fun number hnumber => by cases hnumber⟩
  · intro source hmem
    cases hmem
  · exact .refl _

omit haccepted in
theorem start_awaited : Awaited (recorded_start p config ctx) := by
  constructor
  · rfl
  · exact ⟨le_rfl, fun entry hmem => by cases hmem⟩
  · exact fun _ => ⟨_, rfl, rfl⟩
  · exact fun hother => absurd rfl hother
  · intro label _ entry hentry
    cases hentry
  · intro number hnumber
    cases hnumber

theorem run_kept {actions : List RecordedAction} (hrun : RecordedExecution config ctx behave actions r)
    (hpanics : r.session.pipeline.pc ≠ .panicked) : Awaited r ∧ Kept config ctx r (was_cancelled actions) := by
  refine hrun.invariant
    (P := fun actions r => r.session.pipeline.pc ≠ .panicked → Awaited r ∧ Kept config ctx r (was_cancelled actions))
    (fun _ => ⟨start_awaited, start_kept⟩) ?_ hpanics
  intro actions r action next run hbefore _ hstep hnext
  have hmove := recorded_moves hstep
  have halive := hmove.panicked hnext
  obtain ⟨⟨moves, hlive⟩, hpipeline⟩ := run_projections run
  obtain ⟨hmanned, _⟩ := hpipeline halive
  obtain ⟨hawaited, hkept⟩ := hbefore halive
  rw [was_cancelled_snoc]
  exact ⟨hawaited.step haccepted hmanned.steady.numbered hlive hmove,
    hkept.step haccepted hawaited hmanned halive hlive hmove⟩

omit haccepted in
/-- The labels of a run carry its critical events. -/
theorem labels_critical {actions : List RecordedAction} (hrun : RecordedExecution config ctx behave actions r)
    (cancelled : Bool) : ∀ labelled ∈ r.labels config ctx cancelled, labelled.2.is_critical = true := by
  obtain ⟨⟨moves, hlive⟩, _⟩ := run_projections hrun
  have hown := (executor.run_own hlive).1
  simp only [RecordedRun.labels, List.forall_mem_cons, List.forall_mem_append, List.forall_mem_map]
  refine ⟨rfl, ?_, ?_⟩
  · intro entry hentry
    rw [label, WriteEvent.is_critical_set_seq]
    exact (hown entry hentry).critical
  · intro labelled hmem
    obtain ⟨number, _, rfl⟩ := Option.map_eq_some_iff.mp (Option.mem_toList.mp hmem)
    rfl

/-- The end of a run is numbered last when nothing is left running. -/
theorem run_last {actions : List RecordedAction} (hrun : RecordedExecution config ctx behave actions r) {number : Nat}
    (hending : r.session.phase.ending = some number) (hover : r.live.Over)
    (hpanics : r.session.pipeline.pc ≠ .panicked) :
    2 ≤ number ∧ number < r.live.seq ∧ ∀ entry ∈ r.live.log, entry.seq < number := by
  refine hrun.invariant (P := fun _ r => ∀ number, r.session.phase.ending = some number → r.live.Over →
    r.session.pipeline.pc ≠ .panicked → 2 ≤ number ∧ number < r.live.seq ∧ ∀ entry ∈ r.live.log, entry.seq < number)
    ?_ ?_ number hending hover hpanics
  · intro number hending
    cases hending
  intro actions r action next run hbefore _ hstep number hending hover hnext
  have hmove := recorded_moves hstep
  have halive := hmove.panicked hnext
  cases hmove with
  | started => cases hending
  | writes task event hreturned hphase hmoved hfind =>
    have hnone : r.live.loop.running = [] := hover.running
    rw [hnone] at hfind
    cases hfind
  | joins task state hreturned hphase | spawns state hphase | records state event rest hreturned hphase =>
    simp only [hphase, Phase.ending] at hending
    cases hending
  | advises event pipeline hadvisory hphase htry =>
    obtain ⟨hleast, hlt, hlog⟩ := hbefore number hending ⟨hover.between, hover.running⟩ halive
    exact ⟨hleast, Nat.lt_succ_of_lt hlt, hlog⟩
  | pipeline => exact hbefore number hending hover halive
  | finishes cancelled hreturned hphase hbetween =>
    cases hending
    obtain ⟨⟨moves, hlive⟩, _⟩ := run_projections run
    have hawaited := (run_kept haccepted run halive).1
    rw [hawaited.counter]
    exact ⟨hawaited.numbered.1, Nat.lt_succ_self _, (executor.run_transcribed haccepted hlive).below⟩
  | shutdown other pipeline hphase =>
    exact hbefore number (by rw [hphase]; exact hending) hover halive
  | drops | drops_handle => cases hending

end Run

/-- What came through the advisory channel is not critical. -/
def Lanes (s : PipelineState) : Prop := ∀ source ∈ s.accepted, source.event.is_critical = true → source.lane = .critical

theorem lanes_step {s after : PipelineState} (h : Lanes s) {action : PipelineAction}
    (hstep : pipeline_step p s action = some after)
    (hadvisory : ∀ event, action = .try_write event → event.is_critical = false) : Lanes after := by
  cases pipeline_moves hstep with
  | proceeds elapsed after hproceed =>
    have hwriters := proceed_writers hproceed
    simp only [PipelineState.writers, Prod.mk.injEq] at hwriters
    rw [Lanes, hwriters.2.2]
    exact h
  | sends index label ch hlabel hsend =>
    intro source hmem hcritical
    rcases List.mem_append.mp hmem with hold | hnew
    · exact h source hold hcritical
    · rw [List.mem_singleton.mp hnew]
      rfl
  | tries event ch hsenders hsend =>
    intro source hmem hcritical
    rcases List.mem_append.mp hmem with hold | hnew
    · exact h source hold hcritical
    · rw [List.mem_singleton.mp hnew, PipelineState.tried_source, WriteEvent.is_critical_set_seq, hadvisory event rfl] at hcritical
      cases hcritical
  | _ => exact h

/-- Unless the session is dropped. -/
theorem run_lanes {actions : List RecordedAction} (hrun : RecordedExecution config ctx behave actions r)
    (hdropped : ∀ completed, r.session.phase ≠ .dropped completed) : Lanes r.session.pipeline := by
  refine hrun.invariant (P := fun _ r => (∀ completed, r.session.phase ≠ .dropped completed) → Lanes r.session.pipeline)
    ?_ ?_ hdropped
  · exact fun _ source hmem => by cases hmem
  intro actions r action next _ hbefore _ hstep hphases
  cases recorded_moves hstep with
  | started pipeline hphase hsend =>
    have hsent : pipeline_step (session_pipeline config fun _ => false) r.session.pipeline (.send 0) = some pipeline := by
      simp [pipeline_step, hsend]
    refine lanes_step (hbefore ?_) hsent fun event heq => by cases heq
    rw [hphase]
    exact fun completed heq => by cases heq
  | writes | records | joins | spawns => exact hbefore hphases
  | advises event pipeline hadvisory hphase htry =>
    refine lanes_step (hbefore hphases) htry ?_
    rintro other heq
    cases heq
    exact hadvisory
  | pipeline action pipeline hallows hkind htaken =>
    refine lanes_step (hbefore hphases) htaken ?_
    rintro event rfl
    cases hkind
  | finishes cancelled hreturned hphase =>
    refine hbefore ?_
    rw [hphase]
    exact fun completed heq => by cases heq
  | shutdown number pipeline hphase hsent hshutdown =>
    refine lanes_step (hbefore ?_) hshutdown fun event heq => by cases heq
    rw [hphase]
    exact fun completed heq => by cases heq
  | drops completed => exact absurd rfl (hphases completed)
  | drops_handle completed => exact absurd rfl (hphases completed)

/-- The critical events of a finished run, each under its number. -/
def RecordedRun.written (config : ExecutionConfig) (ctx : RunContext) (r : RecordedRun) (number : Nat) (cancelled : Bool) :
    List WriteEvent :=
  (run_started config ctx.run_id).set_seq 1 :: (r.live.log.map executor.Entry.numbered ++
    [(loop_completed ctx r.live.loop cancelled).set_seq number])

/-- The persisted critical events, in the order in which the stores return them. -/
def ExecutionSession.critical_log (s : ExecutionSession) : List WriteEvent :=
  keyed.sort_by_key WriteEvent.seq (s.persisted.filter WriteEvent.is_critical)

/-- A list that matches one in ascending order is what sorting its elements gives. -/
theorem sort_of_forall₂ {R : WriteEvent → WriteEvent → Prop} (hseq : ∀ event stored, R event stored → stored.seq = event.seq)
    {events stored sorted : List WriteEvent} (hascending : events.Pairwise fun earlier later => earlier.seq < later.seq)
    (hmatch : List.Forall₂ R events sorted) (hperm : sorted.Perm stored) :
    keyed.sort_by_key WriteEvent.seq stored = sorted := by
  have hseqs : sorted.map WriteEvent.seq = events.map WriteEvent.seq := by
    clear hascending hperm
    induction hmatch with
    | nil => rfl
    | cons hhead _ ih => rw [List.map_cons, List.map_cons, hseq _ _ hhead, ih]
  have hsorted : (sorted.map WriteEvent.seq).Pairwise fun earlier later => earlier < later := by
    rw [hseqs]
    exact List.pairwise_map.mpr hascending
  have hnodup : (stored.map WriteEvent.seq).Nodup :=
    (hperm.map WriteEvent.seq).nodup_iff.mp (hsorted.imp fun hlt => Nat.ne_of_lt hlt)
  have hlists : keyed.Lists WriteEvent.seq (keyed.sort_by_key WriteEvent.seq stored) { event | event ∈ stored } :=
    keyed.lists_sort_by_key hnodup fun event => Iff.rfl
  exact hlists.unique ⟨List.pairwise_map.mp hsorted, fun event => hperm.mem_iff⟩

/-- The log of what is stored matches what was written. -/
theorem critical_log_matches {redactor : Redactor} {node_meta : String → Option NodeMeta} {sources written : List WriteEvent}
    {s : ExecutionSession} (hperm : sources.Perm written)
    (hmatch : List.Forall₂ (fun event stored => redact_event redactor node_meta event = some stored) sources
      (s.persisted.filter WriteEvent.is_critical))
    (hascending : written.Pairwise fun earlier later => earlier.seq < later.seq) :
    List.Forall₂ (fun event stored => redact_event redactor node_meta event = some stored) written s.critical_log := by
  obtain ⟨sorted, hsorted, hsame⟩ := List.perm_comp_forall₂ hperm.symm hmatch
  rw [ExecutionSession.critical_log,
    sort_of_forall₂ (fun event stored hredact => (redact_event_frame hredact).1) hascending hsorted hsame]
  exact hsorted

/-- The written events are in the order of their numbers. -/
theorem written_ascending {number : Nat} {cancelled : Bool} (hleast : 2 ≤ number)
    (hnumbered : 2 ≤ r.live.seq ∧ ∀ entry ∈ r.live.log, 2 ≤ entry.seq)
    (hlog : r.live.log.Pairwise fun earlier later => earlier.seq < later.seq)
    (hlast : ∀ entry ∈ r.live.log, entry.seq < number) :
    (r.written config ctx number cancelled).Pairwise fun earlier later => earlier.seq < later.seq := by
  rw [RecordedRun.written, List.pairwise_cons, List.pairwise_append, List.pairwise_map]
  have hentry : ∀ entry : executor.Entry, entry.numbered.seq = entry.seq := fun entry =>
    WriteEvent.seq_set_seq entry.seq entry.event
  refine ⟨?_, ?_, List.pairwise_singleton _ _, ?_⟩
  · rw [List.forall_mem_append, List.forall_mem_map, List.forall_mem_singleton]
    simp only [WriteEvent.seq_set_seq, hentry]
    exact ⟨fun entry hmem => hnumbered.2 entry hmem, hleast⟩
  · simpa only [hentry] using hlog
  · rw [List.forall_mem_map]
    intro entry hmem last hlast_mem
    rw [List.mem_singleton.mp hlast_mem, WriteEvent.seq_set_seq, hentry]
    exact hlast entry hmem

/-- The stored critical events are the kept sources, each redacted. -/
theorem stored_critical {s : PipelineState} (hredacts : RedactsOnce p s) (hholds : HoldsOnly (· ∈ s.accepted) s)
    (hlanes : Lanes s) :
    ((s.stored.filter fun entry => entry.event.is_critical).map Entry.source) = kept_sources s.stored ∧
      List.Forall₂ (fun event stored => redact_event p.redactor p.node_meta event = some stored)
        ((s.stored.filter fun entry => entry.event.is_critical).map fun entry => entry.source.event)
        ((s.stored.map Entry.event).filter WriteEvent.is_critical) := by
  constructor
  · rw [kept_sources, List.filter_map]
    refine congrArg _ (List.filter_congr fun entry hmem => ?_)
    rw [(redact_event_frame (hredacts.stored entry hmem)).2, Function.comp, Source.kept]
    cases hcritical : entry.source.event.is_critical with
    | false => rfl
    | true => simp [hlanes entry.source (hholds.stored entry hmem) hcritical]
  · rw [List.filter_map, List.forall₂_map_left_iff, List.forall₂_map_right_iff]
    exact List.forall₂_same.mpr fun entry hmem => hredacts.stored entry (List.mem_filter.mp hmem).1

section Persisted

variable (haccepted : Accepted ctx)

include haccepted

/-- A run that has finished with nothing left running, and whose flush loop has returned before the
counter wrapped. -/
structure Finished (r : RecordedRun) (number : Nat) : Prop where
  quiet : r.live.Over
  phase : r.session.phase = .finished number
  returned : r.session.pipeline.pc = .returned
  unwrapped : r.session.pipeline.next_seq ≤ 2 ^ 64

omit haccepted in
theorem Finished.lives {number : Nat} (h : Finished r number) : r.session.pipeline.pc ≠ .panicked := by
  rw [h.returned]
  exact fun heq => by cases heq

/-- The store of a finished run has the written events, and has redacted each of them once. -/
theorem written_stored {actions : List RecordedAction} (hrun : RecordedExecution config ctx behave actions r) {number : Nat}
    (hfinished : Finished r number) :
    ∃ sources, sources.Perm (r.written config ctx number (was_cancelled actions)) ∧
      List.Forall₂ (fun event stored => redact_event config.redactor (fun _ => none) event = some stored) sources
        (r.session.persisted.filter WriteEvent.is_critical) ∧
      (r.written config ctx number (was_cancelled actions)).Pairwise fun earlier later => earlier.seq < later.seq := by
  have halive := hfinished.lives
  obtain ⟨hover, hphase, hreturned, hwraps⟩ := hfinished
  obtain ⟨⟨moves, hlive⟩, hpipeline⟩ := run_projections hrun
  obtain ⟨_, taken, htaken⟩ := hpipeline halive
  obtain ⟨hawaited, hkept⟩ := run_kept haccepted hrun halive
  obtain ⟨hwaiting, hearly, hgiven⟩ := hkept.quiet number hphase hover
  have hlanes := run_lanes hrun (by rw [hphase]; exact fun completed heq => by cases heq)
  have hending : r.session.phase.ending = some number := by rw [hphase]; rfl
  obtain ⟨hleast, hlt, hlast⟩ := run_last haccepted hrun hending hover halive
  rw [hawaited.counter] at hwraps
  -- no number has wrapped, so the labels carry the events as written
  have hlabels : (r.labels config ctx (was_cancelled actions)).map Prod.snd =
      r.written config ctx number (was_cancelled actions) := by
    simp only [RecordedRun.labels, RecordedRun.written, hending, Option.map_some, Option.toList_some, List.map_cons,
      List.map_append, List.map_map, List.map_nil, Nat.mod_eq_of_lt (show number < 2 ^ 64 by omega)]
    refine congrArg _ (congrArg (· ++ _) (List.map_congr_left fun entry hentry => ?_))
    have hbelow := hlast entry hentry
    simp only [Function.comp, label, executor.Entry.numbered, Nat.mod_eq_of_lt (show entry.seq < 2 ^ 64 by omega)]
  -- the store has the sources that the critical channel took
  obtain ⟨hsources, hmatch⟩ := stored_critical (run_redacts_once (fun _ => rfl) htaken) (run_holds_accepted htaken) hlanes
  have hkept_early : ∀ source ∈ r.session.pipeline.accepted, source.kept = true → source.early = true := by
    intro source hmem hkind
    simp only [Source.kept, Bool.and_eq_true, decide_eq_true_eq] at hkind
    exact hearly source hmem hkind.2
  have hstored := returned_keeps (fun _ => rfl) htaken hreturned hkept_early
  have hall : r.session.pipeline.accepted.filter Source.kept =
      r.session.pipeline.accepted.filter fun source => source.lane = .critical := by
    refine List.filter_congr fun source hmem => ?_
    by_cases hlane : source.lane = .critical
    · have hin : (source.number, source.event) ∈ given r.session.pipeline := List.mem_append_right _
        (List.mem_map.mpr ⟨source, List.mem_filter.mpr ⟨hmem, by simpa using hlane⟩, rfl⟩)
      have hcritical := labels_critical hrun _ _ (hgiven.subset hin)
      simpa [Source.kept, hlane] using hcritical
    · simp [Source.kept, hlane]
  refine ⟨_, ?_, hmatch, ?_⟩
  · have hsame : (r.session.pipeline.stored.filter fun entry => entry.event.is_critical).map
        (fun entry => entry.source.event) = (given r.session.pipeline).map Prod.snd := by
      rw [given, hwaiting, List.nil_append, ← hall, ← hstored, ← hsources, List.map_map, List.map_map]
      rfl
    rw [hsame, ← hlabels]
    exact hgiven.map Prod.snd
  · exact written_ascending hleast hawaited.numbered (executor.run_transcribed haccepted hlive).numbered hlast

/-- When the flush loop of a finished run has returned, with nothing left running, the store holds
the start of the run, what the executor wrote and the end of the run, each redacted once and under
its number, and no other critical event. -/
theorem run_persisted {actions : List RecordedAction} (hrun : RecordedExecution config ctx behave actions r) {number : Nat}
    (hfinished : Finished r number) :
    ∃ cancelled, List.Forall₂ (fun event stored => redact_event config.redactor (fun _ => none) event = some stored)
      (r.written config ctx number cancelled) r.session.critical_log := by
  obtain ⟨sources, hperm, hmatch, hascending⟩ := written_stored haccepted hrun hfinished
  exact ⟨was_cancelled actions, critical_log_matches hperm hmatch hascending⟩

end Persisted

open executor (partial_failure_sample partial_failure_behaviour partial_failure_moves)

/-- The session of a flow with a fan-out, of whose instances one fails. -/
def partial_failure_config : ExecutionConfig :=
  execute_config default_redactor (.default fun _ => true) (fun _ => "hash") partial_failure_sample.graph "version"
    partial_failure_sample.inputs (.manual "user") none

/-- Each write returns before the next move. -/
def recorded_moves_of (moves : List Move) : List RecordedAction :=
  moves.flatMap fun move => match move with
    | .write _ | .record => [.live move, .pipeline (.send 0)]
    | _ => [.live move]

/-- The flow runs, the session finishes, and the flush loop returns. -/
def partial_failure_actions : List RecordedAction :=
  .started :: (recorded_moves_of partial_failure_moves ++ [.finish false, .pipeline (.send 0), .shutdown] ++
    List.replicate 18 (.pipeline (.proceed false)))

/-- Whether the run is over, has finished and its loop has returned, the next number, and the keys of
what is persisted. -/
def RecordedRun.summary (r : RecordedRun) : Bool × Option Nat × Nat × List (String × Nat) :=
  (r.live.iteration.isNone && r.live.loop.running.isEmpty && (match r.session.pipeline.pc with
    | .returned => true
    | _ => false),
    (match r.session.phase with
    | .finished number => some number
    | _ => none),
    r.session.pipeline.next_seq, r.session.persisted.map fun event => (event.run_id, event.seq))

/-- The numbers of the events of the sample. -/
def partial_failure_keys : List (String × Nat) := (List.range' 1 11).map fun seq => (partial_failure_sample.run_id, seq)

theorem partial_failure_accepted : Accepted partial_failure_sample := executor.sample_accepted 50 (by decide +kernel)

theorem summary_finished {next_seq number : Nat} {keys : List (String × Nat)}
    (hsummary : r.summary = (true, some number, next_seq, keys)) :
    r.live.Over ∧ r.session.phase = .finished number ∧ r.session.pipeline.pc = .returned ∧
      r.session.pipeline.next_seq = next_seq ∧ (r.session.persisted.map fun event => (event.run_id, event.seq)) = keys := by
  simp only [RecordedRun.summary, Prod.mk.injEq, Bool.and_eq_true, Option.isNone_iff_eq_none, List.isEmpty_iff] at hsummary
  obtain ⟨⟨⟨hbetween, hrunning⟩, hreturned⟩, hphase, hnext, hkeys⟩ := hsummary
  refine ⟨⟨hbetween, hrunning⟩, ?_, ?_, hnext, hkeys⟩
  · split at hphase
    · cases hphase
      assumption
    · cases hphase
  · split at hreturned
    · assumption
    · cases hreturned

theorem partial_failure_recorded : ∃ r,
    RecordedExecution partial_failure_config partial_failure_sample partial_failure_behaviour partial_failure_actions r ∧
      Finished r 11 ∧ r.session.pipeline.next_seq = 12 ∧
        (r.session.persisted.map fun event => (event.run_id, event.seq)) = partial_failure_keys := by
  have hsummary : (partial_failure_actions.foldlM
      (recorded_step (session_pipeline partial_failure_config fun _ => false) partial_failure_sample partial_failure_behaviour)
      (recorded_start (session_pipeline partial_failure_config fun _ => false) partial_failure_config
        partial_failure_sample)).map RecordedRun.summary = some (true, some 11, 12, partial_failure_keys) := by
    decide +kernel
  obtain ⟨r, hfold, hr⟩ := Option.map_eq_some_iff.mp hsummary
  obtain ⟨hover, hphase, hreturned, hnext, hkeys⟩ := summary_finished hr
  exact ⟨r, transition.run_of_foldlM hfold, ⟨hover, hphase, hreturned, by rw [hnext]; decide⟩, hnext, hkeys⟩

theorem run_persisted_sample : ∃ r,
    RecordedExecution partial_failure_config partial_failure_sample partial_failure_behaviour partial_failure_actions r ∧
      r.session.persisted.length = 11 ∧
      ∃ cancelled, List.Forall₂ (fun event stored => redact_event default_redactor (fun _ => none) event = some stored)
        (r.written partial_failure_config partial_failure_sample 11 cancelled) r.session.critical_log := by
  obtain ⟨r, hrun, hfinished, _, hkeys⟩ := partial_failure_recorded
  refine ⟨r, hrun, by simpa [partial_failure_keys] using congrArg List.length hkeys, ?_⟩
  exact run_persisted partial_failure_accepted hrun hfinished

end flow_engine.runtime
