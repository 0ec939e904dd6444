import FlowEngine.Pipeline.Survival
import FlowEngine.Runtime.Progress
import FlowEngine.Runtime.Streamed

namespace flow_engine.runtime

open write_pipeline
open broadcast (FleetAction Told)
open executor (RunContext Behaviour Live LiveRun Move TaskId Accepted SmallOutputs)

variable {config : ExecutionConfig} {ctx : RunContext} {behave : executor.Task → Behaviour} {r next : RecordedRun}
variable {fails : Nat → Bool} {states : ℕ → RecordedRun} {taken : ℕ → Option RecordedAction}

section Persists

/-- Where redaction always returns a flush loop that can start lives. -/
theorem run_over_lives (hroom : 0 < config.critical_capacity) (hstarts : config.pipeline_config.starts = true)
    (hredacts : ∀ event, redact_event config.redactor (fun _ => none) event ≠ none) {actions : List RecordedAction}
    (hrun : RunOver config fails ctx behave actions r) : r.session.pipeline.pc ≠ .panicked := by
  refine hrun.invariant (P := fun _ r => r.session.pipeline.pc ≠ .panicked) (fun heq => by cases heq) ?_
  intro actions r action next hreached hlives _ hstep hpanics
  obtain ⟨hworkable, _⟩ := run_workable hroom hreached
  rcases (recorded_moves hstep).pipeline_step hworkable.handled with hsame | ⟨taken, htaken⟩
  · exact hlives (hsame ▸ hpanics)
  · generalize next.session.pipeline = after at htaken hpanics
    cases pipeline_moves htaken with
    | proceeds elapsed after hproceed =>
      rcases proceed_panics hproceed hpanics with ⟨_, hunstarted⟩ | ⟨_, _, entry, _, hnone⟩
      · exact Bool.false_ne_true (hunstarted.symm.trans hstarts)
      · exact hredacts entry.event hnone
    | _ => exact hlives hpanics

/-- A run that has not come to its end was not cancelled. -/
theorem uncancelled {actions : List RecordedAction} (hrun : RunOver config fails ctx behave actions r)
    (hphase : r.session.phase = .starting ∨ r.session.phase = .live) : was_cancelled actions = false := by
  refine hrun.invariant (P := fun actions r => r.session.phase = .starting ∨ r.session.phase = .live →
    was_cancelled actions = false) (fun _ => rfl) ?_ hphase
  intro actions r action next _ hbefore _ hstep hnext
  rw [was_cancelled_snoc]
  cases recorded_moves hstep with
  | started _ hphase => exact hbefore (Or.inl hphase)
  | writes | joins | records | spawns | advises | pipeline => exact hbefore hnext
  | finishes | shutdown | drops | drops_handle => rcases hnext with hnext | hnext <;> cases hnext

/-- Nor is it when it is left to itself. -/
theorem uncancelled_after {actions more : List RecordedAction} (hbefore : was_cancelled actions = false)
    (hrun : transition.Run (recorded_step (session_pipeline config fails) ctx behave)
      (fun _ action => action.undisturbed = true) r more next) : was_cancelled (actions ++ more) = false := by
  refine hrun.invariant (P := fun more _ => was_cancelled (actions ++ more) = false) (by rwa [List.append_nil]) ?_
  intro more r action next _ hsofar hundisturbed _
  rw [← List.append_assoc, was_cancelled_snoc, hsofar]
  cases action with
  | finish cancelled =>
    cases cancelled with
    | true => cases hundisturbed
    | false => rfl
  | _ => rfl

/-- A run over a working store, with a flush loop that can start, is recorded if it is left to itself:
at some time the flush loop has returned and the store holds the start of the run, all that the
executor wrote until its last task was joined, and the end of the run. -/
theorem fair_run_persists (haccepted : Accepted ctx) (hpanic : ∀ task, (behave task).NoPanic)
    (hsmall : SmallOutputs ctx behave) (hroom : 0 < config.critical_capacity)
    (hstarts : config.pipeline_config.starts = true)
    (hredacts : ∀ event, redact_event config.redactor (fun _ => none) event ≠ none) {actions : List RecordedAction}
    (hrun : RecordedExecution config ctx behave actions r) (hphase : r.session.phase = .starting ∨ r.session.phase = .live)
    (hfair : FairExecution config (fun _ => false) ctx behave r states taken) :
    ∃ n number, (states n).live.Over ∧ (states n).session.phase = .finished number ∧
      (states n).session.pipeline.pc = .returned ∧ ((states n).session.pipeline.next_seq ≤ 2 ^ 64 →
        List.Forall₂ (fun event stored => redact_event config.redactor (fun _ => none) event = some stored)
          ((states n).written config ctx number false) (states n).session.critical_log) := by
  obtain ⟨n, hrest⟩ := hfair.reaches wellFounded_lt _ _ (fair_helped hroom hrun hfair haccepted hpanic hsmall fun _ => hstarts)
  obtain ⟨more, hreached, hmore⟩ := fair_reached hrun hfair n
  obtain ⟨⟨number, hfinished⟩, hover⟩ := hrest.finished hmore hphase
  have hlives := run_over_lives hroom hstarts hredacts hreached
  have hreturned : (states n).session.pipeline.pc = .returned := by
    have hended := hrest.loop_over
    cases hpc : (states n).session.pipeline.pc <;> simp_all [Pc.over]
  refine ⟨n, number, hover, hfinished, hreturned, fun hwraps => ?_⟩
  have hdone : Finished (states n) number := ⟨hover, hfinished, hreturned, hwraps⟩
  obtain ⟨sources, hperm, hmatch, hascending⟩ := written_stored haccepted hreached hdone
  rw [uncancelled_after (uncancelled hrun hphase) hmore] at hperm hascending
  exact critical_log_matches hperm hmatch hascending

/-- A session does not redact by nodes, so the default redactor always returns. -/
theorem default_redacts (event : WriteEvent) : redact_event default_redactor (fun _ => none) event ≠ none := by
  intro hnone
  obtain ⟨masked, hmasked, _⟩ := redact_event_eq_none_iff.mp hnone
  cases event <;> simp [masked_values] at hmasked

open executor (partial_failure_sample partial_failure_behaviour)

theorem fair_run_persists_sample : ∃ states taken,
    FairExecution partial_failure_config (fun _ => false) partial_failure_sample partial_failure_behaviour
      (recorded_start (session_pipeline partial_failure_config fun _ => false) partial_failure_config partial_failure_sample)
      states taken ∧
    ∃ n number, (states n).live.Over ∧ (states n).session.phase = .finished number ∧
      (states n).session.pipeline.pc = .returned := by
  obtain ⟨states, taken, hfair⟩ := partial_failure_fair
  obtain ⟨n, number, hover, hphase, hreturned, _⟩ := fair_run_persists partial_failure_accepted executor.partial_failure_no_panic
    partial_failure_small (by decide) rfl default_redacts
    (transition.Run.nil : RecordedExecution partial_failure_config partial_failure_sample partial_failure_behaviour []
      (recorded_start (session_pipeline partial_failure_config fun _ => false) partial_failure_config
        partial_failure_sample)) (Or.inl rfl) hfair
  exact ⟨states, taken, hfair, n, number, hover, hphase, hreturned⟩

end Persists

section Watched

variable {p : WritePipeline} {s after : WatchedRun} {action : WatchedAction}

/-- Who acts in a watched run: a party of the run, or the client that has the session's handle. -/
inductive Actor where
  | party (party : Party)
  | client
  deriving DecidableEq

/-- What other receivers do is their own matter. -/
def WatchedAction.actor : WatchedAction → Option Actor
  | .run action => action.party.map .party
  | .announce id => some (.party (.task id))
  | .broadcast => some (.party .loop)
  | .receive 0 => some .client
  | .subscribe | .receive _ | .stop _ => none

def WatchedAction.undisturbed : WatchedAction → Bool
  | .run action => action.undisturbed
  | _ => true

namespace WatchedRun

/-- The broadcasts that are due before the tasks in flight can write, and the loop go on. -/
def unannounced (s : WatchedRun) : Nat :=
  (s.run.live.loop.running.map fun task => if s.ready task.id then 0 else 1).sum + if s.owed.isSome then 1 else 0

/-- What the client has still to receive. -/
def unread (s : WatchedRun) : Nat := broadcast.unread (fun _ => ()) 0 s.stream

/-- Nothing is left to do. -/
structure Still (s : WatchedRun) : Prop where
  rested : Rested s.run
  owes_none : s.owed = none
  read : s.unread = 0

variable (ctx : RunContext) (behave : executor.Task → Behaviour)

/-- How far a watched run is from its end. -/
def distance (s : WatchedRun) : (ℕ ×ₗ (ℕ ×ₗ ℕ ×ₗ ℕ ×ₗ ℕ) ×ₗ ℕ ×ₗ WithBot (ℕ ×ₗ ℕ ×ₗ ℕ)) ×ₗ ℕ ×ₗ ℕ :=
  toLex (s.run.distance ctx behave, toLex (s.unannounced, s.unread))

/-- Who can act of the run and its loop, which has to broadcast what it has written if no write waits. -/
def next_party (s : WatchedRun) : Party :=
  if s.owed.isSome && s.run.session.pipeline.waiting.isEmpty then .loop else s.run.helpful ctx behave

/-- Who can act. -/
def helpful (s : WatchedRun) : Actor := if 0 < s.unread then .client else .party (s.next_party ctx behave)

end WatchedRun

section Nearer

theorem watched_nearer (h : after.run.distance ctx behave < s.run.distance ctx behave) :
    after.distance ctx behave < s.distance ctx behave := Prod.Lex.toLex_lt_toLex.mpr (.inl h)

/-- A broadcast brings the end nearer. -/
theorem nearer_of_unannounced (hrun : after.run = s.run) (h : after.unannounced < s.unannounced) :
    after.distance ctx behave < s.distance ctx behave :=
  Prod.Lex.toLex_lt_toLex.mpr (.inr ⟨by rw [hrun], Prod.Lex.toLex_lt_toLex.mpr (.inl h)⟩)

theorem announce_nearer {id : TaskId} {event : WriteEvent} {stream : EventStream} (hready : s.ready id = false)
    (hupcoming : s.run.upcoming ctx behave id = some event) :
    WatchedRun.distance ctx behave { s with ready := Function.update s.ready id true, stream } < s.distance ctx behave := by
  refine nearer_of_unannounced rfl (Nat.add_lt_add_right ?_ _)
  obtain ⟨_, task, hfind, rfl, _⟩ := upcoming_eq_some hupcoming
  refine List.sum_lt_sum _ _ ?_ ⟨task, List.mem_of_find?_eq_some hfind, ?_⟩
  · intro other _
    by_cases hid : other.id = task.id
    · simp [hid]
    · simp [hid]
  · simp [hready]

/-- The flush loop's steps are nothing to the broadcasts. -/
theorem pipeline_same {taken : PipelineAction} {next : RecordedRun} (hsends : ∀ index, taken ≠ .send index)
    (hother : RecordedAction.party (.pipeline taken) ≠ some (s.run.helpful ctx behave)) (hsame : SameHelp s.run next)
    (hflush : next.flush_distance = s.run.flush_distance) :
    WatchedAction.actor (.run (.pipeline taken)) ≠ some (s.helpful ctx behave) ∧
      (s.acted config ctx (.pipeline taken) next).distance ctx behave = s.distance ctx behave ∧
      (s.acted config ctx (.pipeline taken) next).helpful ctx behave = s.helpful ctx behave := by
  have howed : s.owes ctx (.pipeline taken) = s.owed := by
    cases taken with
    | send index => exact absurd rfl (hsends index)
    | _ => rfl
  have hparty : RecordedAction.party (.pipeline taken) ≠ some (s.next_party ctx behave) := by
    unfold WatchedRun.next_party
    split
    · cases taken <;> exact fun heq => by cases heq
    · exact hother
  refine ⟨fun heq => ?_, ?_, ?_⟩
  · obtain ⟨party, hsome, hactor⟩ := Option.map_eq_some_iff.mp heq
    unfold WatchedRun.helpful at hactor
    split at hactor
    · cases hactor
    · cases hactor
      exact hparty hsome
  · simp only [WatchedRun.distance, WatchedRun.acted, WatchedRun.unannounced, WatchedRun.unread, howed, hsame.distance hflush,
      hsame.live]
  · have hnext : (s.acted config ctx (.pipeline taken) next).next_party ctx behave = s.next_party ctx behave := by
      have hacted : (s.acted config ctx (.pipeline taken) next).owed = s.owed := howed
      rw [WatchedRun.next_party, hacted]
      change (if s.owed.isSome && next.session.pipeline.waiting.isEmpty then Party.loop else next.helpful ctx behave) = _
      rw [hsame.waiting, hsame.helpful]
      rfl
    rw [WatchedRun.helpful, hnext]
    rfl

/-- A receiver does not put the client behind, and the client comes nearer to the end as it receives. -/
theorem watch_nearer_or_same {stream : EventStream} {taken : FleetAction Unit Unit WriteEvent}
    (hstream : stream_step s.stream taken = some stream) (hsilent : ∀ k a, taken ≠ .publish k a)
    (hhand : ∀ other, taken ≠ .hand other) (hactor : ∀ actor, action.actor = some actor → taken = .receive 0) :
    WatchedRun.distance ctx behave { s with stream } < s.distance ctx behave ∨ action.actor ≠ some (s.helpful ctx behave) ∧
      WatchedRun.distance ctx behave { s with stream } = s.distance ctx behave ∧
      WatchedRun.helpful ctx behave { s with stream } = s.helpful ctx behave := by
  have hnearer : WatchedRun.unread { s with stream } < s.unread →
      WatchedRun.distance ctx behave { s with stream } < s.distance ctx behave := fun hless =>
    Prod.Lex.toLex_lt_toLex.mpr (.inr ⟨rfl, Prod.Lex.toLex_lt_toLex.mpr (.inr ⟨rfl, hless⟩)⟩)
  have hle : WatchedRun.unread { s with stream } ≤ s.unread := broadcast.unread_le hstream hsilent hhand
  rcases Nat.lt_or_eq_of_le hle with hless | hsame
  · exact .inl (hnearer hless)
  · cases hacts : action.actor with
    | none =>
      refine .inr ⟨fun heq => (by cases heq), ?_, ?_⟩
      · rw [WatchedRun.distance, hsame]
        rfl
      · rw [WatchedRun.helpful, hsame]
        rfl
    | some actor =>
      cases hactor actor hacts
      exact .inl (hnearer (broadcast.unread_receive hstream))

/-- What happens to a watched run brings its end nearer, or leaves the same party to do so. -/
theorem watched_nearer_or_same (h : Workable p s.run) {moves : List Move}
    (hlive : LiveRun ctx behave 2 moves s.run.live) (hundisturbed : action.undisturbed = true)
    (hstep : watched_step config ctx behave p s action = some after) :
    after.distance ctx behave < s.distance ctx behave ∨ action.actor ≠ some (s.helpful ctx behave) ∧
      after.distance ctx behave = s.distance ctx behave ∧ after.helpful ctx behave = s.helpful ctx behave := by
  cases watched_moves hstep with
  | @run action next hawaits hrecorded =>
    have hmove := recorded_moves hrecorded
    by_cases hkind : ∃ taken, action = .pipeline taken
    · obtain ⟨taken, rfl⟩ := hkind
      cases hmove with
      | pipeline _ pipeline hallows hkind htaken =>
        rcases h.pipeline_nearer hkind htaken rfl with hless | ⟨hother, hsame, hflush⟩
        · exact .inl (watched_nearer hless)
        · refine .inr (pipeline_same ?_ hother hsame hflush)
          rintro index rfl
          have hless : RecordedRun.distance ctx behave _ < s.run.distance ctx behave := send_nearer htaken rfl
          rw [hsame.distance hflush] at hless
          exact lt_irrefl _ hless
    · exact .inl (watched_nearer (hmove.nearer hlive hundisturbed fun taken heq => hkind ⟨taken, heq⟩))
  | announce hready hupcoming => exact .inl (announce_nearer hready hupcoming)
  | broadcast hreturned howed => exact .inl (nearer_of_unannounced rfl (by simp [WatchedRun.unannounced, howed]))
  | watch hstream htaken hsilent hother =>
    cases action with
    | run => cases hother
    | announce id => simp [stream_action, hsilent] at htaken
    | broadcast => simp [stream_action, hsilent] at htaken
    | subscribe | stop index =>
      cases htaken
      exact watch_nearer_or_same hstream (fun k a heq => by cases heq) (fun other heq => by cases heq) fun actor hacts => by
        cases hacts
    | receive index =>
      cases htaken
      refine watch_nearer_or_same hstream (fun k a heq => by cases heq) (fun other heq => by cases heq) fun actor hacts => ?_
      cases index with
      | zero => rfl
      | succ index => cases hacts

end Nearer

section Enabled

/-- A broadcast that is due when no write waits can be made. -/
theorem broadcast_enabled (hnone : s.run.session.pipeline.waiting = []) {event : WriteEvent} (howed : s.owed = some event) :
    transition.Enabled (watched_step config ctx behave p) WatchedAction.actor s (.party .loop) := by
  have hreturned : s.run.session_writing = false := by
    rw [RecordedRun.session_writing, writing_none hnone, hnone]
    cases s.run.session.phase <;> rfl
  exact ⟨.broadcast, { s with owed := none, stream := heard s.stream event }, rfl, by simp [watched_step, hreturned, howed]⟩

/-- After its start a session's loop is helpful when no write waits. -/
theorem helpful_loop {r : RecordedRun} (hphase : r.session.phase ≠ .starting) (hloop : r.helpful ctx behave = .loop) :
    r.session.pipeline.waiting = [] := by
  unfold RecordedRun.helpful at hloop
  split at hloop
  · rename_i hfirst
    rw [Bool.or_eq_true, List.isEmpty_iff] at hfirst
    exact hfirst.resolve_left fun hstarting => hphase (Phase.eq_starting hstarting)
  · split at hloop <;> cases hloop

theorem upcoming_of_writes {r : RecordedRun} {task : executor.Task} {event : WriteEvent} (hphase : r.session.phase ≠ .starting)
    (hreturned : r.writing (executor.by_task task.id) = false)
    (hfind : r.live.loop.running.find? (fun other => other.id = task.id) = some task)
    (hevent : (executor.script ctx behave task).1[r.live.written task.id]? = some event) :
    r.upcoming ctx behave task.id = some event := by
  unfold RecordedRun.upcoming
  split
  · rename_i hstarting
    exact absurd hstarting hphase
  · simp [hreturned, hfind, hevent]

/-- When the action of the party that is helpful has to wait while the loop has no broadcast to make, it
is the write of a task, which can broadcast. -/
theorem awaited_enabled {action : RecordedAction} {next : RecordedRun}
    (hquiet : s.run.session.phase ≠ .starting → s.run.helpful ctx behave = .loop → s.owed.isSome = false)
    (hparty : action.party = some (s.run.helpful ctx behave)) (hstep : recorded_step p ctx behave s.run action = some next)
    (hawaits : s.awaits action = true) :
    transition.Enabled (watched_step config ctx behave p) WatchedAction.actor s (.party (s.run.helpful ctx behave)) := by
  have hloop : action.party = some .loop → s.run.session.phase ≠ .starting → s.owed.isSome ≠ true := by
    intro hacts hphase howed
    rw [hquiet hphase (Option.some.inj (hparty.symm.trans hacts))] at howed
    cases howed
  cases recorded_moves hstep with
  | writes task event hreturned hphase hmove hfind hevent =>
    have hready : s.ready task.id = false := by simpa [WatchedRun.awaits] using hawaits
    have hupcoming := upcoming_of_writes hphase hreturned hfind hevent
    exact ⟨.announce task.id, { s with ready := Function.update s.ready task.id true, stream := heard s.stream event },
      congrArg (Option.map Actor.party) hparty, by simp [watched_step, hready, hupcoming]⟩
  | joins _ _ _ hphase | records _ _ _ _ hphase | spawns _ hphase | shutdown _ _ hphase =>
    refine absurd hawaits (hloop rfl fun heq => ?_)
    rw [hphase] at heq
    cases heq
  | finishes cancelled hreturned hphase =>
    cases cancelled with
    | true => cases hparty
    | false =>
      refine absurd hawaits (hloop rfl fun heq => ?_)
      rw [hphase] at heq
      cases heq
  | started | pipeline | drops_handle => cases hawaits
  | advises | drops => cases hparty

/-- Until the run is at rest and its events are broadcast one of its parties can act. -/
theorem watched_party_enabled (haccepted : Accepted ctx) (hpanic : ∀ task, (behave task).NoPanic)
    (hsmall : SmallOutputs ctx behave) (h : Workable p s.run) {moves : List Move}
    (hlive : LiveRun ctx behave 2 moves s.run.live) (hstarts : p.config.starts = true) (hrest : ¬ (Rested s.run ∧ s.owed = none)) :
    transition.Enabled (watched_step config ctx behave p) WatchedAction.actor s (.party (s.next_party ctx behave)) := by
  unfold WatchedRun.next_party
  split
  · rename_i hbroadcasts
    simp only [Bool.and_eq_true, List.isEmpty_iff, Option.isSome_iff_exists] at hbroadcasts
    obtain ⟨⟨event, howed⟩, hnone⟩ := hbroadcasts
    exact broadcast_enabled hnone howed
  · rename_i hwaits
    have hquiet : s.run.session.pipeline.waiting = [] → s.owed.isSome = false := by
      intro hnone
      rw [hnone, List.isEmpty_nil, Bool.and_true, Bool.not_eq_true] at hwaits
      exact hwaits
    have hrun : ¬ Rested s.run := by
      intro hrun
      exact hrest ⟨hrun, by simpa using hquiet hrun.returned⟩
    obtain ⟨action, next, hparty, hstep⟩ := helpful_enabled haccepted hpanic hsmall h hlive (fun _ => hstarts) hrun
    cases hawaits : s.awaits action with
    | false =>
      exact ⟨.run action, s.acted config ctx action next, congrArg (Option.map Actor.party) hparty,
        by simp [watched_step, hawaits, hstep]⟩
    | true => exact awaited_enabled (fun hphase hloop => hquiet (helpful_loop hphase hloop)) hparty hstep hawaits

/-- Until nothing is left to do the helpful actor can act. -/
theorem watched_helpful_enabled (haccepted : Accepted ctx) (hpanic : ∀ task, (behave task).NoPanic)
    (hsmall : SmallOutputs ctx behave) (h : Workable p s.run) {moves : List Move}
    (hlive : LiveRun ctx behave 2 moves s.run.live) (hstarts : p.config.starts = true) (hstill : ¬ s.Still) :
    transition.Enabled (watched_step config ctx behave p) WatchedAction.actor s (s.helpful ctx behave) := by
  unfold WatchedRun.helpful
  split
  · rename_i hunread
    obtain ⟨stream, hreceive⟩ : ∃ stream, stream_step s.stream (.receive 0) = some stream :=
      broadcast.receive_of_unread hunread
    exact ⟨.receive 0, { s with stream }, rfl, by rw [watched_step, hreceive, Option.map_some]⟩
  · rename_i hread
    refine watched_party_enabled haccepted hpanic hsmall h hlive hstarts fun hrest => hstill ⟨hrest.1, hrest.2, ?_⟩
    exact Nat.eq_zero_of_not_pos hread

end Enabled

section Fair

variable {watched : ℕ → WatchedRun} {acts : ℕ → Option WatchedAction}

/-- A watched run over any store. -/
abbrev WatchedOver (config : ExecutionConfig) (fails : Nat → Bool) (ctx : RunContext) (behave : executor.Task → Behaviour) :
    List WatchedAction → WatchedRun → Prop :=
  transition.Run (watched_step config ctx behave (session_pipeline config fails)) (fun _ _ => True)
    (watched_start config ctx (session_pipeline config fails))

/-- A fair run that is watched: it is left to itself, and its parties and the client act when they can. -/
abbrev FairWatched (config : ExecutionConfig) (fails : Nat → Bool) (ctx : RunContext) (behave : executor.Task → Behaviour) :
    WatchedRun → (ℕ → WatchedRun) → (ℕ → Option WatchedAction) → Prop :=
  transition.FairRun (watched_step config ctx behave (session_pipeline config fails))
    (fun _ action => action.undisturbed = true) WatchedAction.actor

/-- Whatever the store and the other receivers do, the run comes to rest, all is broadcast, and the
client has received all or has stopped. -/
theorem fair_watched_still (haccepted : Accepted ctx) (hpanic : ∀ task, (behave task).NoPanic)
    (hsmall : SmallOutputs ctx behave) (hroom : 0 < config.critical_capacity)
    (hstarts : config.pipeline_config.starts = true) {actions : List WatchedAction}
    (hrun : WatchedOver config fails ctx behave actions s) (hfair : FairWatched config fails ctx behave s watched acts) :
    ∃ n, (watched n).Still := by
  refine hfair.reaches wellFounded_lt (WatchedRun.distance ctx behave) (WatchedRun.helpful ctx behave) fun n => ?_
  obtain ⟨more, hmore⟩ := hfair.reached n
  have hreached := hrun.append (hmore.mono fun _ _ _ => trivial)
  obtain ⟨hworkable, moves, hlive⟩ := run_workable hroom (watched_run_recorded (fun _ _ _ => trivial) hreached)
  constructor
  · exact fun hstill => watched_helpful_enabled haccepted hpanic hsmall hworkable hlive hstarts hstill
  · exact fun _ action next hundisturbed hstep => watched_nearer_or_same hworkable hlive hundisturbed hstep

/-- A client that has nothing left to receive was told of all that was broadcast, and of the last event itself. -/
theorem told_last {actions : List WatchedAction} (hrun : WatchedExecution config ctx behave actions s)
    (hkeeps : ∀ r, s.stream.readers[0]? = some r → r.2.stopped = false) (hread : s.unread = 0)
    {earlier : List (Speaker × WriteEvent)} {last : Speaker × WriteEvent}
    (hsaid : announced config ctx behave actions = earlier ++ [last]) :
    broadcast.Covers ((announced config ctx behave actions).map Prod.snd) (received config ctx behave 0 actions) ∧
      ∃ before, received config ctx behave 0 actions = before ++ [.value last.2] := by
  have hreader : s.stream.readers[0]? = some (s.stream.readers.get ⟨0, handle_receives hrun⟩) :=
    List.getElem?_eq_getElem (handle_receives hrun)
  have hfree := nothing_pending hrun hreader
  have hnone : stream_step s.stream (.receive 0) = none := by
    cases hstep : stream_step s.stream (.receive 0) with
    | none => rfl
    | some stream =>
      have hless := broadcast.unread_receive hstep
      exact absurd hread (Nat.ne_of_gt (Nat.zero_lt_of_lt hless))
  have hcapacity : ∀ k ch, new_stream.channels k = some ch → 0 < ch.capacity := by
    intro k ch hch
    cases hch
    exact broadcast.Channel.new_capacity_pos 256
  have hpublished : offered config ctx behave 0 actions = earlier.map Prod.snd ++ [last.2] := by
    rw [offered_announced hrun, hsaid, List.map_append]
    rfl
  rw [offered_eq hrun] at hpublished
  rw [← offered_announced hrun, offered_eq hrun, received_eq hrun]
  exact ⟨broadcast.run_read_up stream_fresh (stream_run hrun) hreader (hkeeps _ hreader) hfree hnone,
    broadcast.run_told_last stream_fresh (stream_run hrun) hreader (hkeeps _ hreader) hfree hnone hcapacity hpublished⟩

/-- A client that keeps receiving is told of all of a run that is left to itself, but for what it is
told it has missed, and at last of its end, however far it has fallen behind, if the flush loop can start. -/
theorem client_told_end (haccepted : Accepted ctx) (hpanic : ∀ task, (behave task).NoPanic)
    (hsmall : SmallOutputs ctx behave) (hroom : 0 < config.critical_capacity)
    (hstarts : config.pipeline_config.starts = true)
    (hredacts : ∀ event, redact_event config.redactor (fun _ => none) event ≠ none) {actions : List WatchedAction}
    (hrun : WatchedExecution config ctx behave actions s)
    (hphase : s.run.session.phase = .starting ∨ s.run.session.phase = .live)
    (hfair : FairWatched config (fun _ => false) ctx behave s watched acts)
    (hkeeps : ∀ n r, (watched n).stream.readers[0]? = some r → r.2.stopped = false) :
    ∃ n more, WatchedExecution config ctx behave (actions ++ more) (watched n) ∧ (watched n).run.live.Over ∧
      broadcast.Covers ((announced config ctx behave (actions ++ more)).map Prod.snd)
        (received config ctx behave 0 (actions ++ more)) ∧
      ∃ before, received config ctx behave 0 (actions ++ more) =
        before ++ [.value (loop_completed ctx (watched n).run.live.loop false)] := by
  obtain ⟨n, hstill⟩ := fair_watched_still haccepted hpanic hsmall hroom hstarts hrun hfair
  obtain ⟨more, hmore⟩ := hfair.reached n
  have hreached := hrun.append (hmore.mono fun _ _ _ => trivial)
  have hundisturbed : transition.Run (recorded_step (session_pipeline config fun _ => false) ctx behave)
      (fun _ action => action.undisturbed = true) s.run (recorded_actions more) (watched n).run :=
    watched_run_recorded (fun _ _ hallowed => hallowed) hmore
  obtain ⟨⟨number, hfinished⟩, hover⟩ := hstill.rested.finished hundisturbed hphase
  have halive := run_over_lives hroom hstarts hredacts (watched_recorded hreached)
  have hcancelled : was_cancelled (recorded_actions (actions ++ more)) = false := by
    rw [recorded_actions, List.filterMap_append]
    exact uncancelled_after (uncancelled (watched_recorded hrun) hphase) hundisturbed
  obtain ⟨earlier, hearlier⟩ := (run_loop_behind hreached halive).ends number (by rw [hfinished]; rfl) hover
  rw [WatchedRun.owing, hstill.owes_none, Option.toList_none, List.map_nil, List.append_nil, hcancelled] at hearlier
  exact ⟨n, more, hreached, hover, told_last hreached (hkeeps n) hstill.read hearlier⟩

def WatchedAction.stops : WatchedAction → Bool
  | .stop _ => true
  | _ => false

/-- The client has not stopped where no receiver does. -/
theorem still_receiving {actions : List WatchedAction}
    (hrun : transition.Run (watched_step config ctx behave (session_pipeline config fun _ => false))
      (fun _ action => action.undisturbed = true ∧ action.stops = false)
      (watched_start config ctx (session_pipeline config fun _ => false)) actions s) :
    ∀ r, s.stream.readers[0]? = some r → r.2.stopped = false := by
  have hrunning : (s.stream.readers[0]?.map fun r => r.2.stopped) = some false := by
    refine hrun.invariant (P := fun _ s => (s.stream.readers[0]?.map fun r => r.2.stopped) = some false) rfl ?_
    intro actions s action next run hrunning hallowed hstep
    cases htaken : stream_action config ctx behave s action with
    | none => rwa [stream_projects.still hstep htaken]
    | some taken =>
      have hstop : taken ≠ .stop 0 := by
        rintro rfl
        cases action with
        | stop index => cases hallowed.2
        | subscribe | receive => cases htaken
        | run | announce | broadcast =>
          obtain ⟨_, _, heq⟩ := Option.map_eq_some_iff.mp htaken
          cases heq
      have hindex := handle_receives (run.mono fun _ _ _ => trivial)
      rwa [broadcast.stopped_step (stream_projects.moves hstep htaken) hindex hstop]
  intro r hreader
  rw [hreader] at hrunning
  exact Option.some.inj hrunning

/-- When the client has received all of a finished run, nothing is left to do. -/
theorem finished_still (haccepted : Accepted ctx) {actions : List WatchedAction}
    (hrun : WatchedExecution config ctx behave actions s) {number : Nat} (hfinished : Finished s.run number)
    (hdone : stream_step s.stream (.receive 0) = none) : s.Still := by
  refine ⟨finished_rests haccepted (watched_recorded hrun) hfinished, ?_, ?_⟩
  · exact (run_loop_behind hrun hfinished.lives).owes_none hfinished.phase
  · by_contra hunread
    obtain ⟨stream, hreceive⟩ : ∃ stream, stream_step s.stream (.receive 0) = some stream :=
      broadcast.receive_of_unread (Nat.pos_of_ne_zero hunread)
    rw [hdone] at hreceive
    cases hreceive

/-- When nothing is left to do of a finished run nobody can act. -/
theorem WatchedRun.Still.still (h : s.Still) (hover : s.run.live.Over) {number : Nat}
    (hphase : s.run.session.phase = .finished number) (actor : Actor) :
    ¬ transition.Enabled (watched_step config ctx behave p) WatchedAction.actor s actor := by
  rintro ⟨action, next, hactor, hstep⟩
  cases watched_moves hstep with
  | run hawaits hrecorded =>
    obtain ⟨party, hparty, _⟩ := Option.map_eq_some_iff.mp hactor
    exact h.rested.still hover hphase party ⟨_, _, hparty, hrecorded⟩
  | announce hready hupcoming =>
    obtain ⟨_, _, hfind, _⟩ := upcoming_eq_some hupcoming
    rw [hover.running] at hfind
    cases hfind
  | broadcast hreturned howed =>
    rw [h.owes_none] at howed
    cases howed
  | watch hstream htaken hsilent hother =>
    cases action with
    | receive index =>
      cases index with
      | zero =>
        cases htaken
        have hless : WatchedRun.unread { s with stream := _ } < s.unread := broadcast.unread_receive hstream
        rw [h.read] at hless
        exact absurd hless (Nat.not_lt_zero _)
      | succ index => cases hactor
    | run => cases hother
    | announce => simp [stream_action, hsilent] at htaken
    | broadcast => simp [stream_action, hsilent] at htaken
    | subscribe | stop => cases hactor

open executor (partial_failure_sample partial_failure_behaviour)

theorem client_told_end_sample : ∃ watched acts,
    FairWatched partial_failure_config (fun _ => false) partial_failure_sample partial_failure_behaviour
      (watched_start partial_failure_config partial_failure_sample (session_pipeline partial_failure_config fun _ => false))
      watched acts ∧
    ∃ n more before, received partial_failure_config partial_failure_sample partial_failure_behaviour 0 more =
      before ++ [.value (loop_completed partial_failure_sample (watched n).run.live.loop false)] := by
  obtain ⟨s, hrun, hfinished, _, hdone⟩ := partial_failure_watched
  have hstill := finished_still partial_failure_accepted hrun hfinished hdone
  have hundisturbed : ∀ action ∈ watched_actions, action.undisturbed = true ∧ action.stops = false := by
    decide
  have hpermitted : transition.Run (watched_step partial_failure_config partial_failure_sample partial_failure_behaviour
      (session_pipeline partial_failure_config fun _ => false))
      (fun _ action => action.undisturbed = true ∧ action.stops = false) _ _ s :=
    transition.run_of_foldlM_allowed hrun.foldlM_eq fun action hmem _ => hundisturbed action hmem
  obtain ⟨watched, acts, hfair, _⟩ := hpermitted.rests (hstill.still hfinished.quiet hfinished.phase)
  have hkeeps : ∀ n r, (watched n).stream.readers[0]? = some r → r.2.stopped = false := by
    intro n
    obtain ⟨_, hreached⟩ := hfair.reached n
    exact still_receiving hreached
  have hleft := hfair.mono fun _ _ hallowed => hallowed.1
  have hstart : (watched_start partial_failure_config partial_failure_sample
      (session_pipeline partial_failure_config fun _ => false)).run.session.phase = .starting := rfl
  have hnil : SampleExecution [] (watched_start partial_failure_config partial_failure_sample
      (session_pipeline partial_failure_config fun _ => false)) := transition.Run.nil
  have hroom : 0 < partial_failure_config.critical_capacity := by decide
  obtain ⟨n, more, _, _, _, before, hlast⟩ := client_told_end partial_failure_accepted executor.partial_failure_no_panic
    partial_failure_small hroom rfl default_redacts hnil (Or.inl hstart) hleft hkeeps
  exact ⟨watched, acts, hleft, n, [] ++ more, before, hlast⟩

end Fair

end Watched

end flow_engine.runtime
