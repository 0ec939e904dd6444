import FlowEngine.Engine.Dispatch
import FlowEngine.Lib.Fleet
import FlowEngine.Lib.Mpsc

namespace flow_engine.engine

open broadcast (Channel Reader Told Covers Fleet FleetAction fleet_step)
open executor (RunContext)

/-- Broadcast by the executor when a run finishes. -/
structure RunCompletedEvent where
  run_id : String
  flow_id : String
  status : RunStatus
  outputs : Value

/-- What is broadcast of a run that has ended. -/
def run_completed_event (ctx : RunContext) (status : RunStatus) : RunCompletedEvent :=
  ⟨ctx.run_id, ctx.graph.id, status, .object []⟩

/-- The configuration of a flow trigger. -/
structure FlowConfig where
  source_flow_id : String
  flow_id : String
  status_filter : List RunStatus

/-- The status of that name. -/
def status_of_str : String → Option RunStatus
  | "pending" => some .Pending
  | "running" => some .Running
  | "completed" => some .Completed
  | "failed" => some .Failed
  | "cancelled" => some .Cancelled
  | "interrupted" => some .Interrupted
  | _ => none

/-- Parse the config to extract the flows and the status filter. The error is the message of a
`TriggerError::Config`. -/
def parse_flow_config (config : Value) : Except String FlowConfig :=
  match config.get_str "source_flow_id" with
  | none => .error "missing 'source_flow_id' in config"
  | some source_flow_id =>
    match config.get_str "flow_id" with
    | none => .error "missing 'flow_id' in config"
    | some flow_id =>
      .ok ⟨source_flow_id, flow_id,
        match (config.get "status_filter").bind Value.as_array with
        | some arr => (arr.filterMap Value.as_str).filterMap status_of_str
        | none => [.Completed]⟩

/-- `FlowTrigger::validate_config`. -/
def validate_config (config : Value) : Except (List String) Unit :=
  match (if (config.get_str "source_flow_id").isNone then ["missing 'source_flow_id'"] else []) ++
      (if (config.get_str "flow_id").isNone then ["missing 'flow_id'"] else []) with
  | [] => .ok ()
  | errors => .error errors

/-- The trigger event for a completed run, if the run is of the source flow and its status passes
the filter. -/
def trigger_event (config : FlowConfig) (completed : RunCompletedEvent) : Option TriggerEvent :=
  if completed.flow_id ≠ config.source_flow_id then none
  else if completed.status ∉ config.status_filter then none
  else
    some {
      flow_id := config.flow_id
      version_id := none
      inputs := completed.outputs
      source := .flow completed.run_id completed.flow_id
      idempotency_key := none }

/-- A flow trigger that runs. -/
structure Watcher where
  config : FlowConfig
  reader : Reader TriggerEvent

/-- The completions of runs, the flow triggers that wait for them, and the channel from the
triggers to the dispatch loop. -/
structure Completions where
  run_completed : Channel RunCompletedEvent
  watchers : List Watcher
  trigger_events : mpsc.Channel TriggerEvent

/-- What can happen. A run completes; a flow trigger starts, takes a completion, sends the event it
has made of one, or ends; the dispatch loop takes an event, or ends. -/
inductive CompletionAction where
  | complete (event : RunCompletedEvent)
  | start (config : Value)
  | receive (index : Nat)
  | send (index : Nat)
  | stop (index : Nat)
  | take
  | close

/-- A trigger waits for a completion when it has no event to send. It may return at any time: a
shutdown ends it while it waits, an `abort` of its task wherever it is, and it returns itself when it
cannot send. Completions are lost where no trigger waits for them. -/
def completion_step (s : Completions) : CompletionAction → Option Completions
  | .complete event => some { s with
      run_completed := if s.watchers.all fun w => w.reader.stopped then s.run_completed else s.run_completed.send event }
  | .start config =>
    match parse_flow_config config with
    | .error _ => some s
    | .ok config => some { s with watchers := s.watchers ++ [⟨config, .subscribe s.run_completed⟩] }
  | .receive index =>
    match s.watchers[index]? with
    | none => none
    | some w =>
      if w.reader.stopped || w.reader.pending.isSome then none
      else (s.run_completed.recv w.reader.next).map fun read =>
        { s with watchers := s.watchers.set index { w with reader := w.reader.told (trigger_event w.config) read.2 read.1 } }
  | .send index =>
    match s.watchers[index]? with
    | none => none
    | some w =>
      match w.reader.stopped, w.reader.pending with
      | false, some event =>
        match s.trigger_events.try_send event with
        | .ok trigger_events => some { s with watchers := s.watchers.set index { w with reader := w.reader.handed }, trigger_events }
        | .error _ => none
      | _, _ => none
  | .stop index =>
    match s.watchers[index]? with
    | none => none
    | some w => some { s with watchers := s.watchers.set index { w with reader := w.reader.stop } }
  | .take =>
    match s.trigger_events.queue with
    | [] => none
    | _ :: _ => some { s with trigger_events := s.trigger_events.taken }
  | .close => some { s with trigger_events := s.trigger_events.close_receiver }

/-- The engine as it is built, with the channels' capacities. -/
def no_completions : Completions := ⟨.new 256, [], .new 1000⟩

abbrev CompletionRun : List CompletionAction → Completions → Prop :=
  transition.Run completion_step (fun _ _ => True) no_completions

/-- What a trigger is told when it receives. -/
def told_at (index : Nat) (s : Completions) : CompletionAction → Option (Told RunCompletedEvent)
  | .receive i => if i = index then (s.watchers[i]?.bind fun w => s.run_completed.recv w.reader.next).map Prod.fst else none
  | _ => none

/-- A completion since a trigger has started. -/
def completed_at (index : Nat) (s : Completions) : CompletionAction → Option RunCompletedEvent
  | .complete event => if index < s.watchers.length then some event else none
  | _ => none

/-- The event that is sent to the dispatch loop, with the trigger it comes from. -/
def sent_at (s : Completions) : CompletionAction → Option (Nat × TriggerEvent)
  | .send index => (s.watchers[index]?.bind fun w => w.reader.pending).map fun event => (index, event)
  | _ => none

/-- The event that the dispatch loop takes. -/
def taken_at (s : Completions) : CompletionAction → Option TriggerEvent
  | .take => s.trigger_events.queue.head?
  | _ => none

abbrev told (index : Nat) : List CompletionAction → List (Told RunCompletedEvent) :=
  transition.trace completion_step (told_at index) no_completions

abbrev completed (index : Nat) : List CompletionAction → List RunCompletedEvent :=
  transition.trace completion_step (completed_at index) no_completions

abbrev sent : List CompletionAction → List (Nat × TriggerEvent) := transition.trace completion_step sent_at no_completions

abbrev taken : List CompletionAction → List TriggerEvent := transition.trace completion_step taken_at no_completions

/-- What a trigger has sent. -/
def sent_by (index : Nat) (actions : List CompletionAction) : List TriggerEvent :=
  (sent actions).filterMap fun entry => if entry.1 = index then some entry.2 else none

/-- What is known of the event that a completed run triggers. -/
structure Triggered (config : FlowConfig) (completed : RunCompletedEvent) (event : TriggerEvent) : Prop where
  of_source : completed.flow_id = config.source_flow_id
  passes : completed.status ∈ config.status_filter
  target : event.flow_id = config.flow_id
  source : event.source = .flow completed.run_id completed.flow_id
  unkeyed : event.idempotency_key = none

theorem trigger_event_some {config : FlowConfig} {completed : RunCompletedEvent} {event : TriggerEvent}
    (h : trigger_event config completed = some event) : Triggered config completed event := by
  unfold trigger_event at h
  split at h
  · cases h
  · rename_i hsource
    split at h
    · cases h
    · rename_i hstatus
      cases h
      exact ⟨not_not.mp hsource, not_not.mp hstatus, rfl, rfl, rfl⟩

/-- A trigger that is started has a configuration that was found valid. -/
theorem parse_flow_config_isOk_iff (config : Value) :
    (∃ parsed, parse_flow_config config = .ok parsed) ↔ validate_config config = .ok () := by
  unfold parse_flow_config validate_config
  cases config.get_str "source_flow_id" with
  | none => cases config.get_str "flow_id" <;> simp
  | some source_flow_id => cases config.get_str "flow_id" <;> simp

/-- What an action does. -/
inductive CompletionMove (s : Completions) : CompletionAction → Completions → Prop where
  | complete (event : RunCompletedEvent) :
      CompletionMove s (.complete event) { s with
        run_completed := if s.watchers.all fun w => w.reader.stopped then s.run_completed else s.run_completed.send event }
  | refused {config : Value} {e : String} (hparse : parse_flow_config config = .error e) : CompletionMove s (.start config) s
  | start {config : Value} {parsed : FlowConfig} (hparse : parse_flow_config config = .ok parsed) :
      CompletionMove s (.start config) { s with watchers := s.watchers ++ [⟨parsed, .subscribe s.run_completed⟩] }
  | receive {index after : Nat} {w : Watcher} {t : Told RunCompletedEvent} (hwatcher : s.watchers[index]? = some w)
      (hrunning : w.reader.stopped = false) (hfree : w.reader.pending = none)
      (hrecv : s.run_completed.recv w.reader.next = some (t, after)) :
      CompletionMove s (.receive index)
        { s with watchers := s.watchers.set index { w with reader := w.reader.told (trigger_event w.config) after t } }
  | send {index : Nat} {w : Watcher} {event : TriggerEvent} {trigger_events : mpsc.Channel TriggerEvent}
      (hwatcher : s.watchers[index]? = some w) (hrunning : w.reader.stopped = false) (hpending : w.reader.pending = some event)
      (hsend : s.trigger_events.try_send event = .ok trigger_events) :
      CompletionMove s (.send index)
        { s with watchers := s.watchers.set index { w with reader := w.reader.handed }, trigger_events }
  | stop {index : Nat} {w : Watcher} (hwatcher : s.watchers[index]? = some w) :
      CompletionMove s (.stop index) { s with watchers := s.watchers.set index { w with reader := w.reader.stop } }
  | take {event : TriggerEvent} {rest : List TriggerEvent} (hqueue : s.trigger_events.queue = event :: rest) :
      CompletionMove s .take { s with trigger_events := s.trigger_events.taken }
  | close : CompletionMove s .close { s with trigger_events := s.trigger_events.close_receiver }

theorem completion_moves {s next : Completions} {action : CompletionAction} (h : completion_step s action = some next) :
    CompletionMove s action next := by
  cases action with
  | complete event =>
    cases h
    exact .complete event
  | start config =>
    simp only [completion_step] at h
    split at h
    · rename_i hparse
      cases h
      exact .refused hparse
    · rename_i hparse
      cases h
      exact .start hparse
  | receive index =>
    simp only [completion_step] at h
    split at h
    · cases h
    · rename_i hwatcher
      split at h
      · cases h
      · rename_i hfree
        simp only [Bool.or_eq_true, not_or, Bool.not_eq_true, Option.isSome_eq_false_iff, Option.isNone_iff_eq_none] at hfree
        obtain ⟨read, hrecv, rfl⟩ := Option.map_eq_some_iff.mp h
        exact .receive hwatcher hfree.1 hfree.2 hrecv
  | send index =>
    simp only [completion_step] at h
    split at h
    · cases h
    · rename_i hwatcher
      split at h
      · rename_i hrunning hpending
        split at h
        · rename_i hsend
          cases h
          exact .send hwatcher hrunning hpending hsend
        · cases h
      · cases h
  | stop index =>
    simp only [completion_step] at h
    split at h
    · cases h
    · rename_i hwatcher
      cases h
      exact .stop hwatcher
  | take =>
    simp only [completion_step] at h
    split at h
    · cases h
    · rename_i hqueue
      cases h
      exact .take hqueue
  | close =>
    cases h
    exact .close

/-- The dispatch loop takes what the triggers send. -/
theorem run_conveys {actions : List CompletionAction} {s : Completions} (hrun : CompletionRun actions s) :
    s.trigger_events.Conveys ((sent actions).map Prod.snd) (taken actions) := by
  refine hrun.invariant (P := fun actions s => s.trigger_events.Conveys ((sent actions).map Prod.snd) (taken actions))
    (mpsc.Channel.conveys_new 1000) ?_
  intro actions s action next run h _ hstep
  have htaken : taken (actions ++ [action]) = taken actions ++ (taken_at s action).toList := run.trace_snoc action
  have hsent : sent (actions ++ [action]) = sent actions ++ (sent_at s action).toList := run.trace_snoc action
  rw [htaken, hsent, List.map_append]
  cases completion_moves hstep with
  | complete | refused | start | receive | stop => simpa [taken_at, sent_at] using h
  | @send index w event trigger_events hwatcher hrunning hpending hsend =>
    have hsent_at : sent_at s (.send index) = some (index, event) := by simp [sent_at, hwatcher, hpending]
    rw [hsent_at]
    simpa [taken_at] using h.send hsend
  | @take event rest hqueue =>
    have htaken_at : taken_at s .take = some event := by simp [taken_at, hqueue]
    rw [htaken_at]
    simpa [sent_at] using h.take hqueue
  | close => simpa [taken_at, sent_at] using h.close_receiver

/-- The readers of the completions. -/
def Completions.readers (s : Completions) : Fleet Unit FlowConfig RunCompletedEvent TriggerEvent where
  channels _ := some s.run_completed
  readers := s.watchers.map fun w => (w.config, w.reader)

/-- What an action is to the readers. -/
def reader_action (_ : Completions) : CompletionAction → Option (FleetAction Unit FlowConfig RunCompletedEvent)
  | .complete event => some (.publish () event)
  | .start config => (parse_flow_config config).toOption.map .subscribe
  | .receive index => some (.receive index)
  | .send index => some (.hand index)
  | .stop index => some (.stop index)
  | .take | .close => none

/-- All readers read the one channel of completions. -/
def completions_key : FlowConfig → Unit := fun _ => ()

theorem completions_project : transition.Projects completion_step (fleet_step 256 completions_key trigger_event)
    Completions.readers reader_action := by
  constructor
  · intro s next action hstep hnone
    cases completion_moves hstep with
    | refused | take | close => rfl
    | start hparse => simp [reader_action, hparse, Except.toOption] at hnone
    | complete | receive | send | stop => cases hnone
  · intro s next action taken hstep hsome
    cases completion_moves hstep with
    | complete event =>
      cases hsome
      simp only [fleet_step, Completions.readers, List.all_map, Function.comp_def, ne_eq, not_true_eq_false, decide_false,
        Bool.false_or]
      split <;> rfl
    | refused hparse => simp [reader_action, hparse, Except.toOption] at hsome
    | start hparse =>
      rw [reader_action, hparse] at hsome
      cases hsome
      simp [fleet_step, Completions.readers]
    | receive hwatcher hrunning hfree hrecv =>
      cases hsome
      simp [fleet_step, Completions.readers, hwatcher, hrunning, hfree, hrecv, List.map_set]
    | send hwatcher hrunning hpending hsend =>
      cases hsome
      simp [fleet_step, Completions.readers, hwatcher, hrunning, hpending, List.map_set]
    | stop hwatcher =>
      cases hsome
      simp [fleet_step, Completions.readers, hwatcher, List.map_set]
    | take | close => cases hsome

/-- The readers before anything happens. -/
theorem completions_fresh : broadcast.Fresh no_completions.readers := by
  refine ⟨rfl, fun _ ch hch => ?_⟩
  cases hch
  exact broadcast.Channel.holds_new 256

section Observed

variable {allowed : Completions → CompletionAction → Prop} {actions : List CompletionAction} {s : Completions}
variable (hrun : transition.Run completion_step allowed no_completions actions s) (index : Nat)

/-- What the actions of a run are to the readers. -/
abbrev reader_actions (actions : List CompletionAction) : List (FleetAction Unit FlowConfig RunCompletedEvent) :=
  transition.trace completion_step reader_action no_completions actions

include hrun

theorem completed_eq : completed index actions =
    broadcast.fleet_published 256 completions_key trigger_event no_completions.readers index (reader_actions actions) := by
  refine completions_project.trace_eq (fun s action => ?_) hrun
  cases action with
  | complete event =>
    by_cases hlength : index < s.watchers.length <;>
      simp [completed_at, reader_action, broadcast.published_at, Completions.readers, completions_key, hlength]
  | start config => cases hparse : parse_flow_config config <;> simp [completed_at, reader_action, broadcast.published_at, hparse,
      Except.toOption]
  | _ => rfl

theorem told_eq : told index actions =
    broadcast.fleet_told 256 completions_key trigger_event no_completions.readers index (reader_actions actions) := by
  refine completions_project.trace_eq (fun s action => ?_) hrun
  cases action with
  | receive i => cases hwatcher : s.watchers[i]? <;> simp [told_at, reader_action, broadcast.told_at, Completions.readers, hwatcher]
  | start config => cases hparse : parse_flow_config config <;> simp [told_at, reader_action, broadcast.told_at, hparse,
      Except.toOption]
  | _ => rfl

theorem sent_by_eq : sent_by index actions =
    broadcast.fleet_handed 256 completions_key trigger_event no_completions.readers index (reader_actions actions) := by
  rw [sent_by, ← transition.trace_filterMap]
  refine completions_project.trace_eq (fun s action => ?_) hrun
  cases action with
  | send i =>
    cases hwatcher : s.watchers[i]? with
    | none => simp [sent_at, reader_action, broadcast.handed_at, Completions.readers, hwatcher]
    | some w => cases hpending : w.reader.pending <;>
        simp [sent_at, reader_action, broadcast.handed_at, Completions.readers, hwatcher, hpending]
  | start config => cases hparse : parse_flow_config config <;> simp [sent_at, reader_action, broadcast.handed_at, hparse,
      Except.toOption]
  | _ => rfl

/-- The readers of a run follow the completions. -/
theorem readers_followed : broadcast.Followed 256 completions_key trigger_event no_completions.readers s.readers
    (reader_actions actions) :=
  broadcast.run_followed completions_fresh (completions_project.run (fun _ _ _ _ _ => trivial) hrun)

/-- The events of the triggers have no idempotency key. -/
theorem sent_unkeyed {event : TriggerEvent} (hsent : (index, event) ∈ sent actions) : event.idempotency_key = none := by
  have hmem : event ∈ sent_by index actions := List.mem_filterMap.mpr ⟨_, hsent, by simp⟩
  rw [sent_by_eq hrun] at hmem
  have hfollowed := readers_followed hrun
  cases hreader : s.readers.readers[index]? with
  | none =>
    rw [(hfollowed.silent index (List.getElem?_eq_none_iff.mp hreader)).2.2] at hmem
    cases hmem
  | some r =>
    obtain ⟨_, _, htracks⟩ := hfollowed.readers index r hreader
    have hin := htracks.handed ▸ List.mem_append_left r.2.pending.toList hmem
    obtain ⟨completion, _, hevent⟩ := List.mem_filterMap.mp hin
    exact (trigger_event_some hevent).unkeyed

end Observed

/-- The events of a trigger tell apart the runs they come from. -/
theorem trigger_events_nodup {config : FlowConfig} {events : List RunCompletedEvent}
    (h : (events.map RunCompletedEvent.run_id).Nodup) :
    ((events.filterMap (trigger_event config)).map TriggerEvent.source).Nodup := by
  rw [List.nodup_iff_pairwise_ne, List.pairwise_map] at h
  rw [List.nodup_iff_pairwise_ne, List.pairwise_map, List.pairwise_filterMap]
  refine h.imp fun {first second} hne event hevent other hother heq => hne ?_
  rw [(trigger_event_some hevent).source, (trigger_event_some hother).source] at heq
  exact (TriggerSource.flow.inj heq).1

/-- No event without a key is skipped as a duplicate. -/
theorem admitted_unkeyed {seen_keys : Finset String} {events : List Received}
    (h : ∀ r ∈ events, r.event.idempotency_key = none) : admitted seen_keys events = events := by
  induction events with
  | nil => rfl
  | cons first rest ih =>
    rw [List.forall_mem_cons] at h
    simp only [admitted, h.1, ih h.2]

section Chained

variable {actions : List CompletionAction} {s : Completions}

/-- The part that a trigger has in the chaining of flows. Of the completions since it has started it
has read the first ones, in order and but for those it was told it missed; of each that it read
it sends one event, if it matches. -/
structure Chained (s : Completions) (actions : List CompletionAction) (index : Nat) (w : Watcher) : Prop where
  read : ∃ read rest, completed index actions = read ++ rest ∧ Covers read (told index actions)
  sent : sent_by index actions ++ w.reader.pending.toList =
    ((told index actions).filterMap Told.value?).filterMap (trigger_event w.config)
  once : ((completed index actions).map RunCompletedEvent.run_id).Nodup →
    ((sent_by index actions ++ w.reader.pending.toList).map TriggerEvent.source).Nodup

/-- Where flow triggers watch for completed runs, each sends one event for every matching completion
that it reads, in their order. The dispatch loop takes these events in the order in which they
were sent, none twice, and skips none of them as a duplicate. -/
theorem flow_triggers_chain (hrun : CompletionRun actions s) :
    (∀ index w, s.watchers[index]? = some w → Chained s actions index w) ∧
      taken actions <+: (sent actions).map Prod.snd ∧
      (s.trigger_events.receiver = true → (sent actions).map Prod.snd = taken actions ++ s.trigger_events.queue) ∧
      ∀ received : List Received, received.map Received.event = taken actions →
        live_calls received = received.filterMap live_result := by
  have hconveyed := run_conveys hrun
  refine ⟨fun index w hw => ?_, hconveyed.first, hconveyed.rest, fun received hreceived => ?_⟩
  · have hreader : s.readers.readers[index]? = some (w.config, w.reader) := by simp [Completions.readers, hw]
    obtain ⟨read, rest, hsplit, hcovers, hsent⟩ := broadcast.run_reads completions_fresh
      (completions_project.run (fun _ _ _ _ _ => trivial) hrun) hreader
    rw [← completed_eq hrun] at hsplit
    rw [← told_eq hrun] at hcovers hsent
    rw [← sent_by_eq hrun] at hsent
    refine ⟨⟨read, rest, hsplit, hcovers⟩, hsent, fun hnodup => ?_⟩
    rw [hsent]
    refine trigger_events_nodup (hnodup.sublist (List.Sublist.map _ ?_))
    rw [hsplit]
    exact hcovers.sublist.trans (List.sublist_append_left _ _)
  · have hkeys : ∀ r ∈ received, r.event.idempotency_key = none := by
      intro r hr
      have hmem : r.event ∈ (sent actions).map Prod.snd :=
        hconveyed.first.subset (hreceived ▸ List.mem_map_of_mem hr)
      obtain ⟨⟨index, event⟩, hsent, hevent⟩ := List.mem_map.mp hmem
      exact hevent ▸ sent_unkeyed hrun index hsent
    have hresults := live_deduplicates.results ∅ received
    rw [admitted_unkeyed hkeys] at hresults
    exact hresults

/-- A run completes only while no trigger that runs has as many completions to read as the channel keeps. -/
def InTime (s : Completions) : CompletionAction → Prop
  | .complete _ => ∀ w ∈ s.watchers, w.reader.stopped = false → s.run_completed.tail < w.reader.next + s.run_completed.capacity
  | _ => True

theorem prompt_of_in_time {action : CompletionAction} {taken : FleetAction Unit FlowConfig RunCompletedEvent}
    (h : InTime s action) (haction : reader_action s action = some taken) : broadcast.Prompt completions_key s.readers taken := by
  cases action with
  | complete event =>
    cases haction
    intro r hr _ hrunning ch hch
    obtain ⟨w, hw, rfl⟩ := List.mem_map.mp hr
    cases hch
    exact h w hw hrunning
  | start config =>
    obtain ⟨parsed, _, rfl⟩ := Option.map_eq_some_iff.mp haction
    trivial
  | receive | send | stop =>
    cases haction
    trivial
  | take | close => cases haction

/-- Where no trigger falls behind, each sends an event for every matching completion since it has
started, but for those that are still to be read. -/
theorem flow_triggers_complete (hrun : transition.Run completion_step InTime no_completions actions s) {index : Nat} {w : Watcher}
    (hw : s.watchers[index]? = some w) :
    ∃ read rest, completed index actions = read ++ rest ∧
      sent_by index actions ++ w.reader.pending.toList = read.filterMap (trigger_event w.config) ∧
      (w.reader.stopped = false → rest.length = s.run_completed.tail - w.reader.next ∧ rest.length ≤ s.run_completed.capacity) := by
  have hreader : s.readers.readers[index]? = some (w.config, w.reader) := by simp [Completions.readers, hw]
  have hreaders := completions_project.run (fun _ _ _ hallowed haction => prompt_of_in_time hallowed haction) hrun
  obtain ⟨read, rest, hsplit, hsent, hlive⟩ := broadcast.run_reads_all completions_fresh hreaders hreader
  rw [← completed_eq hrun] at hsplit
  rw [← sent_by_eq hrun] at hsent
  refine ⟨read, rest, hsplit, hsent, fun hrunning => ?_⟩
  obtain ⟨ch, hch, hrest, hbound⟩ := hlive hrunning
  cases hch
  exact ⟨hrest, hbound⟩

end Chained

/-- A flow that is triggered by a run of another, whose other runs do not match. -/
def sample_flow_config : Value := .object [("flow_id", .string "report"), ("source_flow_id", .string "import")]

def sample_completions : List CompletionAction :=
  [.start sample_flow_config, .complete ⟨"first", "import", .Completed, .object []⟩,
    .complete ⟨"second", "export", .Completed, .object []⟩, .receive 0, .send 0, .receive 0,
    .complete ⟨"third", "import", .Failed, .object []⟩, .receive 0, .take]

instance (s : Completions) (action : CompletionAction) : Decidable (InTime s action) :=
  match action with
  | .complete _ => inferInstanceAs (Decidable (∀ w ∈ s.watchers, w.reader.stopped = false →
      s.run_completed.tail < w.reader.next + s.run_completed.capacity))
  | .start _ | .receive _ | .send _ | .stop _ | .take | .close => inferInstanceAs (Decidable True)

theorem sample_completions_run : ∃ s w, transition.Run completion_step InTime no_completions sample_completions s ∧
    s.watchers[0]? = some w ∧ w.reader.stopped = false ∧ w.reader.next = 3 := by
  have hfold : (sample_completions.foldlM (fun s action => if InTime s action then completion_step s action else none)
      no_completions).map (fun s => (s.watchers[0]?).map fun w => (w.reader.stopped, w.reader.next)) =
      some (some (false, 3)) := by
    decide +kernel
  obtain ⟨s, hs, hread⟩ := Option.map_eq_some_iff.mp hfold
  obtain ⟨w, hw, hpair⟩ := Option.map_eq_some_iff.mp hread
  simp only [Prod.mk.injEq] at hpair
  exact ⟨s, w, transition.run_of_foldlM_checked hs, hw, hpair.1, hpair.2⟩

theorem flow_triggers_chain_sample : ∃ s w, CompletionRun sample_completions s ∧ Chained s sample_completions 0 w ∧
    (taken sample_completions).map TriggerEvent.flow_id = ["report"] ∧ (told 0 sample_completions).length = 3 := by
  obtain ⟨s, w, hrun, hw, _⟩ := sample_completions_run
  have hrun' : CompletionRun sample_completions s := hrun.mono fun _ _ _ => trivial
  exact ⟨s, w, hrun', (flow_triggers_chain hrun').1 0 w hw, by decide +kernel, by decide +kernel⟩

theorem flow_triggers_complete_sample : ∃ (s : Completions) (w : Watcher) (read rest : List RunCompletedEvent),
    transition.Run completion_step InTime no_completions sample_completions s ∧
      completed 0 sample_completions = read ++ rest ∧
      sent_by 0 sample_completions ++ w.reader.pending.toList = read.filterMap (trigger_event w.config) ∧
      (sent_by 0 sample_completions).map TriggerEvent.flow_id = ["report"] := by
  obtain ⟨s, w, hrun, hw, _⟩ := sample_completions_run
  obtain ⟨read, rest, hsplit, hsent, _⟩ := flow_triggers_complete hrun hw
  exact ⟨s, w, read, rest, hrun, hsplit, hsent, by decide +kernel⟩

end flow_engine.engine
