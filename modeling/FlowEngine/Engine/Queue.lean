import FlowEngine.Lib.Fleet
import FlowEngine.Lib.Mpsc

namespace flow_engine.in_memory_queue

open broadcast (Channel Reader Told Covers Fleet FleetAction fleet_step)

structure InternalMessage where
  payload : List UInt8
  headers : List (String × String)

/-- A message with the id of its receipt. -/
structure QueueMessage extends InternalMessage where
  receipt : String

/-- A subscription: the task that forwards the messages of a topic, and the channel to the receiver. -/
structure Subscription where
  topic : String
  bridge : Reader InternalMessage
  rx : mpsc.Channel QueueMessage

/-- The queue with its channels by topic and the subscriptions it has made, and whether it was dropped. -/
structure InMemoryQueue where
  topics : String → Option (Channel InternalMessage)
  subscriptions : List Subscription
  dropped : Bool

def BROADCAST_CAPACITY : Nat := 1000

/-- What can happen. A message is published, or a topic subscribed to; a bridge takes a message,
forwards it under a new receipt, or ends; a receiver takes a message, or is dropped; and the
queue is dropped. -/
inductive QueueAction where
  | publish (topic : String) (payload : List UInt8) (headers : Option (List (String × String)))
  | subscribe (topic : String)
  | receive (index : Nat)
  | forward (index : Nat) (id : String)
  | stop (index : Nat)
  | take (index : Nat)
  | unsubscribe (index : Nat)
  | drop

/-- The subscription of that number, changed. -/
def InMemoryQueue.set (s : InMemoryQueue) (index : Nat) (sub : Subscription) : InMemoryQueue :=
  { s with subscriptions := s.subscriptions.set index sub }

/-- Messages are lost where nothing forwards those of their topic. A bridge ends when it cannot
forward a message, and when it has read all that the dropped queue has left. -/
def queue_step (s : InMemoryQueue) : QueueAction → Option InMemoryQueue
  | .publish topic payload headers =>
    if s.dropped then none
    else
      match s.topics topic with
      | none => some s
      | some tx =>
        if s.subscriptions.all fun sub => sub.topic ≠ topic || sub.bridge.stopped then some s
        else some { s with topics := Function.update s.topics topic (some (tx.send ⟨payload, headers.getD []⟩)) }
  | .subscribe topic =>
    if s.dropped then none
    else
      let broadcast_tx := (s.topics topic).getD (.new BROADCAST_CAPACITY)
      some { s with
        topics := Function.update s.topics topic (some broadcast_tx)
        subscriptions := s.subscriptions ++ [⟨topic, .subscribe broadcast_tx, .new BROADCAST_CAPACITY⟩] }
  | .receive index => s.subscriptions[index]?.bind fun sub =>
    if sub.bridge.stopped || sub.bridge.pending.isSome then none
    else (s.topics sub.topic).bind fun tx => (tx.recv sub.bridge.next).map fun read =>
      s.set index { sub with bridge := sub.bridge.told some read.2 read.1 }
  | .forward index id => s.subscriptions[index]?.bind fun sub =>
    match sub.bridge.stopped, sub.bridge.pending with
    | false, some msg =>
      match sub.rx.try_send ⟨msg, id⟩ with
      | .ok rx => some (s.set index { sub with bridge := sub.bridge.handed, rx })
      | .error _ => none
    | _, _ => none
  | .stop index => s.subscriptions[index]?.bind fun sub =>
    if (sub.bridge.pending.isSome && !sub.rx.receiver) ||
        (sub.bridge.pending.isNone && s.dropped && ((s.topics sub.topic).bind fun tx => tx.recv sub.bridge.next).isNone) then
      some (s.set index { sub with bridge := sub.bridge.stop, rx := sub.rx.close_senders })
    else none
  | .take index => s.subscriptions[index]?.bind fun sub =>
    match sub.rx.queue with
    | [] => none
    | _ :: _ => some (s.set index { sub with rx := sub.rx.taken })
  | .unsubscribe index => s.subscriptions[index]?.map fun sub => s.set index { sub with rx := sub.rx.close_receiver }
  | .drop => some { s with dropped := true }

def new : InMemoryQueue := ⟨fun _ => none, [], false⟩

abbrev QueueRun : List QueueAction → InMemoryQueue → Prop := transition.Run queue_step (fun _ _ => True) new

/-- A message that is published to the topic of a subscription. -/
def published_at (index : Nat) (s : InMemoryQueue) : QueueAction → Option InternalMessage
  | .publish topic payload headers =>
    if (s.subscriptions[index]?.map Subscription.topic) = some topic then some ⟨payload, headers.getD []⟩ else none
  | _ => none

/-- What a bridge is told when it receives. -/
def told_at (index : Nat) (s : InMemoryQueue) : QueueAction → Option (Told InternalMessage)
  | .receive i =>
    if i = index then
      (s.subscriptions[i]?.bind fun sub => (s.topics sub.topic).bind fun tx => tx.recv sub.bridge.next).map Prod.fst
    else none
  | _ => none

/-- What a bridge forwards. -/
def forwarded_at (index : Nat) (s : InMemoryQueue) : QueueAction → Option QueueMessage
  | .forward i id =>
    if i = index then (s.subscriptions[i]?.bind fun sub => sub.bridge.pending).map fun msg => ⟨msg, id⟩ else none
  | _ => none

/-- What a receiver takes. -/
def taken_at (index : Nat) (s : InMemoryQueue) : QueueAction → Option QueueMessage
  | .take i => if i = index then s.subscriptions[i]?.bind fun sub => sub.rx.queue.head? else none
  | _ => none

abbrev published (index : Nat) : List QueueAction → List InternalMessage :=
  transition.trace queue_step (published_at index) new

abbrev told (index : Nat) : List QueueAction → List (Told InternalMessage) := transition.trace queue_step (told_at index) new

abbrev forwarded (index : Nat) : List QueueAction → List QueueMessage := transition.trace queue_step (forwarded_at index) new

abbrev taken (index : Nat) : List QueueAction → List QueueMessage := transition.trace queue_step (taken_at index) new

/-- The bridges of a queue. -/
def InMemoryQueue.bridges (s : InMemoryQueue) : Fleet String String InternalMessage InternalMessage where
  channels := s.topics
  readers := s.subscriptions.map fun sub => (sub.topic, sub.bridge)

/-- What an action is to the bridges. -/
def bridge_action (_ : InMemoryQueue) : QueueAction → Option (FleetAction String String InternalMessage)
  | .publish topic payload headers => some (.publish topic ⟨payload, headers.getD []⟩)
  | .subscribe topic => some (.subscribe topic)
  | .receive index => some (.receive index)
  | .forward index _ => some (.hand index)
  | .stop index => some (.stop index)
  | .take _ | .unsubscribe _ | .drop => none

/-- What an action does. -/
inductive QueueMove (s : InMemoryQueue) : QueueAction → InMemoryQueue → Prop where
  | unheard {topic : String} {payload : List UInt8} {headers : Option (List (String × String))}
      (hunheard : s.topics topic = none ∨ (s.subscriptions.all fun sub => sub.topic ≠ topic || sub.bridge.stopped) = true) :
      QueueMove s (.publish topic payload headers) s
  | publish {topic : String} {payload : List UInt8} {headers : Option (List (String × String))} {tx : Channel InternalMessage}
      (htopic : s.topics topic = some tx)
      (hheard : ¬ (s.subscriptions.all fun sub => sub.topic ≠ topic || sub.bridge.stopped) = true) :
      QueueMove s (.publish topic payload headers)
        { s with topics := Function.update s.topics topic (some (tx.send ⟨payload, headers.getD []⟩)) }
  | subscribe {topic : String} {tx : Channel InternalMessage} (htopic : (s.topics topic).getD (.new BROADCAST_CAPACITY) = tx) :
      QueueMove s (.subscribe topic) { s with
        topics := Function.update s.topics topic (some tx)
        subscriptions := s.subscriptions ++ [⟨topic, .subscribe tx, .new BROADCAST_CAPACITY⟩] }
  | receive {index after : Nat} {sub : Subscription} {tx : Channel InternalMessage} {t : Told InternalMessage}
      (hsub : s.subscriptions[index]? = some sub) (hrunning : sub.bridge.stopped = false) (hfree : sub.bridge.pending = none)
      (htopic : s.topics sub.topic = some tx) (hrecv : tx.recv sub.bridge.next = some (t, after)) :
      QueueMove s (.receive index) (s.set index { sub with bridge := sub.bridge.told some after t })
  | forward {index : Nat} {id : String} {sub : Subscription} {msg : InternalMessage} {rx : mpsc.Channel QueueMessage}
      (hsub : s.subscriptions[index]? = some sub) (hrunning : sub.bridge.stopped = false)
      (hpending : sub.bridge.pending = some msg) (hsend : sub.rx.try_send ⟨msg, id⟩ = .ok rx) :
      QueueMove s (.forward index id) (s.set index { sub with bridge := sub.bridge.handed, rx })
  | stop {index : Nat} {sub : Subscription} (hsub : s.subscriptions[index]? = some sub) :
      QueueMove s (.stop index) (s.set index { sub with bridge := sub.bridge.stop, rx := sub.rx.close_senders })
  | take {index : Nat} {sub : Subscription} {msg : QueueMessage} {rest : List QueueMessage}
      (hsub : s.subscriptions[index]? = some sub) (hqueue : sub.rx.queue = msg :: rest) :
      QueueMove s (.take index) (s.set index { sub with rx := sub.rx.taken })
  | unsubscribe {index : Nat} {sub : Subscription} (hsub : s.subscriptions[index]? = some sub) :
      QueueMove s (.unsubscribe index) (s.set index { sub with rx := sub.rx.close_receiver })
  | drop : QueueMove s .drop { s with dropped := true }

theorem queue_moves {s next : InMemoryQueue} {action : QueueAction} (h : queue_step s action = some next) :
    QueueMove s action next := by
  cases action with
  | publish topic payload headers =>
    simp only [queue_step] at h
    split at h
    · cases h
    · split at h
      · rename_i hnone
        cases h
        exact .unheard (.inl hnone)
      · rename_i htopic
        split at h
        · rename_i hall
          cases h
          exact .unheard (.inr hall)
        · rename_i hheard
          cases h
          exact .publish htopic hheard
  | subscribe topic =>
    simp only [queue_step] at h
    split at h
    · cases h
    · cases h
      exact .subscribe rfl
  | receive index =>
    obtain ⟨sub, hsub, hrest⟩ := Option.bind_eq_some_iff.mp h
    split at hrest
    · cases hrest
    · rename_i hfree
      simp only [Bool.or_eq_true, not_or, Bool.not_eq_true, Option.isSome_eq_false_iff, Option.isNone_iff_eq_none] at hfree
      obtain ⟨tx, htopic, hread⟩ := Option.bind_eq_some_iff.mp hrest
      obtain ⟨read, hrecv, rfl⟩ := Option.map_eq_some_iff.mp hread
      exact .receive hsub hfree.1 hfree.2 htopic hrecv
  | forward index id =>
    obtain ⟨sub, hsub, hrest⟩ := Option.bind_eq_some_iff.mp h
    split at hrest
    · rename_i hrunning hpending
      split at hrest
      · rename_i hsend
        cases hrest
        exact .forward hsub hrunning hpending hsend
      · cases hrest
    · cases hrest
  | stop index =>
    obtain ⟨sub, hsub, hrest⟩ := Option.bind_eq_some_iff.mp h
    split at hrest
    · cases hrest
      exact .stop hsub
    · cases hrest
  | take index =>
    obtain ⟨sub, hsub, hrest⟩ := Option.bind_eq_some_iff.mp h
    split at hrest
    · cases hrest
    · rename_i hqueue
      cases hrest
      exact .take hsub hqueue
  | unsubscribe index =>
    obtain ⟨sub, hsub, rfl⟩ := Option.map_eq_some_iff.mp h
    exact .unsubscribe hsub
  | drop =>
    cases h
    exact .drop

theorem bridges_project : transition.Projects queue_step (fleet_step BROADCAST_CAPACITY id fun _ => some)
    InMemoryQueue.bridges bridge_action := by
  -- a subscription whose channel changes is the same to the bridges
  have hsame : ∀ {s : InMemoryQueue} {index sub} (rx : mpsc.Channel QueueMessage), s.subscriptions[index]? = some sub →
      (s.set index { sub with rx }).bridges = s.bridges := by
    intro s index sub rx hsub
    have hset : (s.subscriptions.map fun sub => (sub.topic, sub.bridge)).set index (sub.topic, sub.bridge) =
        s.subscriptions.map fun sub => (sub.topic, sub.bridge) := by
      obtain ⟨hlength, hget⟩ := List.getElem?_eq_some_iff.mp hsub
      have hlength' : index < (s.subscriptions.map fun sub => (sub.topic, sub.bridge)).length := by rwa [List.length_map]
      have hself := List.set_getElem_self hlength'
      rwa [List.getElem_map, hget] at hself
    simp [InMemoryQueue.bridges, InMemoryQueue.set, List.map_set, hset]
  constructor
  · intro s next action hstep hnone
    cases queue_moves hstep with
    | take hsub | unsubscribe hsub => exact hsame _ hsub
    | drop => rfl
    | unheard | publish | subscribe | receive | forward | stop => cases hnone
  · intro s next action taken hstep hsome
    cases queue_moves hstep with
    | @unheard topic payload headers hunheard =>
      cases hsome
      rcases hunheard with hnone | hall
      · simp [fleet_step, InMemoryQueue.bridges, hnone]
      · cases htopic : s.topics topic with
        | none => simp [fleet_step, InMemoryQueue.bridges, htopic]
        | some tx =>
          simp only [fleet_step, InMemoryQueue.bridges, htopic, List.all_map, Function.comp_def, id]
          rw [if_pos hall]
    | publish htopic hheard =>
      cases hsome
      simp only [fleet_step, InMemoryQueue.bridges, htopic, List.all_map, Function.comp_def, id]
      rw [if_neg hheard]
    | subscribe htopic =>
      cases hsome
      simp [fleet_step, InMemoryQueue.bridges, htopic]
    | receive hsub hrunning hfree htopic hrecv =>
      cases hsome
      simp [fleet_step, InMemoryQueue.bridges, InMemoryQueue.set, hsub, hrunning, hfree, htopic, hrecv, List.map_set]
    | forward hsub hrunning hpending hsend =>
      cases hsome
      simp [fleet_step, InMemoryQueue.bridges, InMemoryQueue.set, hsub, hrunning, hpending, List.map_set]
    | stop hsub =>
      cases hsome
      simp [fleet_step, InMemoryQueue.bridges, InMemoryQueue.set, hsub, List.map_set]
    | take | unsubscribe | drop => cases hsome

theorem bridges_fresh : broadcast.Fresh new.bridges := ⟨rfl, fun _ _ hch => by cases hch⟩

/-- What the actions of a run are to the bridges. -/
abbrev bridge_actions (actions : List QueueAction) : List (FleetAction String String InternalMessage) :=
  transition.trace queue_step bridge_action new actions

section Observed

variable {allowed : InMemoryQueue → QueueAction → Prop} {actions : List QueueAction} {s : InMemoryQueue}
variable (hrun : transition.Run queue_step allowed new actions s) (index : Nat)
include hrun

theorem published_eq : published index actions =
    broadcast.fleet_published BROADCAST_CAPACITY id (fun _ => some) new.bridges index (bridge_actions actions) := by
  refine bridges_project.trace_eq (fun s action => ?_) hrun
  cases action with
  | publish topic payload headers =>
    cases hsub : s.subscriptions[index]? <;>
      simp [published_at, bridge_action, broadcast.published_at, InMemoryQueue.bridges, hsub]
  | _ => rfl

theorem told_eq : told index actions =
    broadcast.fleet_told BROADCAST_CAPACITY id (fun _ => some) new.bridges index (bridge_actions actions) := by
  refine bridges_project.trace_eq (fun s action => ?_) hrun
  cases action with
  | receive i =>
    cases hsub : s.subscriptions[i]? <;> simp [told_at, bridge_action, broadcast.told_at, InMemoryQueue.bridges, hsub]
  | _ => rfl

theorem forwarded_eq : (forwarded index actions).map QueueMessage.toInternalMessage =
    broadcast.fleet_handed BROADCAST_CAPACITY id (fun _ => some) new.bridges index (bridge_actions actions) := by
  rw [← List.filterMap_eq_map, ← transition.trace_filterMap]
  refine bridges_project.trace_eq (fun s action => ?_) hrun
  cases action with
  | forward i id =>
    by_cases hindex : i = index
    · subst hindex
      cases hsub : s.subscriptions[i]? with
      | none => simp [forwarded_at, bridge_action, broadcast.handed_at, InMemoryQueue.bridges, hsub]
      | some sub => cases hpending : sub.bridge.pending <;>
          simp [forwarded_at, bridge_action, broadcast.handed_at, InMemoryQueue.bridges, hsub, hpending]
    · simp [forwarded_at, bridge_action, broadcast.handed_at, hindex]
  | _ => rfl

end Observed

section Conveyed

variable {actions : List QueueAction} {s next : InMemoryQueue} {action : QueueAction}

theorem forwarded_snoc (hrun : QueueRun actions s) (index : Nat) :
    forwarded index (actions ++ [action]) = forwarded index actions ++ (forwarded_at index s action).toList :=
  hrun.trace_snoc action

theorem taken_snoc (hrun : QueueRun actions s) (index : Nat) :
    taken index (actions ++ [action]) = taken index actions ++ (taken_at index s action).toList :=
  hrun.trace_snoc action

/-- Each receiver takes what is forwarded to it, and what has not been subscribed has no history. -/
structure Conveyed (s : InMemoryQueue) (actions : List QueueAction) : Prop where
  subscriptions : ∀ index (sub : Subscription), s.subscriptions[index]? = some sub →
    sub.rx.Conveys (forwarded index actions) (taken index actions)
  silent : ∀ index, s.subscriptions.length ≤ index → forwarded index actions = [] ∧ taken index actions = []

/-- An action forwards nothing of a subscription, and nothing is taken of it. -/
structure Quiet (s : InMemoryQueue) (action : QueueAction) (index : Nat) : Prop where
  forwarded : forwarded_at index s action = none
  taken : taken_at index s action = none

theorem Conveyed.quiet (h : Conveyed s actions) (hrun : QueueRun actions s) (hquiet : ∀ index, Quiet s action index)
    (hsame : ∀ index sub, next.subscriptions[index]? = some sub → s.subscriptions[index]? = some sub ∨
      s.subscriptions.length ≤ index ∧ sub.rx = .new BROADCAST_CAPACITY)
    (hlength : s.subscriptions.length ≤ next.subscriptions.length) : Conveyed next (actions ++ [action]) := by
  have hforwarded : ∀ index, forwarded index (actions ++ [action]) = forwarded index actions := fun index => by
    rw [forwarded_snoc hrun, (hquiet index).forwarded, Option.toList_none, List.append_nil]
  have htaken : ∀ index, taken index (actions ++ [action]) = taken index actions := fun index => by
    rw [taken_snoc hrun, (hquiet index).taken, Option.toList_none, List.append_nil]
  refine ⟨fun index sub hsub => ?_, fun index hindex => ?_⟩
  · rw [hforwarded, htaken]
    rcases hsame index sub hsub with hold | ⟨hindex, hnew⟩
    · exact h.subscriptions index sub hold
    · rw [(h.silent index hindex).1, (h.silent index hindex).2, hnew]
      exact mpsc.Channel.conveys_new _
  · rw [hforwarded, htaken]
    exact h.silent index (hlength.trans hindex)

/-- An action that changes one subscription, and is nothing to the others. -/
theorem Conveyed.set (h : Conveyed s actions) (hrun : QueueRun actions s) {index : Nat} {sub changed : Subscription}
    (hsub : s.subscriptions[index]? = some sub) (hquiet : ∀ other, other ≠ index → Quiet s action other)
    (hchanged : changed.rx.Conveys (forwarded index (actions ++ [action])) (taken index (actions ++ [action]))) :
    Conveyed (s.set index changed) (actions ++ [action]) := by
  have hlt : index < s.subscriptions.length := (List.getElem?_eq_some_iff.mp hsub).1
  have hforwarded : ∀ other, other ≠ index → forwarded other (actions ++ [action]) = forwarded other actions := fun other hne => by
    rw [forwarded_snoc hrun, (hquiet other hne).forwarded, Option.toList_none, List.append_nil]
  have htaken : ∀ other, other ≠ index → taken other (actions ++ [action]) = taken other actions := fun other hne => by
    rw [taken_snoc hrun, (hquiet other hne).taken, Option.toList_none, List.append_nil]
  refine ⟨fun other sub' hsub' => ?_, fun other hlength => ?_⟩
  · by_cases hother : other = index
    · subst hother
      rw [InMemoryQueue.set, List.getElem?_set_self hlt] at hsub'
      cases hsub'
      exact hchanged
    · rw [InMemoryQueue.set, List.getElem?_set_ne (Ne.symm hother)] at hsub'
      rw [hforwarded other hother, htaken other hother]
      exact h.subscriptions other sub' hsub'
  · rw [InMemoryQueue.set, List.length_set] at hlength
    have hne : other ≠ index := Nat.ne_of_gt (hlt.trans_le hlength)
    rw [hforwarded other hne, htaken other hne]
    exact h.silent other hlength

theorem run_conveyed (hrun : QueueRun actions s) : Conveyed s actions := by
  refine hrun.invariant (P := fun actions s => Conveyed s actions) ⟨fun _ _ hsub => (by cases hsub), fun _ _ => ⟨rfl, rfl⟩⟩ ?_
  intro actions s action next run h _ hstep
  cases queue_moves hstep with
  | unheard | publish | drop => exact h.quiet run (fun _ => ⟨rfl, rfl⟩) (fun _ _ hsub => .inl hsub) le_rfl
  | @subscribe topic tx htopic =>
    refine h.quiet run (fun _ => ⟨rfl, rfl⟩) (fun index sub hsub => ?_) (by simp)
    dsimp only at hsub
    rw [List.getElem?_append] at hsub
    split at hsub
    · exact .inl hsub
    · rename_i hlength
      cases List.mem_singleton.mp (List.mem_of_getElem? hsub)
      exact .inr ⟨Nat.le_of_not_lt hlength, rfl⟩
  | @receive index after sub tx t hsub hrunning hfree htopic hrecv =>
    refine h.set run hsub (fun _ _ => ⟨rfl, rfl⟩) ?_
    rw [forwarded_snoc run, taken_snoc run]
    simpa [forwarded_at, taken_at] using h.subscriptions index sub hsub
  | @forward index id sub msg rx hsub hrunning hpending hsend =>
    have hforwarded_at : forwarded_at index s (.forward index id) = some ⟨msg, id⟩ := by simp [forwarded_at, hsub, hpending]
    refine h.set run hsub (fun other hne => ⟨if_neg (Ne.symm hne), rfl⟩) ?_
    rw [forwarded_snoc run, taken_snoc run, hforwarded_at]
    simpa [taken_at] using (h.subscriptions index sub hsub).send hsend
  | @stop index sub hsub =>
    refine h.set run hsub (fun _ _ => ⟨rfl, rfl⟩) ?_
    rw [forwarded_snoc run, taken_snoc run]
    simpa [forwarded_at, taken_at] using (h.subscriptions index sub hsub).close_senders
  | @take index sub msg rest hsub hqueue =>
    have htaken_at : taken_at index s (.take index) = some msg := by simp [taken_at, hsub, hqueue]
    refine h.set run hsub (fun other hne => ⟨rfl, if_neg (Ne.symm hne)⟩) ?_
    rw [forwarded_snoc run, taken_snoc run, htaken_at]
    simpa [forwarded_at] using (h.subscriptions index sub hsub).take hqueue
  | @unsubscribe index sub hsub =>
    refine h.set run hsub (fun _ _ => ⟨rfl, rfl⟩) ?_
    rw [forwarded_snoc run, taken_snoc run]
    simpa [forwarded_at, taken_at] using (h.subscriptions index sub hsub).close_receiver

end Conveyed

section Delivered

variable {actions : List QueueAction} {s : InMemoryQueue} {index : Nat} {sub : Subscription}

/-- A receiver takes the messages that its bridge has read, in order. -/
structure Delivered (sub : Subscription) (read taken : List InternalMessage) : Prop where
  first : taken <+: read
  rest : sub.rx.receiver = true →
    read = taken ++ sub.rx.queue.map QueueMessage.toInternalMessage ++ sub.bridge.pending.toList

theorem delivered_of_conveyed (hconveyed : Conveyed s actions) (hsub : s.subscriptions[index]? = some sub)
    {read : List InternalMessage}
    (hread : (forwarded index actions).map QueueMessage.toInternalMessage ++ sub.bridge.pending.toList = read) :
    Delivered sub read ((taken index actions).map QueueMessage.toInternalMessage) := by
  have hconveys := hconveyed.subscriptions index sub hsub
  constructor
  · rw [← hread]
    exact (hconveys.first.map _).trans (List.prefix_append _ _)
  · intro hopen
    rw [← hread, hconveys.rest hopen, List.map_append]

/-- A receiver takes messages of its topic that were published since it was subscribed, in order and
none twice. It misses none but those that its bridge was told it had missed. -/
theorem queue_delivers (hrun : QueueRun actions s) (hsub : s.subscriptions[index]? = some sub) :
    ∃ read rest, published index actions = read ++ rest ∧ Covers read (told index actions) ∧
      Delivered sub ((told index actions).filterMap Told.value?) ((taken index actions).map QueueMessage.toInternalMessage) := by
  have hbridge : s.bridges.readers[index]? = some (sub.topic, sub.bridge) := by simp [InMemoryQueue.bridges, hsub]
  obtain ⟨read, rest, hsplit, hcovers, hforwarded⟩ := broadcast.run_reads bridges_fresh
    (bridges_project.run (fun _ _ _ _ _ => trivial) hrun) hbridge
  rw [← published_eq hrun] at hsplit
  rw [← told_eq hrun] at hcovers hforwarded
  rw [← forwarded_eq hrun, List.filterMap_some] at hforwarded
  exact ⟨read, rest, hsplit, hcovers, delivered_of_conveyed (run_conveyed hrun) hsub hforwarded⟩

/-- A message is published only while no bridge of its topic has as many to read as the channel keeps. -/
def InTime (s : InMemoryQueue) : QueueAction → Prop
  | .publish topic _ _ => ∀ sub ∈ s.subscriptions, sub.topic = topic → sub.bridge.stopped = false →
    ∀ tx, s.topics topic = some tx → tx.tail < sub.bridge.next + tx.capacity
  | _ => True

theorem prompt_of_in_time {action : QueueAction} {taken : FleetAction String String InternalMessage}
    (h : InTime s action) (haction : bridge_action s action = some taken) : broadcast.Prompt id s.bridges taken := by
  cases action with
  | publish topic payload headers =>
    cases haction
    intro r hr hkey hrunning tx htx
    obtain ⟨sub, hsub, rfl⟩ := List.mem_map.mp hr
    exact h sub hsub hkey hrunning tx htx
  | subscribe | receive | forward | stop =>
    cases haction
    trivial
  | take | unsubscribe | drop => cases haction

/-- Where no bridge falls behind, a receiver misses nothing. -/
theorem queue_delivers_all (hrun : transition.Run queue_step InTime new actions s) (hsub : s.subscriptions[index]? = some sub) :
    ∃ read rest, published index actions = read ++ rest ∧
      Delivered sub read ((taken index actions).map QueueMessage.toInternalMessage) ∧
      (sub.bridge.stopped = false → ∃ tx, s.topics sub.topic = some tx ∧ rest.length = tx.tail - sub.bridge.next ∧
        rest.length ≤ tx.capacity) := by
  have hrun' : QueueRun actions s := hrun.mono fun _ _ _ => trivial
  have hbridge : s.bridges.readers[index]? = some (sub.topic, sub.bridge) := by simp [InMemoryQueue.bridges, hsub]
  have hbridges := bridges_project.run (fun _ _ _ hallowed haction => prompt_of_in_time hallowed haction) hrun
  obtain ⟨read, rest, hsplit, hforwarded, hlive⟩ := broadcast.run_reads_all bridges_fresh hbridges hbridge
  rw [← published_eq hrun] at hsplit
  rw [← forwarded_eq hrun, List.filterMap_some] at hforwarded
  exact ⟨read, rest, hsplit, delivered_of_conveyed (run_conveyed hrun') hsub hforwarded, hlive⟩

end Delivered

/-- Two messages of a topic and one of another, and a receiver that has taken the first. -/
def sample_actions : List QueueAction :=
  [.publish "jobs" [0] none, .subscribe "jobs", .publish "jobs" [1] none, .publish "other" [2] none,
    .publish "jobs" [3] (some [("kind", "last")]), .receive 0, .forward 0 "first", .receive 0, .forward 0 "second", .take 0]

instance (s : InMemoryQueue) (action : QueueAction) : Decidable (InTime s action) :=
  match action with
  | .publish topic _ _ => decidable_of_iff (∀ sub ∈ s.subscriptions, sub.topic = topic → sub.bridge.stopped = false →
      ((s.topics topic).all fun tx => tx.tail < sub.bridge.next + tx.capacity) = true)
      (by simp only [Option.all_eq_true, decide_eq_true_eq]; rfl)
  | .subscribe _ | .receive _ | .forward _ _ | .stop _ | .take _ | .unsubscribe _ | .drop => inferInstanceAs (Decidable True)

theorem sample_run : ∃ s sub, transition.Run queue_step InTime new sample_actions s ∧ s.subscriptions[0]? = some sub ∧
    sub.rx.queue.map (fun msg => msg.payload) = [[3]] := by
  have hfold : (sample_actions.foldlM (fun s action => if InTime s action then queue_step s action else none) new).map
      (fun s => (s.subscriptions[0]?).map fun sub => sub.rx.queue.map (fun msg => msg.payload)) = some (some [[3]]) := by
    decide +kernel
  obtain ⟨s, hs, hread⟩ := Option.map_eq_some_iff.mp hfold
  obtain ⟨sub, hsub, hqueue⟩ := Option.map_eq_some_iff.mp hread
  exact ⟨s, sub, transition.run_of_foldlM_checked hs, hsub, hqueue⟩

theorem queue_delivers_sample : ∃ (s : InMemoryQueue) (sub : Subscription), QueueRun sample_actions s ∧
    s.subscriptions[0]? = some sub ∧ (taken 0 sample_actions).map (fun msg => msg.payload) = [[1]] ∧
    Delivered sub ((told 0 sample_actions).filterMap Told.value?) ((taken 0 sample_actions).map QueueMessage.toInternalMessage) := by
  obtain ⟨s, sub, hrun, hsub, _⟩ := sample_run
  have hrun' : QueueRun sample_actions s := hrun.mono fun _ _ _ => trivial
  obtain ⟨_, _, _, _, hdelivered⟩ := queue_delivers hrun' hsub
  exact ⟨s, sub, hrun', hsub, by decide +kernel, hdelivered⟩

theorem queue_delivers_all_sample : ∃ (s : InMemoryQueue) (sub : Subscription) (read rest : List InternalMessage),
    transition.Run queue_step InTime new sample_actions s ∧ s.subscriptions[0]? = some sub ∧
      published 0 sample_actions = read ++ rest ∧
      (published 0 sample_actions).map InternalMessage.payload = [[1], [3]] ∧
      Delivered sub read ((taken 0 sample_actions).map QueueMessage.toInternalMessage) := by
  obtain ⟨s, sub, hrun, hsub, _⟩ := sample_run
  obtain ⟨read, rest, hsplit, hdelivered, _⟩ := queue_delivers_all hrun hsub
  exact ⟨s, sub, read, rest, hrun, hsub, hsplit, by decide +kernel, hdelivered⟩

end flow_engine.in_memory_queue
