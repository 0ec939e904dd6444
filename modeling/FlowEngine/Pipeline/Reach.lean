import FlowEngine.Pipeline.InOrder
import Mathlib.Algebra.Order.Group.Multiset
import Mathlib.Tactic.Abel

namespace flow_engine.write_pipeline

/-- The loop takes nothing from the channel any more. -/
def Pc.done_with (pc : Pc) (lane : Lane) : Bool :=
  match pc with
  | .drain lanes exiting => exiting && !lanes.contains lane
  | pc => pc.leaving || pc.over

/-- What is in a channel that has no senders is nothing. -/
def Deserted (s : PipelineState) (lane : Lane) : Prop :=
  (s.channels lane).queue = [] ∧ (s.channels lane).senders = false

/-- What the loop knows of its channels. -/
structure Attended (s : PipelineState) : Prop where
  closed : ∀ lane, s.channel_open lane = false → Deserted s lane
  receiving : s.pc.over = false → ∀ lane, (s.channels lane).receiver = true
  returned : s.pc = .returned → s.shutdown ≠ .held ∨ (s.channels .critical).senders = false

/-- What a step of the loop does over a store that works. -/
inductive LoopStep (p : WritePipeline) (s next : PipelineState) : Prop where
  | goes (pc : Pc) (channel_open : Lane → Bool) (hnext : next = { s with pc, channel_open })
      (hidle : s.pc.idle = true ∧ pc.idle = true)
      (hdone : ∀ lane, pc.done_with lane = s.pc.done_with lane ∨ (s.channels lane).queue = [])
      (hopen : ∀ lane, channel_open lane = false → Deserted s lane)
  | takes (lane : Lane) (entry : Entry) (pc : Pc) (hnext : next = { s.receive lane entry with pc })
      (hidle : s.pc.idle = true ∧ pc.idle = true) (hpeek : (s.channels lane).peek = .message entry)
      (hreads : s.pc.done_with lane = false) (hdone : ∀ other, pc.done_with other = s.pc.done_with other)
  | redacts (redacted : List Entry) (resume : Resume) (hpc : s.pc = .flush resume)
      (hredact : s.batch.mapM (redact_entry p) = some redacted)
      (hnext : next = { s with batch := [], pc := .write redacted resume })
  | stores (pc : Pc) (hwriting : s.pc.writing = true) (hidle : pc.idle = true)
      (hdone : ∀ lane, pc.done_with lane = s.pc.done_with lane)
      (hnext : next = { s with calls := s.calls + 1, stored := s.stored ++ s.pc.flushing, pc })
  | ends (before : PipelineState) (hnext : next = before.finish .returned) (hbatch : before.batch = [])
      (hsame : before.channels = s.channels ∧ before.shutdown = s.shutdown ∧ before.accepted = s.accepted)
      (hopen : ∀ lane, before.channel_open lane = false → Deserted s lane)
      (hheld : before.stored = s.stored ++ s.pc.flushing ++ s.batch)
      (hdone : ∀ lane, s.pc.done_with lane = true ∨ (s.channels lane).queue = [])
      (hleaving : s.pc.leaving = true ∨ (s.channels .critical).senders = false)
  | panics (hnext : next = s.finish .panicked)

variable {p : WritePipeline} {s next : PipelineState}

theorem Pc.done_with_of_stays {pc : Pc} (hidle : pc.idle = true) (hstays : pc.leaving = false) (lane : Lane) :
    pc.done_with lane = false := by
  cases pc <;> simp_all [Pc.done_with, Pc.leaving, Pc.idle, Pc.over, Pc.writing]

/-- The loop stays at work. -/
theorem LoopStep.stays {pc : Pc} (hidle : s.pc.idle = true ∧ pc.idle = true)
    (hstays : s.pc.leaving = false ∧ pc.leaving = false) (h : Attended s) : LoopStep p s { s with pc } := by
  refine .goes pc s.channel_open rfl hidle ?_ h.closed
  intro lane
  rw [Pc.done_with_of_stays hidle.1 hstays.1, Pc.done_with_of_stays hidle.2 hstays.2]
  exact Or.inl rfl

/-- Nothing is left to read, and the loop flushes for the last time. -/
theorem LoopStep.flush_and_return (channel_open : Lane → Bool) (hidle : s.pc.idle = true)
    (hopen : ∀ lane, channel_open lane = false → Deserted s lane)
    (hdone : ∀ lane, s.pc.done_with lane = true ∨ (s.channels lane).queue = [])
    (hleaving : s.pc.leaving = true ∨ (s.channels .critical).senders = false) :
    LoopStep p s { s with channel_open }.flush_and_return := by
  unfold PipelineState.flush_and_return
  split
  · rename_i hbatch
    have hbatch := List.isEmpty_iff.mp hbatch
    refine .ends _ rfl hbatch ⟨rfl, rfl, rfl⟩ hopen ?_ hdone hleaving
    simp only at hbatch
    simp [hbatch, Pc.idle_flushing hidle]
  · refine .goes (.flush .exit) channel_open rfl ⟨hidle, rfl⟩ ?_ hopen
    intro lane
    exact (hdone lane).imp_left fun hlane => hlane.symm

/-- A channel is found closed for good. -/
theorem Attended.close (h : Attended s) {lane : Lane} (hpeek : (s.channels lane).peek = .disconnected) :
    ∀ other, Function.update s.channel_open lane false other = false → Deserted s other := by
  intro other hother
  by_cases hlane : other = lane
  · subst hlane
    exact mpsc.Channel.peek_disconnected hpeek
  · exact h.closed other (by rwa [Function.update_of_ne hlane] at hother)

/-- Both channels are. -/
theorem Attended.both_closed (h : Attended s) {lane : Lane} (hpeek : (s.channels lane).peek = .disconnected)
    (hother : s.channel_open lane.other = false) (other : Lane) : Deserted s other := by
  by_cases hlane : other = lane
  · subst hlane
    exact mpsc.Channel.peek_disconnected hpeek
  · have heq : other = lane.other := by cases other <;> cases lane <;> first | rfl | exact absurd rfl hlane
    rw [heq]
    exact h.closed lane.other hother

/-- A loop that polls a channel is done with none. -/
theorem Pc.poll_reads {pc : Pc} {lane : Lane} (hpc : pc = .poll lane) (other : Lane) : pc.done_with other = false := by
  subst hpc
  rfl

/-- A write has succeeded. -/
theorem LoopStep.store (h : Attended s) (hsound : Sound p s) (hwriting : s.pc.writing = true) {resume : Resume}
    (hleaving : s.pc.leaving = decide (resume = .exit)) :
    LoopStep p s
      ({ s with calls := s.calls + 1, stored := s.stored ++ s.pc.flushing }.resume_at resume) := by
  have hbatch := hsound.writing hwriting
  have hdone : ∀ lane, s.pc.done_with lane = s.pc.leaving := by
    intro lane
    cases hpc : s.pc <;> simp [hpc, Pc.writing, Pc.done_with, Pc.over] at hwriting ⊢
  cases resume with
  | adaptive => exact .stores .adaptive hwriting rfl (fun lane => by rw [hdone, hleaving]; rfl) rfl
  | head => exact .stores .poll_shutdown hwriting rfl (fun lane => by rw [hdone, hleaving]; rfl) rfl
  | exit =>
    refine .ends _ rfl hbatch ⟨rfl, rfl, rfl⟩ h.closed ?_ (fun lane => Or.inl (by rw [hdone, hleaving]; rfl))
      (Or.inl (by rw [hleaving]; rfl))
    simp [hbatch]

/-- What one step of the flush loop does, while the store works. -/
theorem proceed_cases (h : Attended s) (hsound : Sound p s) (hworks : p.fails s.calls = false) {elapsed : Bool}
    (hstep : proceed p s elapsed = some next) : LoopStep p s next := by
  cases proceed_moves hstep with
  | stays pc hidle hstays => exact .stays hidle hstays h
  | signalled hpc =>
    refine .goes _ s.channel_open rfl ⟨by rw [hpc]; rfl, rfl⟩ (fun lane => .inl ?_) h.closed
    rw [hpc]
    cases lane <;> rfl
  | receives lane entry hpc hopen hpeek =>
    refine .takes lane entry _ rfl ⟨by rw [hpc]; rfl, rfl⟩ hpeek (Pc.poll_reads hpc lane) fun other => ?_
    rw [Pc.poll_reads hpc other]
    rfl
  | closes lane hpc hopen hpeek hother =>
    refine .goes .adaptive _ rfl ⟨by rw [hpc]; rfl, rfl⟩ (fun other => .inl ?_) (h.close hpeek)
    rw [Pc.poll_reads hpc other]
    rfl
  | closes_last lane hpc hopen hpeek hother =>
    have hboth := h.both_closed hpeek hother
    exact .flush_and_return _ (by rw [hpc]; rfl) (h.close hpeek) (fun other => .inr (hboth other).1)
      (.inr (hboth .critical).2)
  | takes lane lanes exiting entry hpc hpeek =>
    have hidle : s.pc.idle = true := by rw [hpc]; rfl
    refine .takes lane entry s.pc rfl ⟨hidle, hidle⟩ hpeek ?_ fun _ => rfl
    rw [hpc]
    simp [Pc.done_with]
  | passes lane lanes exiting hpc hempty =>
    refine .goes (.drain lanes exiting) s.channel_open rfl ⟨by rw [hpc]; rfl, rfl⟩ (fun other => ?_) h.closed
    by_cases hlane : other = lane
    · subst hlane
      exact .inr hempty
    · rw [hpc]
      exact .inl (by simp [Pc.done_with, hlane])
  | drained hpc =>
    exact .flush_and_return s.channel_open (by rw [hpc]; rfl) h.closed (fun lane => .inl (by rw [hpc]; rfl))
      (.inl (by rw [hpc]; rfl))
  | redacts redacted resume hpc hredact => exact .redacts redacted resume hpc hredact rfl
  | panics => exact .panics rfl
  | retries _ _ _ hfails | rebuffers _ _ _ hfails =>
    rw [hworks] at hfails
    cases hfails
  | stores resume hwriting hleaving => exact .store h hsound hwriting hleaving

/-- The sources of entries. -/
def sources (entries : List Entry) : Multiset Source := (entries.map Entry.source : List Source)

@[simp] theorem sources_nil : sources [] = 0 := rfl

@[simp] theorem sources_append (first second : List Entry) : sources (first ++ second) = sources first + sources second := by
  simp [sources]

@[simp] theorem sources_cons (entry : Entry) (entries : List Entry) :
    sources (entry :: entries) = {entry.source} + sources entries := by
  simp [sources]

/-- What the loop still reads of a channel. -/
def unread (s : PipelineState) (lane : Lane) : Multiset Source :=
  if s.pc.done_with lane then 0 else sources (s.channels lane).queue

/-- The events that are stored or on their way to the store. -/
def reach (s : PipelineState) : Multiset Source :=
  sources (s.stored ++ s.pc.flushing ++ s.batch) + (unread s .critical + unread s .advisory)

theorem unread_congr {lane : Lane} (hchannels : next.channels = s.channels)
    (hdone : next.pc.done_with lane = s.pc.done_with lane ∨ (s.channels lane).queue = []) :
    unread next lane = unread s lane := by
  rw [unread, unread, hchannels]
  cases hdone with
  | inl heq => rw [heq]
  | inr hempty => simp [hempty]

theorem unread_done {lane : Lane} (hdone : s.pc.done_with lane = true ∨ (s.channels lane).queue = []) :
    unread s lane = 0 := by
  rw [unread]
  cases hdone with
  | inl heq => rw [if_pos heq]
  | inr hempty => simp [hempty]

/-- Taking an event out of a channel leaves the other one as it is. -/
theorem unread_receive {lane : Lane} {entry : Entry} (hpeek : (s.channels lane).peek = .message entry)
    (hreads : s.pc.done_with lane = false) (hchannels : next.channels = (s.receive lane entry).channels)
    (hdone : ∀ other, next.pc.done_with other = s.pc.done_with other) :
    unread s .critical + unread s .advisory = {entry.source} + (unread next .critical + unread next .advisory) := by
  have hqueue := mpsc.Channel.peek_message hpeek
  have hsame : ∀ other, unread s other = (if other = lane then {entry.source} else 0) + unread next other := by
    intro other
    rw [unread, unread, hchannels, hdone other]
    by_cases hlane : other = lane
    · subst hlane
      rw [if_neg (by simp [hreads]), if_pos rfl, if_neg (by simp [hreads]), hqueue, sources_cons]
      simp [PipelineState.receive]
    · simp [hlane, PipelineState.receive]
  rw [hsame .critical, hsame .advisory]
  cases lane with
  | critical => simp
  | advisory => simp

/-- Nothing that is on its way gets lost, as long as redaction does not panic. -/
theorem LoopStep.reach_eq (h : LoopStep p s next) (hsound : Sound p s) (hpanics : next.pc ≠ .panicked) :
    reach next = reach s := by
  cases h with
  | goes pc channel_open hnext hidle hdone hopen =>
    have hpc : next.pc = pc := by rw [hnext]
    have hchannels : next.channels = s.channels := by rw [hnext]
    rw [reach, reach, unread_congr hchannels (hpc ▸ hdone .critical), unread_congr hchannels (hpc ▸ hdone .advisory), hpc,
      Pc.idle_flushing hidle.1, Pc.idle_flushing hidle.2, hnext]
  | takes lane entry pc hnext hidle hpeek hreads hdone =>
    have hpc : next.pc = pc := by rw [hnext]
    have hheld : next.stored = s.stored ∧ next.batch = s.batch ++ [entry] := by
      rw [hnext]
      exact ⟨rfl, rfl⟩
    rw [reach, reach, unread_receive hpeek hreads (by rw [hnext]) (hpc ▸ hdone), hpc, Pc.idle_flushing hidle.1,
      Pc.idle_flushing hidle.2, hheld.1, hheld.2]
    simp only [sources_append, sources_nil, sources_cons]
    abel
  | redacts redacted resume hpc hredact hnext =>
    have hpc' : next.pc = .write redacted resume := by rw [hnext]
    have hchannels : next.channels = s.channels := by rw [hnext]
    have hheld : next.stored = s.stored ∧ next.batch = [] := by
      rw [hnext]
      exact ⟨rfl, rfl⟩
    have hdone : ∀ lane, next.pc.done_with lane = s.pc.done_with lane := by
      intro lane
      rw [hpc, hpc']
      rfl
    have hsources : sources redacted = sources s.batch := by
      rw [sources, (redact_batch hredact hsound.conserved.batch).1, sources]
    rw [reach, reach, unread_congr hchannels (Or.inl (hdone .critical)),
      unread_congr hchannels (Or.inl (hdone .advisory)), hpc, hpc', hheld.1, hheld.2]
    simp only [Pc.flushing, sources_append, sources_nil, hsources]
    abel
  | stores pc hwriting hidle hdone hnext =>
    have hpc : next.pc = pc := by rw [hnext]
    have hchannels : next.channels = s.channels := by rw [hnext]
    have hheld : next.stored = s.stored ++ s.pc.flushing ∧ next.batch = s.batch := by
      rw [hnext]
      exact ⟨rfl, rfl⟩
    rw [reach, reach, unread_congr hchannels (Or.inl (hpc ▸ hdone .critical)),
      unread_congr hchannels (Or.inl (hpc ▸ hdone .advisory)), hpc, Pc.idle_flushing hidle, hheld.1, hheld.2]
    simp only [sources_append, sources_nil]
    abel
  | ends before hnext hbatch hsame hopen hheld hdone hleaving =>
    have hpc : next.pc = .returned := by rw [hnext]; rfl
    have hstored : next.stored = before.stored ∧ next.batch = [] := by
      rw [hnext]
      exact ⟨rfl, rfl⟩
    have hreturned : ∀ lane, unread next lane = 0 := fun lane => unread_done (Or.inl (by rw [hpc]; rfl))
    rw [reach, reach, hreturned, hreturned, unread_done (hdone .critical), unread_done (hdone .advisory), hpc, hstored.1,
      hstored.2, hheld]
    simp only [Pc.flushing, sources_append, sources_nil]
    abel
  | panics hnext => exact absurd (by rw [hnext]; rfl) hpanics

/-- Where the loop has returned, exactly what was on its way is stored. -/
theorem reach_returned (hsound : Sound p s) (hreturned : s.pc = .returned) : reach s = sources s.stored := by
  have hbatch := (hsound.ended (by rw [hreturned]; rfl)).1
  rw [reach, unread_done (Or.inl (by rw [hreturned]; rfl)), unread_done (Or.inl (by rw [hreturned]; rfl)), hreturned, hbatch]
  simp [Pc.flushing]

/-- A channel takes an event. -/
structure Accepts (s next : PipelineState) (lane : Lane) (source : Source) : Prop where
  room : (s.channels lane).queue.length < (s.channels lane).capacity
  queue : (next.channels lane).queue = (s.channels lane).queue ++ [⟨source, source.event⟩]
  senders : (next.channels lane).senders = (s.channels lane).senders
  receiver : (next.channels lane).receiver = (s.channels lane).receiver
  others : ∀ other, other ≠ lane → next.channels other = s.channels other
  accepted : next.accepted = s.accepted ++ [source]
  loop : next.pc = s.pc ∧ next.stored = s.stored ∧ next.batch = s.batch ∧ next.channel_open = s.channel_open
  signal : next.shutdown = s.shutdown

theorem accepts_of_send {source : Source} {ch : mpsc.Channel Entry} (next_seq : Nat) (waiting : List (Nat × WriteEvent))
    (hsend : (s.channels source.lane).try_send ⟨source, source.event⟩ = .ok ch) :
    Accepts s { s with
      next_seq
      waiting
      channels := Function.update s.channels source.lane ch
      accepted := s.accepted ++ [source] } source.lane source := by
  obtain ⟨_, hqueue, hsenders, hreceiver⟩ := mpsc.Channel.try_send_ok hsend
  constructor
  · exact mpsc.Channel.try_send_room hsend
  · simp only [Function.update_self]
    exact hqueue
  · simp only [Function.update_self]
    exact hsenders
  · simp only [Function.update_self]
    exact hreceiver
  · exact fun other hother => Function.update_of_ne hother _ _
  · rfl
  · exact ⟨rfl, rfl, rfl, rfl⟩
  · rfl

/-- The event that an action puts in a channel that the loop still reads. -/
def PipelineState.enters (s : PipelineState) : PipelineAction → Option Source
  | .send index => if s.pc.done_with .critical then none else (s.waiting[index]?).map s.waiting_source
  | .try_write event =>
    if s.pc.done_with .advisory || (s.channels .advisory).capacity ≤ (s.channels .advisory).queue.length then none
    else some (s.tried_source event)
  | _ => none

/-- What a channel takes is on its way to the store if the loop still reads the channel. -/
theorem Accepts.reach {lane : Lane} {source : Source} (h : Accepts s next lane source) :
    reach next = reach s + if s.pc.done_with lane then 0 else {source} := by
  have hunread : ∀ other, unread next other =
      unread s other + if other = lane then (if s.pc.done_with lane then 0 else {source}) else 0 := by
    intro other
    rw [unread, unread, h.loop.1]
    by_cases hlane : other = lane
    · subst hlane
      cases s.pc.done_with other <;> simp [h.queue]
    · simp [hlane, h.others other hlane]
  rw [write_pipeline.reach, write_pipeline.reach, hunread, hunread, h.loop.1, h.loop.2.1, h.loop.2.2.1]
  cases lane with
  | critical =>
    simp only [if_true, reduceCtorEq, if_false]
    abel
  | advisory =>
    simp only [if_true, reduceCtorEq, if_false]
    abel

theorem Attended.done_of_closed (h : Attended s) {lane : Lane} (hclosed : (s.channels lane).receiver = false) (other : Lane) :
    s.pc.done_with other = true := by
  have hover : s.pc.over = true := by
    by_contra hover
    rw [h.receiving (by simpa using hover) lane] at hclosed
    cases hclosed
  cases hpc : s.pc <;> simp [hpc, Pc.over, Pc.done_with] at hover ⊢

/-- What an action does: a step of the loop, or a change of the counter and the waiting
writers, of one channel or of the signal. -/
inductive ActionStep (p : WritePipeline) (s : PipelineState) (action : PipelineAction) (next : PipelineState) : Prop where
  | loop (elapsed : Bool) (haction : action = .proceed elapsed) (hproceed : proceed p s elapsed = some next)
  | counts (next_seq : Nat) (waiting : List (Nat × WriteEvent)) (hnext : next = { s with next_seq, waiting })
      (hseq : s.next_seq ≤ next_seq)
      (hwaiting : ∀ label ∈ waiting, label ∈ s.waiting ∨ label.1 = s.next_seq ∧ s.next_seq < next_seq)
      (henters : Attended s → s.enters action = none)
  | accepts (lane : Lane) (source : Source) (haccepts : Accepts s next lane source) (hseq : s.next_seq ≤ next.next_seq)
      (hwaiting : ∀ label ∈ next.waiting, label ∈ s.waiting)
      (hnumber : source.number ∈ s.waiting.map Prod.fst ∨ source.number = s.next_seq ∧ s.next_seq < next.next_seq)
      (hsenders : Sound p s → (s.channels lane).senders = true)
      (henters : s.enters action = if s.pc.done_with lane then none else some source)
  | closes (lane : Lane) (haction : action = .drop_senders lane)
      (hnext : next = { s with channels := Function.update s.channels lane (s.channels lane).close_senders })
  | signals (shutdown : oneshot.Sender) (haction : action = .shutdown ∨ action = .drop_handle)
      (hnext : next = { s with shutdown }) (hshutdown : shutdown ≠ .held) (henters : s.enters action = none)

theorem pipeline_step_cases {action : PipelineAction} (hstep : pipeline_step p s action = some next) :
    ActionStep p s action next := by
  cases pipeline_moves hstep with
  | proceeds elapsed next hproceed => exact .loop elapsed rfl hproceed
  | writes event =>
    refine .counts _ _ rfl (Nat.le_succ _) ?_ fun _ => rfl
    intro label hmem
    refine (List.mem_append.mp hmem).imp_right fun hnew => ?_
    rw [List.mem_singleton.mp hnew]
    exact ⟨rfl, Nat.lt_succ_self _⟩
  | sends index label ch hlabel hsend =>
    have haccepts := @accepts_of_send s (s.waiting_source label) ch s.next_seq (s.waiting.eraseIdx index) hsend
    refine .accepts .critical _ haccepts le_rfl (fun other hmem => List.mem_of_mem_eraseIdx hmem) (Or.inl ?_) ?_ ?_
    · exact List.mem_map_of_mem (List.mem_of_getElem? hlabel)
    · intro hsound
      by_contra hsenders
      rw [hsound.abandoned (by simpa using hsenders)] at hlabel
      cases hlabel
    · rw [PipelineState.enters, hlabel]
      rfl
  | gives_up index label hlabel hclosed =>
    refine .counts s.next_seq _ rfl le_rfl (fun other hmem => Or.inl (List.mem_of_mem_eraseIdx hmem)) ?_
    intro hattended
    rw [PipelineState.enters, if_pos (hattended.done_of_closed hclosed .critical)]
  | abandons index =>
    exact .counts s.next_seq _ rfl le_rfl (fun label hmem => Or.inl (List.mem_of_mem_eraseIdx hmem)) fun _ => rfl
  | tries event ch hsenders hsend =>
    have haccepts := @accepts_of_send s (s.tried_source event) ch (s.next_seq + 1) s.waiting hsend
    refine .accepts .advisory _ haccepts (Nat.le_succ _) (fun label hmem => hmem) (Or.inr ⟨rfl, Nat.lt_succ_self _⟩)
      (fun _ => hsenders) ?_
    have hroom := mpsc.Channel.try_send_room hsend
    rw [PipelineState.enters]
    cases s.pc.done_with .advisory <;> simp [Nat.not_le.mpr hroom]
  | drops event hsenders hdropped =>
    refine .counts (s.next_seq + 1) s.waiting rfl (Nat.le_succ _) (fun label hmem => Or.inl hmem) ?_
    intro hattended
    rw [PipelineState.enters, if_pos]
    cases hdropped with
    | inl hclosed => simp [hattended.done_of_closed hclosed .advisory]
    | inr hfull => simp [hfull]
  | closes lane => exact .closes lane rfl rfl
  | signals action shutdown haction hshutdown =>
    refine .signals shutdown haction rfl hshutdown ?_
    rcases haction with rfl | rfl <;> rfl

/-- An action adds to what is on its way the event it puts in a channel that is still read. -/
theorem reach_step (h : Attended s) (hsound : Sound p s) (hworks : p.fails s.calls = false) {action : PipelineAction}
    (hstep : pipeline_step p s action = some next) (hpanics : next.pc ≠ .panicked) :
    reach next = reach s + ((s.enters action).toList : List Source) := by
  cases pipeline_step_cases hstep with
  | loop elapsed haction hproceed =>
    rw [(proceed_cases h hsound hworks hproceed).reach_eq hsound hpanics, haction]
    exact (add_zero _).symm
  | counts next_seq waiting hnext hseq hwaiting henters =>
    rw [henters h, hnext]
    exact (add_zero _).symm
  | accepts lane source haccepts hseq hwaiting hnumber hsenders henters =>
    rw [haccepts.reach, henters]
    cases s.pc.done_with lane <;> rfl
  | closes lane haction hnext =>
    have hunread : ∀ other, unread next other = unread s other := by
      intro other
      rw [unread, unread, hnext]
      by_cases hlane : other = lane
      · subst hlane
        simp
      · simp [hlane]
    rw [reach, hunread, hunread, haction, hnext]
    exact (add_zero _).symm
  | signals shutdown haction hnext hshutdown henters =>
    rw [henters, hnext]
    exact (add_zero _).symm

/-- Receiving an event closes no channel. -/
theorem Attended.receive (h : Attended s) {lane : Lane} {entry : Entry} (hpeek : (s.channels lane).peek = .message entry) :
    (∀ other, s.channel_open other = false → Deserted (s.receive lane entry) other) ∧
      (s.pc.over = false → ∀ other, ((s.receive lane entry).channels other).receiver = true) := by
  have hqueue := mpsc.Channel.peek_message hpeek
  constructor
  · intro other hopen
    have hdeserted := h.closed other hopen
    by_cases hlane : other = lane
    · subst hlane
      rw [hdeserted.1] at hqueue
      cases hqueue
    · simpa [Deserted, PipelineState.receive, hlane] using hdeserted
  · intro hover other
    have hreceiving := h.receiving hover other
    by_cases hlane : other = lane
    · subst hlane
      simpa [PipelineState.receive] using hreceiving
    · simpa [PipelineState.receive, hlane] using hreceiving

theorem LoopStep.attended (h : LoopStep p s next) (hattended : Attended s) (hsound : Sound p s)
    (hpanics : next.pc ≠ .panicked) : Attended next := by
  have hreturned : next.pc.idle = true ∨ next.pc.writing = true → next.pc ≠ .returned := by
    rintro hwork hpc
    rw [hpc] at hwork
    cases hwork with
    | inl hidle => cases hidle
    | inr hwriting => cases hwriting
  have hworks : s.pc.idle = true ∨ s.pc.writing = true → s.pc.over = false := by
    intro hwork
    cases hpc : s.pc <;> simp [hpc, Pc.idle, Pc.writing, Pc.over] at hwork ⊢
  cases h with
  | goes pc channel_open hnext hidle hdone hopen =>
    subst hnext
    refine ⟨hopen, fun _ => hattended.receiving (hworks (Or.inl hidle.1)), fun hpc => ?_⟩
    exact absurd hpc (hreturned (Or.inl hidle.2))
  | takes lane entry pc hnext hidle hpeek hreads hdone =>
    subst hnext
    obtain ⟨hdeserted, hreceiving⟩ := hattended.receive hpeek
    exact ⟨hdeserted, fun _ => hreceiving (hworks (Or.inl hidle.1)), fun hpc => absurd hpc (hreturned (Or.inl hidle.2))⟩
  | redacts redacted resume hpc hredact hnext =>
    subst hnext
    refine ⟨hattended.closed, fun _ => hattended.receiving (hworks (Or.inl (by rw [hpc]; rfl))), fun hpc => ?_⟩
    exact absurd hpc (hreturned (Or.inr rfl))
  | stores pc hwriting hidle hdone hnext =>
    subst hnext
    refine ⟨hattended.closed, fun _ => hattended.receiving (hworks (Or.inr hwriting)), fun hpc => ?_⟩
    exact absurd hpc (hreturned (Or.inl hidle))
  | ends before hnext hbatch hsame hopen hheld hdone hleaving =>
    have hsenders : ∀ lane, (next.channels lane).senders = (s.channels lane).senders := by
      intro lane
      rw [hnext, ← hsame.1]
      rfl
    have hqueues : ∀ lane, (next.channels lane).queue = [] := by
      intro lane
      rw [hnext]
      rfl
    refine ⟨?_, ?_, ?_⟩
    · intro lane hclosed
      refine ⟨hqueues lane, ?_⟩
      rw [hsenders lane]
      exact (hopen lane (by rw [← hclosed, hnext]; rfl)).2
    · intro hover
      rw [hnext] at hover
      cases hover
    · intro _
      have hshutdown : next.shutdown = s.shutdown := by
        rw [hnext, ← hsame.2.1]
        rfl
      rw [hshutdown, hsenders]
      cases hleaving with
      | inl hleaving => exact (hsound.leaving hleaving).imp_right fun hempty => hempty.2
      | inr hclosed => exact Or.inr hclosed
  | panics hnext => exact absurd (by rw [hnext]; rfl) hpanics

/-- The loop drops no sender and gives no signal. -/
theorem LoopStep.owners (h : LoopStep p s next) :
    next.shutdown = s.shutdown ∧ ∀ lane, (next.channels lane).senders = (s.channels lane).senders := by
  cases h with
  | goes pc channel_open hnext hidle hdone hopen =>
    subst hnext
    exact ⟨rfl, fun _ => rfl⟩
  | takes lane entry pc hnext hidle hpeek hreads hdone =>
    subst hnext
    refine ⟨rfl, fun other => ?_⟩
    by_cases hlane : other = lane
    · subst hlane
      simp [PipelineState.receive]
    · simp [PipelineState.receive, hlane]
  | redacts redacted resume hpc hredact hnext =>
    subst hnext
    exact ⟨rfl, fun _ => rfl⟩
  | stores pc hwriting hidle hdone hnext =>
    subst hnext
    exact ⟨rfl, fun _ => rfl⟩
  | ends before hnext hbatch hsame hopen hheld hdone hleaving =>
    rw [hnext, ← hsame.1, ← hsame.2.1]
    exact ⟨rfl, fun _ => rfl⟩
  | panics hnext =>
    subst hnext
    exact ⟨rfl, fun _ => rfl⟩

/-- Nor do the writers while they and the owner are there. -/
theorem owners_step (h : Attended s) (hsound : Sound p s) (hworks : p.fails s.calls = false) {action : PipelineAction}
    (hstep : pipeline_step p s action = some next) (hsignals : action ≠ .shutdown ∧ action ≠ .drop_handle)
    (hcloses : ∀ lane, action ≠ .drop_senders lane) :
    next.shutdown = s.shutdown ∧ ∀ lane, (next.channels lane).senders = (s.channels lane).senders := by
  cases pipeline_step_cases hstep with
  | loop elapsed haction hproceed => exact (proceed_cases h hsound hworks hproceed).owners
  | counts next_seq waiting hnext hseq hwaiting henters =>
    subst hnext
    exact ⟨rfl, fun _ => rfl⟩
  | accepts lane source haccepts hseq hwaiting hnumber hsenders henters =>
    refine ⟨haccepts.signal, fun other => ?_⟩
    by_cases hlane : other = lane
    · rw [hlane, haccepts.senders]
    · rw [haccepts.others other hlane]
  | closes lane haction hnext => exact absurd haction (hcloses lane)
  | signals shutdown haction hnext hshutdown henters =>
    cases haction with
    | inl hshutdown => exact absurd hshutdown hsignals.1
    | inr hdrop => exact absurd hdrop hsignals.2

/-- A write that waits goes on waiting, is given up, or enters. -/
theorem waiting_step (hreads : s.pc.done_with .critical = false) {action : PipelineAction}
    (hstep : pipeline_step p s action = some next) {label : Nat × WriteEvent} (hlabel : label ∈ s.waiting) :
    label ∈ next.waiting ∨ (∃ index, action = .abandon index ∧ s.waiting[index]? = some label) ∨
      s.enters action = some (s.waiting_source label) := by
  obtain ⟨place, hplace⟩ := List.mem_iff_getElem?.mp hlabel
  have hrest : ∀ index, index ≠ place → label ∈ s.waiting.eraseIdx index := fun index hindex =>
    List.mem_eraseIdx_iff_getElem?.mpr ⟨place, Ne.symm hindex, hplace⟩
  cases pipeline_moves hstep with
  | proceeds elapsed next hproceed =>
    have hwriters := proceed_writers hproceed
    simp only [PipelineState.writers, Prod.mk.injEq] at hwriters
    rw [hwriters.2.1]
    exact Or.inl hlabel
  | writes event => exact Or.inl (List.mem_append_left _ hlabel)
  | abandons index =>
    by_cases hindex : index = place
    · exact Or.inr (Or.inl ⟨index, rfl, by rw [hindex, hplace]⟩)
    · exact Or.inl (hrest index hindex)
  | sends index | gives_up index =>
    by_cases hindex : index = place
    · refine Or.inr (Or.inr ?_)
      rw [PipelineState.enters, hreads, hindex, hplace]
      rfl
    · exact Or.inl (hrest index hindex)
  | _ => exact Or.inl hlabel

theorem Accepts.attended {lane : Lane} {source : Source} (h : Accepts s next lane source) (hattended : Attended s)
    (hsenders : (s.channels lane).senders = true) : Attended next := by
  obtain ⟨hpc, _, _, hopen⟩ := h.loop
  refine ⟨?_, ?_, ?_⟩
  · intro other hclosed
    rw [hopen] at hclosed
    have hdeserted := hattended.closed other hclosed
    by_cases hlane : other = lane
    · subst hlane
      rw [hdeserted.2] at hsenders
      cases hsenders
    · rwa [Deserted, h.others other hlane]
  · intro hover other
    rw [hpc] at hover
    have hreceiving := hattended.receiving hover other
    by_cases hlane : other = lane
    · subst hlane
      rwa [h.receiver]
    · rwa [h.others other hlane]
  · intro hreturned
    rw [hpc] at hreturned
    rw [h.signal]
    refine (hattended.returned hreturned).imp_right fun hclosed => ?_
    by_cases hlane : Lane.critical = lane
    · rw [hlane, h.senders, ← hlane, hclosed]
    · rw [h.others .critical hlane, hclosed]

theorem Attended.step (h : Attended s) (hsound : Sound p s) (hworks : p.fails s.calls = false) {action : PipelineAction}
    (hstep : pipeline_step p s action = some next) (hpanics : next.pc ≠ .panicked) : Attended next := by
  cases pipeline_step_cases hstep with
  | loop elapsed haction hproceed => exact (proceed_cases h hsound hworks hproceed).attended h hsound hpanics
  | counts next_seq waiting hnext hseq hwaiting henters =>
    subst hnext
    exact ⟨h.closed, h.receiving, h.returned⟩
  | accepts lane source haccepts hseq hwaiting hnumber hsenders henters => exact haccepts.attended h (hsenders hsound)
  | closes lane haction hnext =>
    subst hnext
    refine ⟨?_, ?_, ?_⟩
    · intro other hclosed
      have hdeserted := h.closed other hclosed
      by_cases hlane : other = lane
      · subst hlane
        simpa [Deserted] using hdeserted.1
      · simpa [Deserted, hlane] using hdeserted
    · intro hover other
      have hreceiving := h.receiving hover other
      by_cases hlane : other = lane
      · subst hlane
        simpa using hreceiving
      · simpa [hlane] using hreceiving
    · intro hreturned
      refine (h.returned hreturned).imp_right fun hclosed => ?_
      by_cases hlane : Lane.critical = lane
      · subst hlane
        simp
      · simpa [hlane] using hclosed
  | signals shutdown haction hnext hshutdown henters =>
    subst hnext
    exact ⟨h.closed, h.receiving, fun _ => Or.inl hshutdown⟩

theorem spawn_attended (p : WritePipeline) : Attended (spawn p) := by
  refine ⟨?_, ?_, ?_⟩ <;> simp [spawn]

/-- The task of the loop stays dead. -/
theorem panicked_step {action : PipelineAction} (hstep : pipeline_step p s action = some next)
    (hpanics : next.pc ≠ .panicked) : s.pc ≠ .panicked := by
  intro hpc
  cases pipeline_moves hstep with
  | proceeds elapsed next hproceed => simp [proceed, hpc] at hproceed
  | _ => exact hpanics hpc

/-- An action gives out at most the next number. -/
theorem numbers_step {action : PipelineAction} (hstep : pipeline_step p s action = some next) :
    s.next_seq ≤ next.next_seq ∧
      ∀ n ∈ next.numbers, n ∈ s.numbers ∨ n = s.next_seq ∧ s.next_seq < next.next_seq := by
  cases pipeline_step_cases hstep with
  | loop elapsed haction hproceed =>
    have hwriters := proceed_writers hproceed
    simp only [PipelineState.writers, Prod.mk.injEq] at hwriters
    obtain ⟨hseq, hwaiting, haccepted⟩ := hwriters
    rw [PipelineState.numbers, hwaiting, haccepted]
    exact ⟨hseq.ge, fun n hmem => Or.inl hmem⟩
  | counts next_seq waiting hnext hseq hwaiting henters =>
    subst hnext
    refine ⟨hseq, ?_⟩
    intro n hmem
    cases List.mem_append.mp hmem with
    | inl hwaits =>
      obtain ⟨label, hlabel, rfl⟩ := List.mem_map.mp hwaits
      exact (hwaiting label hlabel).imp_left fun hold => List.mem_append_left _ (List.mem_map_of_mem hold)
    | inr haccepted => exact Or.inl (List.mem_append_right _ haccepted)
  | accepts lane source haccepts hseq hwaiting hnumber hsenders henters =>
    refine ⟨hseq, ?_⟩
    intro n hmem
    cases List.mem_append.mp hmem with
    | inl hwaits =>
      obtain ⟨label, hlabel, rfl⟩ := List.mem_map.mp hwaits
      exact Or.inl (List.mem_append_left _ (List.mem_map_of_mem (hwaiting label hlabel)))
    | inr haccepted =>
      rw [haccepts.accepted, List.map_append, List.mem_append, List.map_singleton, List.mem_singleton] at haccepted
      cases haccepted with
      | inl hold => exact Or.inl (List.mem_append_right _ hold)
      | inr hnew =>
        rw [hnew]
        exact hnumber.imp_left fun hwaits => List.mem_append_left _ hwaits
  | closes lane haction hnext =>
    subst hnext
    exact ⟨le_rfl, fun n hmem => Or.inl hmem⟩
  | signals shutdown haction hnext hshutdown henters =>
    subst hnext
    exact ⟨le_rfl, fun n hmem => Or.inl hmem⟩

/-- What is on its way was accepted. -/
theorem reach_le_step (h : Attended s) (hsound : Sound p s) (hworks : p.fails s.calls = false)
    (hle : reach s ≤ (s.accepted : Multiset Source)) {action : PipelineAction}
    (hstep : pipeline_step p s action = some next) (hpanics : next.pc ≠ .panicked) :
    reach next ≤ (next.accepted : Multiset Source) := by
  rw [reach_step h hsound hworks hstep hpanics]
  cases pipeline_step_cases hstep with
  | loop elapsed haction hproceed =>
    have hwriters := proceed_writers hproceed
    simp only [PipelineState.writers, Prod.mk.injEq] at hwriters
    rw [hwriters.2.2, haction]
    exact (add_zero (reach s)).trans_le hle
  | counts next_seq waiting hnext hseq hwaiting henters =>
    rw [henters h, hnext]
    exact (add_zero (reach s)).trans_le hle
  | accepts lane source haccepts hseq hwaiting hnumber hsenders henters =>
    rw [henters, haccepts.accepted, ← Multiset.coe_add]
    refine add_le_add hle ?_
    cases s.pc.done_with lane <;> simp
  | closes lane haction hnext =>
    rw [haction, hnext]
    exact (add_zero (reach s)).trans_le hle
  | signals shutdown haction hnext hshutdown henters =>
    rw [henters, hnext]
    exact (add_zero (reach s)).trans_le hle

/-- What holds of a pipeline over a working store until the loop panics. -/
structure Steady (p : WritePipeline) (s : PipelineState) : Prop where
  sound : Sound p s
  attended : Attended s
  numbered : Numbered s
  labelled : Labelled s
  within : reach s ≤ (s.accepted : Multiset Source)
  positive : 1 ≤ s.next_seq ∧ ∀ n ∈ s.numbers, 1 ≤ n

theorem Steady.step (h : Steady p s) (hworks : p.fails s.calls = false) {action : PipelineAction}
    (hstep : pipeline_step p s action = some next) (hpanics : next.pc ≠ .panicked) : Steady p next := by
  obtain ⟨hseq, hnumbers⟩ := numbers_step hstep
  refine ⟨h.sound.step hstep, h.attended.step h.sound hworks hstep hpanics, h.numbered.step hstep, h.labelled.step hstep,
    reach_le_step h.attended h.sound hworks h.within hstep hpanics, le_trans h.positive.1 hseq, ?_⟩
  intro n hmem
  cases hnumbers n hmem with
  | inl hold => exact h.positive.2 n hold
  | inr hnew =>
    rw [hnew.1]
    exact h.positive.1

theorem spawn_steady (p : WritePipeline) : Steady p (spawn p) := by
  refine ⟨spawn_sound p, spawn_attended p, ?_, ?_, ?_, le_rfl, ?_⟩
  · exact ⟨by simp [PipelineState.numbers, spawn], by simp [PipelineState.numbers, spawn]⟩
  · exact ⟨by simp [spawn], by simp [spawn]⟩
  · rw [reach, unread_done (Or.inr rfl), unread_done (Or.inr rfl)]
    exact le_rfl
  · simp [PipelineState.numbers, spawn]

/-- While the owner holds the pipeline and its writers, the loop reads both channels. -/
theorem Steady.reads (h : Steady p s) (hpanics : s.pc ≠ .panicked) (hheld : s.shutdown = .held)
    (hsenders : (s.channels .critical).senders = true) (lane : Lane) : s.pc.done_with lane = false := by
  by_contra hdone
  have hcause : s.shutdown ≠ .held ∨ (s.channels .critical).senders = false := by
    by_cases hreturned : s.pc = .returned
    · exact h.attended.returned hreturned
    · refine (h.sound.leaving ?_).imp_right fun hempty => hempty.2
      cases hpc : s.pc <;> simp_all [Pc.done_with, Pc.leaving, Pc.over]
  cases hcause with
  | inl hsignal => exact hsignal hheld
  | inr hclosed =>
    rw [hsenders] at hclosed
    cases hclosed

end flow_engine.write_pipeline
