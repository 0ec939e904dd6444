import FlowEngine.Pipeline.Ordered
import Mathlib.Data.Prod.Lex
import Mathlib.Order.WellFounded

namespace flow_engine.write_pipeline

/-- The steps from where a flush resumes to the next look at the channels, or to the end. -/
def Resume.distance : Resume → Nat
  | .adaptive => 12
  | .head => 7
  | .exit => 0

/-- The steps until the loop looks at the critical channel, or until it ends if it was told to. -/
def Pc.distance (told : Bool) : Pc → Nat
  | .returned | .panicked => 0
  | .retry _ resume => resume.distance + 1
  | .write _ resume => resume.distance + 2
  | .flush resume => resume.distance + 3
  | .drain lanes exiting => lanes.length + if exiting then 4 else 16
  | .start => 8
  | .poll_shutdown => 7
  | .adaptive_advisory _ => 11
  | .adaptive => 12
  | .poll_tick => 16
  | .poll .advisory => 17
  | .poll .critical => if told then 18 else 0

namespace PipelineState

/-- The events that the loop has still to read. -/
def backlog (s : PipelineState) : Nat := (s.channels .critical).queue.length + (s.channels .advisory).queue.length

def open_lanes (s : PipelineState) : Nat := (s.channel_open .critical).toNat + (s.channel_open .advisory).toNat

/-- How far the loop is from reading the critical channel, or from its end. -/
def distance (s : PipelineState) : ℕ ×ₗ ℕ ×ₗ ℕ :=
  toLex (s.backlog, toLex (s.open_lanes, s.pc.distance (s.shutdown ≠ .held)))

/-- A `write` that waits need not wait for room. -/
def has_room (s : PipelineState) : Bool :=
  s.pc.over || (s.channels .critical).queue.length < (s.channels .critical).capacity

end PipelineState

variable {p : WritePipeline} {s next : PipelineState}

theorem distance_lt_iff : next.distance < s.distance ↔ next.backlog < s.backlog ∨
    next.backlog = s.backlog ∧ (next.open_lanes < s.open_lanes ∨ next.open_lanes = s.open_lanes ∧
      next.pc.distance (next.shutdown ≠ .held) < s.pc.distance (s.shutdown ≠ .held)) := by
  simp only [PipelineState.distance, Prod.Lex.toLex_lt_toLex]

/-- The loop goes on from a place nearer. -/
theorem goes_nearer {pc : Pc} (h : pc.distance (s.shutdown ≠ .held) < s.pc.distance (s.shutdown ≠ .held)) :
    PipelineState.distance { s with pc } < s.distance :=
  distance_lt_iff.mpr (.inr ⟨rfl, .inr ⟨rfl, h⟩⟩)

theorem receives_nearer {lane : Lane} {entry : Entry} (hpeek : (s.channels lane).peek = .message entry) (pc : Pc) :
    PipelineState.distance { s.receive lane entry with pc } < s.distance := by
  refine distance_lt_iff.mpr (.inl ?_)
  have hqueue := mpsc.Channel.peek_message hpeek
  have hlength := congrArg List.length hqueue
  rw [List.length_cons] at hlength
  cases lane <;> simp [PipelineState.backlog, PipelineState.receive] at hlength ⊢ <;> omega

/-- The task ends, having closed what it found closed. -/
theorem finishes_nearer {channel_open : Lane → Bool} {pc : Pc} (hover : pc.over = true)
    (hless : PipelineState.open_lanes { s with channel_open } < s.open_lanes ∨
      channel_open = s.channel_open ∧ 0 < s.pc.distance (s.shutdown ≠ .held)) :
    (PipelineState.finish { s with channel_open } pc).distance < s.distance := by
  have hend : ∀ told, pc.distance told = 0 := by
    intro told
    cases pc <;> first | rfl | cases hover
  rw [distance_lt_iff]
  have hnone : (PipelineState.finish { s with channel_open } pc).backlog = 0 := rfl
  rcases Nat.eq_zero_or_pos s.backlog with hzero | hsome
  · refine .inr ⟨by rw [hnone, hzero], hless.imp (fun hlt => hlt) ?_⟩
    rintro ⟨rfl, hpos⟩
    exact ⟨rfl, (hend _).trans_lt hpos⟩
  · exact .inl (by rwa [hnone])

/-- A lane that was open is closed. -/
theorem closes_less {lane : Lane} (hopen : s.channel_open lane = true) :
    PipelineState.open_lanes { s with channel_open := Function.update s.channel_open lane false } < s.open_lanes := by
  cases lane <;> simp [PipelineState.open_lanes, hopen]

theorem closes_nearer {lane : Lane} (hopen : s.channel_open lane = true) (pc : Pc) :
    PipelineState.distance { s with channel_open := Function.update s.channel_open lane false, pc } < s.distance :=
  distance_lt_iff.mpr (.inr ⟨rfl, .inl (closes_less hopen)⟩)

theorem flush_and_return_nearer {channel_open : Lane → Bool}
    (hless : PipelineState.open_lanes { s with channel_open } < s.open_lanes ∨
      channel_open = s.channel_open ∧ 3 < s.pc.distance (s.shutdown ≠ .held)) :
    (PipelineState.flush_and_return { s with channel_open }).distance < s.distance := by
  unfold PipelineState.flush_and_return
  split
  · exact finishes_nearer rfl (hless.imp_right fun h => ⟨h.1, by omega⟩)
  · refine distance_lt_iff.mpr (.inr ⟨rfl, hless.imp_right ?_⟩)
    rintro ⟨rfl, hfar⟩
    exact ⟨rfl, hfar⟩

/-- A flush is behind the loop. -/
theorem resumes_nearer {calls : Nat} {batch stored : List Entry} {resume : Resume}
    (hfar : resume.distance < s.pc.distance (s.shutdown ≠ .held)) :
    (PipelineState.resume_at { s with calls, batch, stored } resume).distance < s.distance := by
  have hgoes : ∀ pc : Pc, pc.distance (s.shutdown ≠ .held) = resume.distance →
      PipelineState.distance { s with calls, batch, stored, pc } < s.distance := fun pc hpc =>
    distance_lt_iff.mpr (.inr ⟨rfl, .inr ⟨rfl, hpc.trans_lt hfar⟩⟩)
  cases resume with
  | adaptive => exact hgoes .adaptive rfl
  | head => exact hgoes .poll_shutdown rfl
  | exit =>
    have hends := @finishes_nearer { s with calls, batch, stored } s.channel_open .returned rfl (.inr ⟨rfl, hfar⟩)
    exact hends

/-- The branch of a channel brings the loop nearer where it receives or closes, and where the place it
goes to otherwise is. -/
theorem poll_nearer {lane : Lane} {skipped : Pc}
    (hskip : (s.channel_open lane = true → (s.channels lane).peek = .empty) →
      skipped.distance (s.shutdown ≠ .held) < s.pc.distance (s.shutdown ≠ .held)) :
    (s.poll_channel lane skipped).distance < s.distance := by
  unfold PipelineState.poll_channel
  split
  · rename_i hopen
    split
    · rename_i entry hpeek
      exact receives_nearer hpeek _
    · simp only
      split
      · exact closes_nearer hopen _
      · exact flush_and_return_nearer (.inl (closes_less hopen))
    · rename_i hpeek
      exact goes_nearer (hskip fun _ => hpeek)
  · rename_i hclosed
    exact goes_nearer (hskip fun hopen => absurd hopen hclosed)

/-- Where the loop was told to end, or has something to read from the critical channel, a step
brings it nearer to that. -/
theorem proceed_nearer (hsound : Sound p s) (hlooks : s.shutdown = .held → (s.channels .critical).queue ≠ []) {elapsed : Bool}
    (hstep : proceed p s elapsed = some next) : next.distance < s.distance := by
  cases hpc : s.pc with
  | start =>
    simp only [proceed, hpc] at hstep
    split at hstep
    · cases hstep
      exact goes_nearer (by simp [hpc, Pc.distance])
    · cases hstep
      exact finishes_nearer rfl (.inr ⟨rfl, by simp [hpc, Pc.distance]⟩)
  | poll_shutdown =>
    simp only [proceed, hpc] at hstep
    split at hstep
    · rename_i hheld
      cases hstep
      refine goes_nearer ?_
      have htold : s.shutdown = .held := by
        cases hshutdown : s.shutdown <;> simp [hshutdown, oneshot.try_recv] at hheld ⊢
      simp [hpc, Pc.distance, htold]
    · cases hstep
      exact goes_nearer (by simp [hpc, Pc.distance])
  | poll lane =>
    cases lane with
    | critical =>
      simp only [proceed, hpc] at hstep
      cases hstep
      refine poll_nearer fun hempty => ?_
      by_cases hheld : s.shutdown = .held
      · -- an open channel that is not empty gives an event, and a closed one is empty
        have hqueue := hlooks hheld
        cases hopen : s.channel_open .critical with
        | true => exact absurd (mpsc.Channel.peek_empty (hempty hopen)) hqueue
        | false => exact absurd (hsound.closed hopen).1 hqueue
      · simp [hpc, Pc.distance, hheld]
    | advisory =>
      simp only [proceed, hpc] at hstep
      cases hstep
      exact poll_nearer fun _ => by simp [hpc, Pc.distance]
  | poll_tick =>
    simp only [proceed, hpc] at hstep
    split at hstep
    · cases hstep
      refine goes_nearer ?_
      split <;> simp [hpc, Pc.distance, Resume.distance]
    · cases hstep
      exact goes_nearer (by simp [hpc, Pc.distance])
  | drain lanes exiting =>
    cases lanes with
    | cons lane lanes =>
      simp only [proceed, hpc] at hstep
      split at hstep
      · rename_i entry hpeek
        cases hstep
        exact receives_nearer hpeek s.pc
      · cases hstep
        exact goes_nearer (by simp [hpc, Pc.distance])
    | nil =>
      cases exiting with
      | true =>
        simp only [proceed, hpc] at hstep
        cases hstep
        exact flush_and_return_nearer (.inr ⟨rfl, by simp [hpc, Pc.distance]⟩)
      | false =>
        simp only [proceed, hpc] at hstep
        cases hstep
        refine goes_nearer ?_
        split <;> simp [hpc, Pc.distance, Resume.distance]
  | adaptive =>
    simp only [proceed, hpc] at hstep
    split at hstep <;>
    · cases hstep
      exact goes_nearer (by simp [hpc, Pc.distance])
  | adaptive_advisory critical_empty =>
    simp only [proceed, hpc] at hstep
    cases hstep
    refine goes_nearer ?_
    split <;> simp [hpc, Pc.distance, Resume.distance]
  | flush resume =>
    simp only [proceed, hpc] at hstep
    split at hstep
    · cases hstep
      exact distance_lt_iff.mpr (.inr ⟨rfl, .inr ⟨rfl, by simp [hpc, Pc.distance]⟩⟩)
    · cases hstep
      exact finishes_nearer rfl (.inr ⟨rfl, by simp [hpc, Pc.distance]⟩)
  | write redacted resume =>
    simp only [proceed, hpc] at hstep
    split at hstep
    · cases hstep
      exact distance_lt_iff.mpr (.inr ⟨rfl, .inr ⟨rfl, by simp [hpc, Pc.distance]⟩⟩)
    · cases hstep
      exact resumes_nearer (by simp [hpc, Pc.distance])
  | retry redacted resume =>
    simp only [proceed, hpc] at hstep
    split at hstep <;>
    · cases hstep
      exact resumes_nearer (by simp [hpc, Pc.distance])
  | returned => simp [proceed, hpc] at hstep
  | panicked => simp [proceed, hpc] at hstep

/-- The loop never waits. -/
theorem proceed_some (p : WritePipeline) (hover : s.pc.over = false) (elapsed : Bool) :
    ∃ next, proceed p s elapsed = some next := by
  cases hpc : s.pc with
  | returned | panicked =>
    rw [hpc] at hover
    cases hover
  | poll lane => cases lane <;> exact ⟨_, by simp only [proceed, hpc]; rfl⟩
  | drain lanes exiting =>
    cases lanes with
    | nil => cases exiting <;> exact ⟨_, by simp only [proceed, hpc]; rfl⟩
    | cons lane lanes =>
      simp only [proceed, hpc]
      split <;> exact ⟨_, rfl⟩
  | adaptive_advisory critical_empty => exact ⟨_, by simp only [proceed, hpc]; rfl⟩
  | _ =>
    simp only [proceed, hpc]
    split <;> exact ⟨_, rfl⟩

section Owners

/-- What the loop's neighbours own: the shutdown sender, and of each channel the senders and the size. -/
def PipelineState.owners (s : PipelineState) : oneshot.Sender × (Lane → Bool × Nat) :=
  (s.shutdown, fun lane => ((s.channels lane).senders, (s.channels lane).capacity))

/-- An action that drops no sender and gives no signal. -/
def PipelineAction.keeps_owners : PipelineAction → Bool
  | .drop_senders _ | .shutdown | .drop_handle => false
  | _ => true

theorem owners_update {lane : Lane} {ch : mpsc.Channel Entry} (hsenders : ch.senders = (s.channels lane).senders)
    (hcapacity : ch.capacity = (s.channels lane).capacity) :
    PipelineState.owners { s with channels := Function.update s.channels lane ch } = s.owners := by
  refine Prod.ext rfl (funext fun other => ?_)
  by_cases hlane : other = lane
  · subst hlane
    simp [PipelineState.owners, hsenders, hcapacity]
  · simp [PipelineState.owners, hlane]

theorem flush_and_return_owners (s : PipelineState) : s.flush_and_return.owners = s.owners := by
  unfold PipelineState.flush_and_return
  split <;> rfl

theorem resume_at_owners (s : PipelineState) (resume : Resume) : (s.resume_at resume).owners = s.owners := by
  cases resume <;> rfl

theorem proceed_owners {elapsed : Bool} (hstep : proceed p s elapsed = some next) : next.owners = s.owners := by
  cases proceed_moves hstep with
  | receives lane entry | takes lane _ _ entry => exact @owners_update s lane (s.channels lane).taken rfl rfl
  | closes_last | drained => exact flush_and_return_owners _
  | stores | rebuffers => exact resume_at_owners _ _
  | _ => rfl

theorem pipeline_step_owners {action : PipelineAction} (hstep : pipeline_step p s action = some next)
    (hkeeps : action.keeps_owners = true) : next.owners = s.owners := by
  cases pipeline_moves hstep with
  | proceeds elapsed next hproceed => exact proceed_owners hproceed
  | sends index label ch hlabel hsend =>
    obtain ⟨_, _, hsenders, _⟩ := mpsc.Channel.try_send_ok hsend
    exact owners_update hsenders (mpsc.Channel.try_send_capacity hsend)
  | tries event ch hsenders hsend =>
    obtain ⟨_, _, hsame, _⟩ := mpsc.Channel.try_send_ok hsend
    exact owners_update hsame (mpsc.Channel.try_send_capacity hsend)
  | writes | gives_up | abandons | drops => rfl
  | closes => cases hkeeps
  | signals action shutdown haction => rcases haction with rfl | rfl <;> cases hkeeps

/-- The size of a channel stays. -/
theorem pipeline_step_capacity {action : PipelineAction} (hstep : pipeline_step p s action = some next) (lane : Lane) :
    (next.channels lane).capacity = (s.channels lane).capacity := by
  by_cases hkeeps : action.keeps_owners = true
  · exact congrArg Prod.snd (congrFun (congrArg Prod.snd (pipeline_step_owners hstep hkeeps)) lane)
  · cases pipeline_moves hstep with
    | closes other =>
      by_cases hlane : lane = other
      · subst hlane
        simp [mpsc.Channel.close_senders]
      · simp [hlane]
    | signals => rfl
    | _ => exact absurd rfl hkeeps

/-- A shutdown sender is used once. -/
theorem signalled_step {action : PipelineAction} (hstep : pipeline_step p s action = some next) (h : s.shutdown ≠ .held) :
    next.shutdown ≠ .held := by
  cases pipeline_moves hstep with
  | proceeds elapsed next hproceed =>
    have hsame : next.shutdown = s.shutdown := congrArg Prod.fst (proceed_owners hproceed)
    rwa [hsame]
  | signals action shutdown haction hshutdown => exact hshutdown
  | _ => exact h

theorem shutdown_signals (hstep : pipeline_step p s .shutdown = some next) : next.shutdown ≠ .held := by
  generalize haction : PipelineAction.shutdown = action at hstep
  cases pipeline_moves hstep with
  | signals action shutdown _ hshutdown => exact hshutdown
  | _ => cases haction

theorem drop_handle_signals (hstep : pipeline_step p s .drop_handle = some next) :
    s.shutdown = .held ∧ next.shutdown ≠ .held := by
  obtain ⟨shutdown, hdrop, rfl⟩ := Option.map_eq_some_iff.mp hstep
  cases hheld : s.shutdown with
  | held =>
    rw [hheld] at hdrop
    cases hdrop
    exact ⟨rfl, fun heq => by cases heq⟩
  | _ =>
    rw [hheld] at hdrop
    cases hdrop

end Owners

/-- With room in the channel a `write` that waits returns. -/
theorem Sound.send_first (h : Sound p s) (hroom : s.has_room = true) (hwaiting : s.waiting ≠ []) :
    ∃ next, pipeline_step p s (.send 0) = some next := by
  obtain ⟨⟨number, event⟩, rest, hlabels⟩ := List.exists_cons_of_ne_nil hwaiting
  have hsend : ∃ sent, s.send 0 = some sent := by
    unfold PipelineState.send
    simp only [hlabels, List.getElem?_cons_zero]
    obtain ⟨ch, _, haccept⟩ | ⟨_, haccept⟩ | ⟨hfull, haccept⟩ :=
      accept_cases { s with waiting := (((number, event) :: rest).eraseIdx 0) } .critical number event
    · rw [haccept]
      exact ⟨_, rfl⟩
    · rw [haccept]
      exact ⟨_, rfl⟩
    · -- a full channel has room only in that its receiver is gone
      simp only at hfull
      have hover : s.pc.over = true := by
        simp only [PipelineState.has_room, Bool.or_eq_true, decide_eq_true_eq] at hroom
        exact hroom.resolve_right (Nat.not_lt.mpr hfull)
      have hclosed := ((h.ended hover).2 .critical).2
      unfold PipelineState.accept mpsc.Channel.try_send
      simp only [hclosed, ↓reduceIte]
      exact ⟨_, rfl⟩
  obtain ⟨sent, hsend⟩ := hsend
  exact ⟨sent.1, by rw [pipeline_step, hsend]; rfl⟩

/-- Room stays until it is used. -/
theorem proceed_has_room {elapsed : Bool} (hstep : proceed p s elapsed = some next) (hroom : s.has_room = true) :
    next.has_room = true := by
  have hover : s.pc.over = false := by
    cases hpc : s.pc <;> first | rfl | simp [proceed, hpc] at hstep
  have hfree : (s.channels .critical).queue.length < (s.channels .critical).capacity := by
    simpa [PipelineState.has_room, hover] using hroom
  have hkeeps : ∀ after : PipelineState, after.channels = s.channels ∨ after.pc.over = true → after.has_room = true := by
    rintro after (hsame | hover)
    · simp [PipelineState.has_room, hsame, hfree]
    · simp [PipelineState.has_room, hover]
  have hreceives : ∀ lane entry pc, PipelineState.has_room { s.receive lane entry with pc } = true := by
    intro lane entry pc
    cases lane with
    | critical =>
      have hless := (List.length_tail (l := (s.channels .critical).queue)).le
      simp only [PipelineState.has_room, PipelineState.receive, Function.update_self, mpsc.Channel.taken, Bool.or_eq_true,
        decide_eq_true_eq]
      exact .inr (by omega)
    | advisory => simp [PipelineState.has_room, PipelineState.receive, hfree]
  cases proceed_moves hstep with
  | receives lane entry => exact hreceives lane entry _
  | takes lane _ _ entry => exact hreceives lane entry s.pc
  | closes_last | drained => exact hkeeps _ (flush_and_return_channels _)
  | stores | rebuffers => exact hkeeps _ (resume_at_channels _ _)
  | panics => exact hkeeps _ (.inr rfl)
  | _ => exact hkeeps _ (.inl rfl)

section Unfed

/-- Where the loop is while it finds nothing. -/
def Pc.polls : Pc → Bool
  | .start | .poll_shutdown | .poll _ | .poll_tick | .adaptive => true
  | _ => false

/-- A pipeline that no event has entered. -/
structure Unfed (s : PipelineState) : Prop where
  held : s.shutdown = .held
  channels : ∀ lane, (s.channels lane).queue = [] ∧ (s.channels lane).senders = true ∧ (s.channels lane).receiver = true
  batch : s.batch = []
  polls : s.pc.polls = true

theorem spawn_unfed (p : WritePipeline) : Unfed (spawn p) := ⟨rfl, fun _ => ⟨rfl, rfl, rfl⟩, rfl, rfl⟩

theorem Unfed.poll_channel (h : Unfed s) (lane : Lane) (skipped : Pc) : s.poll_channel lane skipped = { s with pc := skipped } := by
  have hpeek : (s.channels lane).peek = .empty := by
    obtain ⟨hqueue, hsenders, _⟩ := h.channels lane
    simp [mpsc.Channel.peek, hqueue, hsenders]
  unfold PipelineState.poll_channel
  rw [hpeek]
  split <;> rfl

/-- Its loop goes on polling if it can start. -/
theorem Unfed.proceed (h : Unfed s) (hstarts : p.config.starts = true) {elapsed : Bool}
    (hstep : proceed p s elapsed = some next) : Unfed next := by
  have hgoes : ∀ pc : Pc, pc.polls = true → write_pipeline.proceed p s elapsed = some { s with pc } → Unfed next := by
    intro pc hpc hnext
    rw [hnext] at hstep
    cases hstep
    exact ⟨h.held, h.channels, h.batch, hpc⟩
  have hpolls := h.polls
  cases hpc : s.pc with
  | start => exact hgoes .poll_shutdown rfl (by simp [write_pipeline.proceed, hpc, hstarts])
  | poll_shutdown =>
    refine hgoes (.poll .critical) rfl ?_
    simp [write_pipeline.proceed, hpc, h.held, oneshot.try_recv]
  | poll lane =>
    cases lane with
    | critical => exact hgoes (.poll .advisory) rfl (by simp [write_pipeline.proceed, hpc, h.poll_channel])
    | advisory => exact hgoes .poll_tick rfl (by simp [write_pipeline.proceed, hpc, h.poll_channel])
  | poll_tick =>
    cases elapsed with
    | true => exact hgoes .adaptive rfl (by simp [write_pipeline.proceed, hpc, h.batch])
    | false => exact hgoes .poll_shutdown rfl (by simp [write_pipeline.proceed, hpc])
  | adaptive => exact hgoes .poll_shutdown rfl (by simp [write_pipeline.proceed, hpc, h.batch])
  | _ =>
    rw [hpc] at hpolls
    cases hpolls

end Unfed

end flow_engine.write_pipeline
