import FlowEngine.Pipeline.Reach

namespace flow_engine.write_pipeline

/-- There is one producer: it makes no call while it waits in `write`. -/
def OneProducer (s : PipelineState) : PipelineAction → Prop
  | .write _ | .try_write _ => s.waiting = []
  | _ => True

instance (s : PipelineState) : (action : PipelineAction) → Decidable (OneProducer s action)
  | .write _ | .try_write _ => inferInstanceAs (Decidable (s.waiting = []))
  | .send _ | .abandon _ | .drop_senders _ | .shutdown | .drop_handle | .proceed _ => inferInstanceAs (Decidable True)

/-- The channel that the loop looks into in its next step. -/
def PipelineState.reading (s : PipelineState) : Option Lane :=
  match s.pc with
  | .poll lane => if s.channel_open lane then some lane else none
  | .drain (lane :: _) _ => some lane
  | _ => none

/-- If the step of the loop takes an event, the other channel holds none with a smaller number. -/
def TakesInOrder (s : PipelineState) : PipelineAction → Prop
  | .proceed _ =>
    match s.reading with
    | some lane => ∀ entry ∈ (s.channels lane).queue.head?, ∀ other ∈ (s.channels lane.other).queue,
        entry.source.number < other.source.number
    | none => True
  | _ => True

instance (s : PipelineState) : (action : PipelineAction) → Decidable (TakesInOrder s action)
  | .proceed _ =>
    match h : s.reading with
    | some lane =>
      decidable_of_iff (∀ entry ∈ (s.channels lane).queue.head?, ∀ other ∈ (s.channels lane.other).queue,
        entry.source.number < other.source.number) (by rw [TakesInOrder, h])
    | none => .isTrue (by rw [TakesInOrder, h]; trivial)
  | .write _ | .try_write _ | .send _ | .abandon _ | .drop_senders _ | .shutdown | .drop_handle => inferInstanceAs (Decidable True)

/-- The events that the loop has taken, in order. -/
def PipelineState.taken (s : PipelineState) : List Source := (s.stored ++ s.pc.flushing ++ s.batch).map Entry.source

/-- The events in a channel, in order. -/
def PipelineState.queued (s : PipelineState) (lane : Lane) : List Source := (s.channels lane).queue.map Entry.source

/-- The event was taken or is in a channel. -/
def PipelineState.holds (s : PipelineState) (source : Source) : Prop := source ∈ s.taken ∨ ∃ lane, source ∈ s.queued lane

/-- What was taken is in order, what is in a channel is in order and comes after it, and what
waits comes last. -/
structure InLine (s : PipelineState) : Prop where
  taken : s.taken.Pairwise fun first second => first.number < second.number
  queued : ∀ lane, (s.queued lane).Pairwise fun first second => first.number < second.number
  behind : ∀ lane, ∀ first ∈ s.taken, ∀ second ∈ s.queued lane, first.number < second.number
  numbered : ∀ source, s.holds source → source.number < s.next_seq ∧ source.event.seq = source.number % 2 ^ 64
  last : ∀ source, s.holds source → ∀ label ∈ s.waiting, source.number < label.1
  waiting : s.waiting.length ≤ 1 ∧ ∀ label ∈ s.waiting, label.1 < s.next_seq ∧ label.2.seq = label.1 % 2 ^ 64

variable {p : WritePipeline} {s next : PipelineState}

theorem spawn_in_line (p : WritePipeline) : InLine (spawn p) := by
  constructor <;> simp [spawn, PipelineState.holds, PipelineState.taken, PipelineState.queued, Pc.flushing]

/-- A change that concerns neither what was taken nor the channels' queues. -/
theorem InLine.same (h : InLine s) (htaken : next.taken = s.taken) (hqueued : ∀ lane, next.queued lane = s.queued lane)
    (hwriters : next.next_seq = s.next_seq ∧ next.waiting = s.waiting) : InLine next := by
  obtain ⟨hseq, hwaiting⟩ := hwriters
  constructor
  · rw [htaken]
    exact h.taken
  · intro lane
    rw [hqueued]
    exact h.queued lane
  · intro lane
    rw [htaken, hqueued]
    exact h.behind lane
  · simp only [PipelineState.holds, htaken, hqueued, hseq]
    exact h.numbered
  · simp only [PipelineState.holds, htaken, hqueued, hwaiting]
    exact h.last
  · rw [hseq, hwaiting]
    exact h.waiting

/-- Where the channels are dropped, what was taken is kept or in part lost. -/
theorem InLine.finish (h : InLine s) (htaken : next.taken.Sublist s.taken) (hqueued : ∀ lane, next.queued lane = [])
    (hwriters : next.next_seq = s.next_seq ∧ next.waiting = s.waiting) : InLine next := by
  obtain ⟨hseq, hwaiting⟩ := hwriters
  have hin : ∀ source, next.holds source → source ∈ s.taken := by
    rintro source (hmem | ⟨lane, hmem⟩)
    · exact htaken.subset hmem
    · rw [hqueued] at hmem
      cases hmem
  constructor
  · exact h.taken.sublist htaken
  · intro lane
    rw [hqueued]
    exact .nil
  · intro lane first _ second hsecond
    rw [hqueued] at hsecond
    cases hsecond
  · intro source hmem
    rw [hseq]
    exact h.numbered source (.inl (hin source hmem))
  · intro source hmem
    rw [hwaiting]
    exact h.last source (.inl (hin source hmem))
  · rw [hseq, hwaiting]
    exact h.waiting

/-- The loop takes the event at the front of a channel. -/
theorem InLine.take (h : InLine s) {lane : Lane} {source : Source} (htaken : next.taken = s.taken ++ [source])
    (hqueued : s.queued lane = source :: next.queued lane) (hother : next.queued lane.other = s.queued lane.other)
    (horder : ∀ other ∈ s.queued lane.other, source.number < other.number)
    (hwriters : next.next_seq = s.next_seq ∧ next.waiting = s.waiting) : InLine next := by
  obtain ⟨hseq, hwaiting⟩ := hwriters
  have hfront : source ∈ s.queued lane := by rw [hqueued]; exact List.mem_cons_self
  have hsorted := h.queued lane
  rw [hqueued, List.pairwise_cons] at hsorted
  have hlanes : ∀ {P : Lane → Prop}, P lane → P lane.other → ∀ other, P other := by
    intro P hlane hother other
    cases other <;> cases lane <;> assumption
  have hsubset : ∀ other, ∀ second ∈ next.queued other, second ∈ s.queued other := by
    refine hlanes (fun second hsecond => ?_) (fun second hsecond => hother ▸ hsecond)
    rw [hqueued]
    exact List.mem_cons_of_mem _ hsecond
  have hholds : ∀ second, next.holds second → s.holds second := by
    rintro second (hmem | ⟨other, hmem⟩)
    · rw [htaken, List.mem_append, List.mem_singleton] at hmem
      cases hmem with
      | inl hold => exact .inl hold
      | inr heq => exact .inr ⟨lane, heq ▸ hfront⟩
    · exact .inr ⟨other, hsubset other second hmem⟩
  constructor
  · rw [htaken, List.pairwise_append]
    refine ⟨h.taken, List.pairwise_singleton _ _, fun first hfirst second hsecond => ?_⟩
    rw [List.mem_singleton.mp hsecond]
    exact h.behind lane first hfirst source hfront
  · refine hlanes hsorted.2 ?_
    rw [hother]
    exact h.queued _
  · intro other first hfirst second hsecond
    rw [htaken, List.mem_append, List.mem_singleton] at hfirst
    cases hfirst with
    | inl hold => exact h.behind other first hold second (hsubset other second hsecond)
    | inr heq =>
      subst heq
      revert other
      refine hlanes (fun hsecond => hsorted.1 second hsecond) fun hsecond => ?_
      exact horder second (hother ▸ hsecond)
  · intro second hsecond
    rw [hseq]
    exact h.numbered second (hholds second hsecond)
  · intro second hsecond
    rw [hwaiting]
    exact h.last second (hholds second hsecond)
  · rw [hseq, hwaiting]
    exact h.waiting

/-- A channel takes an event that comes after all others. -/
theorem InLine.enter (h : InLine s) {lane : Lane} {source : Source} (haccepts : Accepts s next lane source)
    (hafter : ∀ other, s.holds other → other.number < source.number)
    (hnumbered : source.number < next.next_seq ∧ source.event.seq = source.number % 2 ^ 64)
    (hseq : s.next_seq ≤ next.next_seq) (hwaiting : next.waiting = []) : InLine next := by
  obtain ⟨hpc, hstored, hbatch, _⟩ := haccepts.loop
  have htaken : next.taken = s.taken := by
    rw [PipelineState.taken, PipelineState.taken, hpc, hstored, hbatch]
  have hqueue : next.queued lane = s.queued lane ++ [source] := by
    rw [PipelineState.queued, haccepts.queue, List.map_append]
    rfl
  have hothers : ∀ other, other ≠ lane → next.queued other = s.queued other := by
    intro other hother
    rw [PipelineState.queued, haccepts.others other hother, PipelineState.queued]
  have hmem : ∀ other, ∀ second ∈ next.queued other, second ∈ s.queued other ∨ second = source := by
    intro other second hsecond
    by_cases hlane : other = lane
    · rw [hlane, hqueue, List.mem_append, List.mem_singleton] at hsecond
      exact hlane ▸ hsecond
    · exact .inl (hothers other hlane ▸ hsecond)
  constructor
  · rw [htaken]
    exact h.taken
  · intro other
    by_cases hlane : other = lane
    · rw [hlane, hqueue, List.pairwise_append]
      refine ⟨h.queued lane, List.pairwise_singleton _ _, fun first hfirst second hsecond => ?_⟩
      rw [List.mem_singleton.mp hsecond]
      exact hafter first (.inr ⟨lane, hfirst⟩)
    · rw [hothers other hlane]
      exact h.queued other
  · intro other first hfirst second hsecond
    rw [htaken] at hfirst
    cases hmem other second hsecond with
    | inl hold => exact h.behind other first hfirst second hold
    | inr hnew => exact hnew ▸ hafter first (.inl hfirst)
  · have hold : ∀ second, s.holds second → second.number < next.next_seq ∧ second.event.seq = second.number % 2 ^ 64 := by
      intro second hsecond
      obtain ⟨hlt, hlabel⟩ := h.numbered second hsecond
      exact ⟨by omega, hlabel⟩
    rintro second (hsecond | ⟨other, hsecond⟩)
    · exact hold second (.inl (htaken ▸ hsecond))
    · cases hmem other second hsecond with
      | inl hin => exact hold second (.inr ⟨other, hin⟩)
      | inr hnew => exact hnew ▸ hnumbered
  · intro second _ label hlabel
    rw [hwaiting] at hlabel
    cases hlabel
  · rw [hwaiting]
    exact ⟨Nat.zero_le _, fun label hlabel => by cases hlabel⟩

/-- The writers' side of a pipeline changes. -/
theorem InLine.wait (h : InLine s) {next_seq : Nat} {waiting : List (Nat × WriteEvent)} (hseq : s.next_seq ≤ next_seq)
    (hone : waiting.length ≤ 1)
    (hwaiting : ∀ label ∈ waiting, label ∈ s.waiting ∨
      label.1 = s.next_seq ∧ s.next_seq < next_seq ∧ label.2.seq = label.1 % 2 ^ 64) :
    InLine { s with next_seq, waiting } := by
  refine ⟨h.taken, h.queued, h.behind, fun source hsource => ?_, fun source hsource label hlabel => ?_, hone, fun label hlabel => ?_⟩
  · obtain ⟨hlt, hseq'⟩ := h.numbered source hsource
    exact ⟨lt_of_lt_of_le hlt hseq, hseq'⟩
  · cases hwaiting label hlabel with
    | inl hold => exact h.last source hsource label hold
    | inr hnew => exact hnew.1 ▸ (h.numbered source hsource).1
  · cases hwaiting label hlabel with
    | inl hold =>
      obtain ⟨hlt, hseq'⟩ := h.waiting.2 label hold
      exact ⟨lt_of_lt_of_le hlt hseq, hseq'⟩
    | inr hnew => exact ⟨hnew.1 ▸ hnew.2.1, hnew.2.2⟩

theorem flush_and_return_channels (s : PipelineState) :
    s.flush_and_return.channels = s.channels ∨ s.flush_and_return.pc.over = true := by
  unfold PipelineState.flush_and_return
  split
  · exact .inr rfl
  · exact .inl rfl

theorem resume_at_channels (s : PipelineState) (resume : Resume) :
    (s.resume_at resume).channels = s.channels ∨ (s.resume_at resume).pc.over = true := by
  cases resume with
  | exit => exact .inr rfl
  | _ => exact .inl rfl

theorem receive_channels (s : PipelineState) {lane other : Lane} (entry : Entry) (hother : other ≠ lane) :
    (s.receive lane entry).channels other = s.channels other := Function.update_of_ne hother _ _

/-- A step of the loop leaves the channels it does not look into, unless it is the last. -/
theorem proceed_channels {elapsed : Bool} (hproceed : proceed p s elapsed = some next) {lane : Lane}
    (hreading : s.reading ≠ some lane) : next.channels lane = s.channels lane ∨ next.pc.over = true := by
  cases proceed_moves hproceed with
  | receives other entry hpc hopen hpeek =>
    refine .inl (receive_channels s entry ?_)
    rintro rfl
    exact hreading (by simp only [PipelineState.reading, hpc, hopen, if_true])
  | takes other lanes exiting entry hpc hpeek =>
    refine .inl (receive_channels s entry ?_)
    rintro rfl
    exact hreading (by simp only [PipelineState.reading, hpc])
  | closes_last | drained => exact (flush_and_return_channels _).imp_left fun hsame => by rw [hsame]
  | stores | rebuffers => exact (resume_at_channels _ _).imp_left fun hsame => by rw [hsame]
  | panics => exact .inr rfl
  | _ => exact .inl rfl

/-- The loop takes from the channel it looks into. -/
theorem reading_of_takes {elapsed : Bool} (hproceed : proceed p s elapsed = some next)
    {lane : Lane} {entry : Entry} {pc : Pc} (hnext : next = { s.receive lane entry with pc })
    (hidle : pc.idle = true) (hpeek : (s.channels lane).peek = .message entry) : s.reading = some lane := by
  by_contra hreading
  subst hnext
  obtain hsame | hover := proceed_channels hproceed hreading
  · have htaken : (s.channels lane).queue.tail = (s.channels lane).queue := by
      have hqueue := congrArg mpsc.Channel.queue hsame
      simpa [PipelineState.receive] using hqueue
    have hlength := congrArg List.length htaken
    rw [mpsc.Channel.peek_message hpeek, List.length_tail, List.length_cons] at hlength
    omega
  · simp only at hover
    simp [Pc.idle, hover] at hidle

/-- A step of the loop that takes in order. -/
theorem LoopStep.in_line (h : LoopStep p s next) (hsound : Sound p s) (hline : InLine s) {elapsed : Bool}
    (hproceed : proceed p s elapsed = some next) (horder : TakesInOrder s (.proceed elapsed)) : InLine next := by
  have hwriters := proceed_writers hproceed
  simp only [PipelineState.writers, Prod.mk.injEq] at hwriters
  have hsame : next.next_seq = s.next_seq ∧ next.waiting = s.waiting := ⟨hwriters.1, hwriters.2.1⟩
  cases h with
  | goes pc channel_open hnext hidle hdone hopen =>
    subst hnext
    refine hline.same ?_ (fun _ => rfl) hsame
    simp only [PipelineState.taken, Pc.idle_flushing hidle.1, Pc.idle_flushing hidle.2]
  | takes lane entry pc hnext hidle hpeek hreads hdone =>
    have hreading := reading_of_takes hproceed hnext hidle.2 hpeek
    subst hnext
    have hqueue := mpsc.Channel.peek_message hpeek
    refine @InLine.take s _ hline lane entry.source ?_ ?_ ?_ ?_ hsame
    · simp only [PipelineState.taken, PipelineState.receive, Pc.idle_flushing hidle.1, Pc.idle_flushing hidle.2,
        List.append_nil, List.map_append, List.map_cons, List.map_nil, List.append_assoc]
    · simp only [PipelineState.queued, PipelineState.receive, Function.update_self, mpsc.Channel.taken_queue]
      rw [hqueue]
      rfl
    · have hother : lane.other ≠ lane := by cases lane <;> decide
      simp only [PipelineState.queued, PipelineState.receive, Function.update_of_ne hother]
    · intro other hmem
      obtain ⟨second, hsecond, rfl⟩ := List.mem_map.mp hmem
      simp only [TakesInOrder, hreading, hqueue, List.head?_cons, Option.mem_def, Option.some.injEq] at horder
      exact horder entry rfl second hsecond
  | redacts redacted resume hpc hredact hnext =>
    have hsources := (redact_batch hredact hsound.conserved.batch).1
    subst hnext
    refine hline.same ?_ (fun _ => rfl) hsame
    simp only [PipelineState.taken, hpc, Pc.flushing, List.append_nil, List.map_append, hsources]
  | stores pc hwriting hidle hdone hnext =>
    subst hnext
    refine hline.same ?_ (fun _ => rfl) hsame
    simp only [PipelineState.taken, Pc.idle_flushing hidle, List.append_nil]
  | ends before hnext hbatch hsame' hopen hheld hdone hleaving =>
    refine hline.finish ?_ ?_ hsame
    · have htaken : next.taken = s.taken := by
        subst hnext
        simp only [PipelineState.taken, PipelineState.finish, Pc.flushing, List.append_nil, hheld]
      rw [htaken]
    · intro lane
      subst hnext
      rfl
  | panics hnext =>
    refine hline.finish ?_ ?_ hsame
    · subst hnext
      simp only [PipelineState.taken, PipelineState.finish, Pc.flushing, List.append_nil, List.append_assoc, List.map_append]
      exact List.sublist_append_left _ _
    · intro lane
      subst hnext
      rfl

/-- The call that waits sends its event. -/
theorem InLine.send (h : InLine s) {index : Nat} {label : Nat × WriteEvent} (hlabel : s.waiting[index]? = some label)
    {ch : mpsc.Channel Entry} (hsend : (s.channels .critical).try_send ⟨s.waiting_source label, label.2⟩ = .ok ch) :
    InLine { s with
      waiting := s.waiting.eraseIdx index
      channels := Function.update s.channels .critical ch
      accepted := s.accepted ++ [s.waiting_source label] } := by
  have hmem := List.mem_of_getElem? hlabel
  have hone : s.waiting.eraseIdx index = [] := by
    have hlength := h.waiting.1
    obtain ⟨hindex, _⟩ := List.getElem?_eq_some_iff.mp hlabel
    refine List.eq_nil_of_length_eq_zero ?_
    rw [List.length_eraseIdx_of_lt hindex]
    omega
  have haccepts := @accepts_of_send s (s.waiting_source label) ch s.next_seq (s.waiting.eraseIdx index) hsend
  exact h.enter haccepts (fun other hother => h.last other hother label hmem) (h.waiting.2 label hmem) (le_refl _) hone

/-- It gives up. -/
theorem InLine.erase (h : InLine s) (index : Nat) : InLine { s with waiting := s.waiting.eraseIdx index } := by
  refine h.wait (le_refl _) ?_ fun other hother => .inl (List.mem_of_mem_eraseIdx hother)
  exact (List.length_eraseIdx_le _ _).trans h.waiting.1

/-- An action of one producer, or of the loop where it takes in order. -/
theorem InLine.step (h : InLine s) (hsound : Sound p s) (hattended : s.pc ≠ .panicked → Attended s) (hworks : p.fails s.calls = false)
    {action : PipelineAction} (hproducer : OneProducer s action) (horder : TakesInOrder s action)
    (hstep : pipeline_step p s action = some next) : InLine next := by
  cases pipeline_moves hstep with
  | proceeds elapsed next hproceed =>
    have hruns : s.pc ≠ .panicked := by
      intro hpc
      simp [proceed, hpc] at hproceed
    exact (proceed_cases (hattended hruns) hsound hworks hproceed).in_line hsound h hproceed horder
  | writes event =>
    have hidle : s.waiting = [] := hproducer
    refine h.wait (Nat.le_succ _) (by simp [hidle]) fun label hlabel => .inr ?_
    rw [hidle, List.nil_append, List.mem_singleton] at hlabel
    subst hlabel
    exact ⟨rfl, Nat.lt_succ_self _, WriteEvent.seq_set_seq _ event⟩
  | sends index label ch hlabel hsend => exact h.send hlabel hsend
  | gives_up index | abandons index => exact h.erase index
  | tries event ch hsenders hsend =>
    have hidle : s.waiting = [] := hproducer
    have haccepts := @accepts_of_send s (s.tried_source event) ch (s.next_seq + 1) s.waiting hsend
    exact h.enter haccepts (fun other hother => (h.numbered other hother).1)
      ⟨Nat.lt_succ_self _, WriteEvent.seq_set_seq _ event⟩ (Nat.le_succ _) hidle
  | drops event => exact h.wait (Nat.le_succ _) h.waiting.1 fun label hlabel => .inl hlabel
  | closes lane =>
    refine h.same rfl (fun other => ?_) ⟨rfl, rfl⟩
    by_cases hlane : other = lane
    · subst hlane
      simp [PipelineState.queued]
    · simp [PipelineState.queued, hlane]
  | signals => exact h.same rfl (fun _ => rfl) ⟨rfl, rfl⟩

/-- The runs of a pipeline with one producer in which the loop takes from the two channels in
the order of the numbers. -/
abbrev OrderlyRun (p : WritePipeline) : List PipelineAction → PipelineState → Prop :=
  transition.Run (pipeline_step p) (fun s action => OneProducer s action ∧ TakesInOrder s action) (spawn p)

theorem run_in_line (hworks : ∀ call, p.fails call = false) {actions : List PipelineAction} (hrun : OrderlyRun p actions s) :
    InLine s := by
  have hinv := hrun.invariant (P := fun _ s => InLine s ∧ Sound p s ∧ (s.pc ≠ .panicked → Attended s))
    ⟨spawn_in_line p, spawn_sound p, fun _ => spawn_attended p⟩ ?_
  · exact hinv.1
  intro _ s action next _ ⟨hline, hsound, hattended⟩ ⟨hproducer, horder⟩ hstep
  refine ⟨hline.step hsound hattended (hworks _) hproducer horder hstep, hsound.step hstep, fun hpanics => ?_⟩
  exact (hattended (panicked_step hstep hpanics)).step hsound (hworks _) hstep hpanics

/-- Where the loop takes in order, the events of one producer are stored in order. -/
theorem stored_in_order (hworks : ∀ call, p.fails call = false) {actions : List PipelineAction} (hrun : OrderlyRun p actions s)
    (hwraps : s.next_seq ≤ 2 ^ 64) : (s.stored.map fun entry => entry.event.seq).Pairwise (· < ·) := by
  have hline := run_in_line hworks hrun
  have hsound := run_sound (hrun.mono fun _ _ _ => trivial)
  have hstored : ∀ entry ∈ s.stored, entry.source ∈ s.taken :=
    fun entry hmem => List.mem_map_of_mem (List.mem_append_left _ (List.mem_append_left _ hmem))
  have hseq : ∀ entry ∈ s.stored, entry.event.seq = entry.source.number := by
    intro entry hmem
    obtain ⟨hlt, hlabel⟩ := hline.numbered _ (.inl (hstored entry hmem))
    rw [(hsound.conserved.stored entry hmem).weaken.seq, hlabel]
    exact Nat.mod_eq_of_lt (by omega)
  have hordered : s.stored.Pairwise fun first second => first.source.number < second.source.number := by
    have htaken := hline.taken
    rw [PipelineState.taken, List.append_assoc, List.map_append] at htaken
    have hfirst := (List.pairwise_append.mp htaken).1
    rwa [List.pairwise_map] at hfirst
  rw [List.pairwise_map]
  refine hordered.imp_of_mem fun hfirst hsecond hlt => ?_
  rwa [hseq _ hfirst, hseq _ hsecond]

/-- A pipeline over a store that works. -/
def working_pipeline : WritePipeline := { sample_pipeline with fails _ := false }

/-- A producer's calls: a critical event, then an advisory one, after which the loop wakes up. -/
def critical_then_advisory : List PipelineAction :=
  [.write (.Checkpoint 0 "run" "A" .null), .send 0, .try_write (.Custom 0 "run" none "note" .null)] ++
    List.replicate 9 (.proceed false)

/-- The same two calls the other way round. -/
def advisory_then_critical : List PipelineAction :=
  [.try_write (.Custom 0 "run" none "note" .null), .write (.Checkpoint 0 "run" "A" .null), .send 0] ++
    List.replicate 9 (.proceed false)

def stored_seqs (s : PipelineState) : Nat × List Nat := (s.next_seq, s.stored.map fun entry => entry.event.seq)

theorem stored_in_order_sample : ∃ s, OrderlyRun working_pipeline critical_then_advisory s ∧ stored_seqs s = (3, [1, 2]) ∧
    (s.stored.map fun entry => entry.event.seq).Pairwise (· < ·) := by
  have hdone : (critical_then_advisory.foldlM
      (fun s action => if OneProducer s action ∧ TakesInOrder s action then pipeline_step working_pipeline s action else none)
      (spawn working_pipeline)).map stored_seqs = some (3, [1, 2]) := by decide +kernel
  obtain ⟨s, hfold, hstored⟩ := Option.map_eq_some_iff.mp hdone
  have hrun : OrderlyRun working_pipeline critical_then_advisory s := transition.run_of_foldlM_checked hfold
  refine ⟨s, hrun, hstored, stored_in_order (fun _ => rfl) hrun ?_⟩
  have hnext := congrArg Prod.fst hstored
  simp only [stored_seqs] at hnext
  omega

/-- The loop wakes up when both events are there, and takes the critical one first. -/
theorem critical_event_overtakes : ∃ s,
    transition.Run (pipeline_step working_pipeline) OneProducer (spawn working_pipeline) advisory_then_critical s ∧
      s.stored.map (fun entry => entry.event.seq) = [2, 1] ∧
      ¬ (s.stored.map fun entry => entry.event.seq).Pairwise (· < ·) := by
  have hdone : (advisory_then_critical.foldlM
      (fun s action => if OneProducer s action then pipeline_step working_pipeline s action else none)
      (spawn working_pipeline)).map stored_seqs = some (3, [2, 1]) := by decide +kernel
  obtain ⟨s, hfold, hstored⟩ := Option.map_eq_some_iff.mp hdone
  have hseqs : s.stored.map (fun entry => entry.event.seq) = [2, 1] := congrArg Prod.snd hstored
  refine ⟨s, transition.run_of_foldlM_checked hfold, hseqs, ?_⟩
  rw [hseqs]
  decide

end flow_engine.write_pipeline
