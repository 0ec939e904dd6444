import FlowEngine.Executor.Tasks.Records
import FlowEngine.Executor.Dag.Once

namespace flow_engine.executor

/-- The entry was written by a task of the node, or in the iteration that starts the node. -/
def Concerns (entry : Entry) (node_id : String) : Prop :=
  match entry.writer with
  | .task task => task.node_id = node_id
  | .loop nodes => node_id ∈ nodes

/-- What the order of two entries rules out: a task that writes after a node it feeds was
concerned, and a task that has written before its node is started. -/
structure Orderly (ctx : RunContext) (earlier later : Entry) : Prop where
  seq_lt : earlier.seq < later.seq
  sources_first : ∀ edge ∈ ctx.graph.edges, Concerns earlier edge.to_node →
    ∀ task, later.writer = .task task → task.node_id ≠ edge.from_node
  started_first : ∀ task nodes, earlier.writer = .task task → later.writer = .loop nodes → task.node_id ∉ nodes

/-- The event of a start of the node. -/
def StartsNode (entry : Entry) (node_id : String) : Prop :=
  event_node entry.event = some node_id ∧ is_start entry.event = true

/-- The terminal event of a task of the node: completed, or failed without a retry. -/
def EndsNode (entry : Entry) (node_id : String) : Prop :=
  event_node entry.event = some node_id ∧ (ending entry.event).isSome = true

/-- The evaluation of the edge by which its target becomes ready: the edge is passed in the
iteration that starts the target. -/
def MakesReady (ctx : RunContext) (edge : Edge) (entry : Entry) : Prop :=
  ∃ nodes condition data, entry.writer = .loop nodes ∧ edge.to_node ∈ nodes ∧
    entry.event = .EdgeEvaluated 0 ctx.run_id edge.id condition true data

/-- The log around an edge: every task of the source has ended before the target starts, and
an evaluation that makes the target ready stands between. -/
structure CausalOrder (ctx : RunContext) (x : Live) (edge : Edge) : Prop where
  ended_before_start : ∀ start ∈ x.log, StartsNode start edge.to_node →
    ∀ task, Recorded x.loop.activations task → task.node_id = edge.from_node →
      ∃ entry ∈ x.log, entry.writer = .task task ∧ EndsNode entry edge.from_node ∧ entry.seq < start.seq
  ends_before_start : ∀ entry ∈ x.log, EndsNode entry edge.from_node →
    ∀ start ∈ x.log, StartsNode start edge.to_node → entry.seq < start.seq
  ended_before_ready : ∀ ready ∈ x.log, ∀ other ∈ ctx.graph.edges, other.to_node = edge.to_node →
    MakesReady ctx other ready → ∀ task, Recorded x.loop.activations task → task.node_id = edge.from_node →
      ∃ entry ∈ x.log, entry.writer = .task task ∧ EndsNode entry edge.from_node ∧ entry.seq < ready.seq
  ends_before_ready : ∀ entry ∈ x.log, EndsNode entry edge.from_node →
    ∀ ready ∈ x.log, ∀ other ∈ ctx.graph.edges, other.to_node = edge.to_node → MakesReady ctx other ready →
      entry.seq < ready.seq
  ready_before_start : ∀ ready ∈ x.log, ∀ other ∈ ctx.graph.edges, other.to_node = edge.to_node →
    MakesReady ctx other ready → ∀ start ∈ x.log, StartsNode start edge.to_node → ready.seq < start.seq

/-- Two members of a pairwise related list are equal or related one way. -/
theorem related_of_pairwise {α : Type*} {R : α → α → Prop} {l : List α} (h : l.Pairwise R) {a b : α} (ha : a ∈ l)
    (hb : b ∈ l) : a = b ∨ R a b ∨ R b a := by
  induction h with
  | nil => cases ha
  | cons hhead _ ih =>
    cases List.mem_cons.mp ha with
    | inl heq =>
      cases List.mem_cons.mp hb with
      | inl heq' => exact Or.inl (heq.trans heq'.symm)
      | inr hb => exact Or.inr (Or.inl (heq ▸ hhead b hb))
    | inr ha =>
      cases List.mem_cons.mp hb with
      | inl heq' => exact Or.inr (Or.inr (heq' ▸ hhead a ha))
      | inr hb => exact ih ha hb

section Loop

variable {ctx : RunContext} (haccepted : Accepted ctx) (hacyclic : digraph.Acyclic (GraphEdge ctx.graph))
  (hparallel : NoParallelEdges ctx.graph) {may : Task → NodeOutcome → Prop}
  (hsmall : ∀ task outputs, may task (.Success outputs) → SmallArrays ctx task.node_id outputs)
  {cs : List Completion} {s : RunState} (hrun : RunOf ctx may cs s)
include haccepted hacyclic hparallel hsmall hrun

/-- When a node has been started no task of its sources is in flight. -/
theorem no_source_in_flight {edge : Edge} (hedge : edge ∈ ctx.graph.edges) (hstarted : edge.to_node ∈ started s)
    {task : Task} (htask : task ∈ s.running) : task.node_id ≠ edge.from_node := by
  intro hnode
  obtain ⟨⟨order, hrefines⟩, hphases⟩ := run_refines_short haccepted hacyclic hparallel hsmall hrun
  have honce := hrefines.once_and_never_early hacyclic
  have hbooks := ExactBooks.of_phases hphases (run_fanIn haccepted hsmall hrun) (run_instanceCount haccepted hsmall hrun)
    (run_ledger haccepted hrun)
  obtain ⟨activation, hmem, hto⟩ := List.mem_map.mp hstarted
  have hover := honce.sources_over activation hmem edge hedge hto.symm
  rw [← hnode] at hover
  have hnot : task.node_id ∉ s.completed ∧ task.node_id ∉ s.failed := by
    cases hindex : task.fan_out_index with
    | none => exact honce.running_not_over _ (hphases.running_of_plain_task htask hindex)
    | some index =>
      refine honce.fanning_not_over _ ((hbooks.fanning_iff _).mpr ⟨task, htask, ?_⟩)
      simp [is_instance_of, hindex]
  exact hover.elim hnot.1 hnot.2

theorem started_nodup : (started s).Nodup := by
  obtain ⟨⟨order, hrefines⟩, _⟩ := run_refines_short haccepted hacyclic hparallel hsmall hrun
  exact (hrefines.once_and_never_early hacyclic).once

end Loop

section Live

variable {ctx : RunContext} {behave : Task → Behaviour} {x : Live}

/-- The outputs of the joined tasks hold short arrays. -/
def ShortJoins (ctx : RunContext) (x : Live) : Prop :=
  ∀ j ∈ x.joins, ∀ outputs records, j.2 = .returned (.Success outputs) records → SmallArrays ctx j.1.node_id outputs

theorem ShortJoins.small (h : ShortJoins ctx x) (task : Task) (outputs : Value)
    (hjoined : Joined x.joins task (.Success outputs)) : SmallArrays ctx task.node_id outputs := by
  obtain ⟨records, hmem⟩ := hjoined
  exact h _ hmem outputs records rfl

theorem Transcribed.event_mem_script (h : Transcribed ctx behave x) {entry : Entry} (hentry : entry ∈ x.log)
    {task : Task} (hwriter : entry.writer = .task task) : entry.event ∈ (script ctx behave task).1 := by
  have hmem : entry.event ∈ (x.log.filter (by_task task.id)).map Entry.event := by
    refine List.mem_map_of_mem (List.mem_filter.mpr ⟨hentry, ?_⟩)
    simp [by_task, hwriter]
  rw [h.own task (h.writers entry hentry task hwriter)] at hmem
  exact List.mem_of_mem_take hmem

/-- A joined task has written its whole script. -/
theorem Transcribed.script_logged (h : Transcribed ctx behave x) {j : Task × JoinResult} (hj : j ∈ x.joins)
    {event : WriteEvent} (hevent : event ∈ (script ctx behave j.1).1) :
    ∃ entry ∈ x.log, entry.writer = .task j.1 ∧ entry.event = event := by
  obtain ⟨hrecorded, hlength⟩ := h.finished j hj
  have hwhole := h.own j.1 hrecorded
  rw [hlength, List.take_length] at hwhole
  rw [← hwhole] at hevent
  obtain ⟨entry, hentry, rfl⟩ := List.mem_map.mp hevent
  obtain ⟨hlog, hby⟩ := List.mem_filter.mp hentry
  unfold by_task at hby
  split at hby
  · rename_i task hwriter
    cases (h.writers entry hlog task hwriter).unique hrecorded (of_decide_eq_true hby)
    exact ⟨entry, hlog, hwriter, rfl⟩
  · cases hby

/-- A joined task has written its terminal event. -/
theorem Transcribed.ended_of_joined (h : Transcribed ctx behave x) (hpanic : ∀ task, (behave task).NoPanic) {task : Task}
    (hrecorded : Recorded x.loop.activations task) (hjoined : ∃ j ∈ x.joins, j.1.id = task.id) :
    ∃ entry ∈ x.log, entry.writer = .task task ∧ EndsNode entry task.node_id := by
  obtain ⟨j, hj, hid⟩ := hjoined
  cases (h.finished j hj).1.unique hrecorded hid
  obtain ⟨outcome, _, _, hending⟩ := @script_ending ctx behave j.1 (hpanic j.1)
  have hmem : outcome_ending outcome ∈ (script ctx behave j.1).1.filterMap ending := by
    rw [hending]
    exact List.mem_singleton_self _
  obtain ⟨event, hevent, hends⟩ := List.mem_filterMap.mp hmem
  obtain ⟨entry, hlog, hwriter, rfl⟩ := h.script_logged hj hevent
  exact ⟨entry, hlog, hwriter, script_node hevent, by rw [hends]; rfl⟩

/-- What is said about a node is written by its tasks. -/
theorem Transcribed.writer_of_node (h : Transcribed ctx behave x) {entry : Entry} (hentry : entry ∈ x.log)
    {node_id : String} (hnode : event_node entry.event = some node_id) :
    ∃ task, entry.writer = .task task ∧ task.node_id = node_id := by
  cases hwriter : entry.writer with
  | task task =>
    rw [script_node (h.event_mem_script hentry hwriter)] at hnode
    exact ⟨task, rfl, Option.some.inj hnode⟩
  | loop nodes =>
    rw [(h.loops entry hentry nodes hwriter).1] at hnode
    cases hnode

/-- The tasks started are started in the state ahead as well. -/
theorem InStep.activations_ahead (h : InStep ctx behave x) :
    ∃ more, x.ahead.activations = x.loop.activations ++ more := by
  obtain ⟨cs, hloop⟩ := h.loop_run
  unfold Live.ahead
  cases hiteration : x.iteration with
  | none => exact ⟨[], (List.append_nil _).symm⟩
  | some iteration =>
    obtain ⟨_, _, _, _, _, hstep⟩ := h.within iteration hiteration
    exact next_state_activations (run_countsBounded hloop) hstep

/-- A node that an entry concerns has been started in the state ahead. -/
theorem Transcribed.concerns_started (h : Transcribed ctx behave x) (hin_step : InStep ctx behave x) {entry : Entry}
    (hentry : entry ∈ x.log) {node_id : String} (hconcerns : Concerns entry node_id) : node_id ∈ started x.ahead := by
  unfold Concerns at hconcerns
  split at hconcerns
  · rename_i task hwriter
    obtain ⟨more, hmore⟩ := hin_step.activations_ahead
    rw [started, hmore, List.map_append, ← hconcerns]
    exact List.mem_append_left _ (mem_started_of_recorded (h.writers entry hentry task hwriter))
  · rename_i nodes hwriter
    exact (h.loops entry hentry nodes hwriter).2 node_id hconcerns

/-- A task that was started is in flight or has been joined. -/
theorem InStep.in_flight_or_joined (haccepted : Accepted ctx) (h : InStep ctx behave x) {task : Task}
    (hrecorded : Recorded x.loop.activations task) : task ∈ x.ahead.running ∨ ∃ j ∈ x.joins, j.1.id = task.id := by
  have hledger := run_ledger haccepted h.ahead_run
  obtain ⟨more, hmore⟩ := h.activations_ahead
  have hahead : Recorded x.ahead.activations task := hmore ▸ hrecorded.append more
  cases List.mem_append.mp (hledger.ids.mem_iff.mpr hahead.mem_task_ids) with
  | inl hrunning =>
    obtain ⟨other, hother, heq⟩ := List.mem_map.mp hrunning
    cases (hledger.recorded other hother).unique hahead heq
    exact Or.inl hother
  | inr hjoined =>
    rw [completions, List.map_map] at hjoined
    obtain ⟨j, hj, heq⟩ := List.mem_map.mp hjoined
    exact Or.inr ⟨j, hj, heq⟩

variable (haccepted : Accepted ctx) (hacyclic : digraph.Acyclic (GraphEdge ctx.graph))
  (hparallel : NoParallelEdges ctx.graph)
include haccepted hacyclic hparallel

/-- When a node has been started the tasks of its sources have been joined. -/
theorem InStep.source_joined (h : InStep ctx behave x) (hrun : RunOf ctx (Joined x.joins) (completions x.joins) x.ahead)
    (hshort : ShortJoins ctx x) {edge : Edge} (hedge : edge ∈ ctx.graph.edges) (hstarted : edge.to_node ∈ started x.ahead)
    {task : Task} (hrecorded : Recorded x.loop.activations task) (hnode : task.node_id = edge.from_node) :
    ∃ j ∈ x.joins, j.1.id = task.id := by
  refine (h.in_flight_or_joined haccepted hrecorded).resolve_left fun hrunning => ?_
  exact no_source_in_flight haccepted hacyclic hparallel hshort.small hrun hedge hstarted hrunning hnode

/-- Entries are appended in an order that respects the edges. -/
theorem run_orderly (hpanic : ∀ task, (behave task).NoPanic) {first_seq : Nat} {moves : List Move}
    (hrun : LiveRun ctx behave first_seq moves x) (hshort : ShortJoins ctx x) : x.log.Pairwise (Orderly ctx) := by
  revert hshort
  refine hrun.invariant (P := fun _ x => ShortJoins ctx x → x.log.Pairwise (Orderly ctx)) ?_ ?_
  · exact fun _ => .nil
  · intro moves x move y hreached h _ hstep hshort
    have hin_step := run_in_step hreached
    have hahead := run_ahead hpanic hreached
    have htranscribed := run_transcribed haccepted hreached
    cases live_step_cases hstep with
    | @write task event hfind hevent =>
      refine List.pairwise_append.mpr ⟨h hshort, List.pairwise_singleton _ _, ?_⟩
      intro earlier hearlier later hlater
      rw [List.mem_singleton.mp hlater]
      refine ⟨htranscribed.below earlier hearlier, ?_, ?_⟩
      swap
      · intro writer nodes hwriter hloop
        cases hloop
      intro edge hedge hconcerns writer hwriter hnode
      cases hwriter
      obtain ⟨cs, hloop⟩ := hin_step.loop_run
      have hrecorded := (run_ledger haccepted hloop).recorded task (List.mem_of_find?_eq_some hfind)
      obtain ⟨j, hj, hid⟩ := hin_step.source_joined haccepted hacyclic hparallel hahead hshort hedge
        (htranscribed.concerns_started hin_step hearlier hconcerns) hrecorded hnode
      obtain ⟨hrecorded', hlength⟩ := htranscribed.finished j hj
      cases hrecorded'.unique hrecorded hid
      rw [hlength, List.getElem?_eq_none (Nat.le_refl _)] at hevent
      cases hevent
    | join hbetween hfind hwritten hnext =>
      exact h fun j hj => hshort j (List.mem_append_left _ hj)
    | @record next event rest hwithin =>
      refine List.pairwise_append.mpr ⟨h hshort, List.pairwise_singleton _ _, ?_⟩
      intro earlier hearlier later hlater
      rw [List.mem_singleton.mp hlater]
      refine ⟨htranscribed.below earlier hearlier, ?_, ?_⟩
      · intro edge hedge hconcerns task htask
        cases htask
      intro task nodes hwriter hloop hnode
      cases hloop
      have hnodup := started_nodup haccepted hacyclic hparallel hshort.small hahead
      obtain ⟨more, hmore⟩ := hin_step.activations_ahead
      have hnext : x.ahead = next := by
        unfold Live.ahead
        rw [hwithin]
      rw [hnext] at hmore hnodup
      rw [started, hmore, List.map_append, List.nodup_append] at hnodup
      have hbefore := mem_started_of_recorded (htranscribed.writers earlier hearlier task hwriter)
      rw [starting, hmore, List.drop_left] at hnode
      exact hnodup.2.2 _ hbefore _ hnode rfl
    | spawn hwithin => exact h hshort
    | draw => exact h hshort

/-- The log respects causality: around every edge the tasks of the source have ended before
the target starts, and what makes the target ready stands between. -/
theorem log_respects_causality (hpanic : ∀ task, (behave task).NoPanic) {first_seq : Nat} {moves : List Move}
    (hrun : LiveRun ctx behave first_seq moves x) (hshort : ShortJoins ctx x) {edge : Edge}
    (hedge : edge ∈ ctx.graph.edges) : CausalOrder ctx x edge := by
  have hin_step := run_in_step hrun
  have hahead := run_ahead hpanic hrun
  have htranscribed := run_transcribed haccepted hrun
  have horderly := run_orderly haccepted hacyclic hparallel hpanic hrun hshort
  have hne : edge.from_node ≠ edge.to_node := fun heq => hacyclic edge.from_node (.single ⟨edge, hedge, rfl, heq.symm⟩)
  -- a terminal event of the source comes before every entry that concerns the target
  have hbefore : ∀ entry ∈ x.log, EndsNode entry edge.from_node → ∀ later ∈ x.log, Concerns later edge.to_node →
      entry.seq < later.seq := by
    intro entry hentry hends later hlater hconcerns
    obtain ⟨task, hwriter, hnode⟩ := htranscribed.writer_of_node hentry hends.1
    rcases related_of_pairwise horderly hentry hlater with rfl | hrelated | hrelated
    · rw [Concerns, hwriter] at hconcerns
      exact absurd (hnode.symm.trans hconcerns) hne
    · exact hrelated.seq_lt
    · exact absurd hnode (hrelated.sources_first edge hedge hconcerns task hwriter)
  -- once the target is concerned every task of the source has written its whole script
  have hended : ∀ later ∈ x.log, Concerns later edge.to_node → ∀ task, Recorded x.loop.activations task →
      task.node_id = edge.from_node → ∃ entry ∈ x.log, entry.writer = .task task ∧ EndsNode entry edge.from_node ∧
        entry.seq < later.seq := by
    intro later hlater hconcerns task hrecorded hnode
    obtain ⟨entry, hentry, hwriter, hends⟩ := htranscribed.ended_of_joined hpanic hrecorded
      (hin_step.source_joined haccepted hacyclic hparallel hahead hshort hedge
        (htranscribed.concerns_started hin_step hlater hconcerns) hrecorded hnode)
    rw [hnode] at hends
    exact ⟨entry, hentry, hwriter, hends, hbefore entry hentry hends later hlater hconcerns⟩
  have hstart : ∀ start ∈ x.log, StartsNode start edge.to_node → Concerns start edge.to_node := by
    intro start hmem hstarts
    obtain ⟨task, hwriter, hnode⟩ := htranscribed.writer_of_node hmem hstarts.1
    rw [Concerns, hwriter]
    exact hnode
  have hready : ∀ ready other, other.to_node = edge.to_node → MakesReady ctx other ready → Concerns ready edge.to_node := by
    rintro ready other hto ⟨nodes, _, _, hwriter, hnodes, _⟩
    rw [Concerns, hwriter]
    exact hto ▸ hnodes
  refine ⟨?_, ?_, ?_, ?_, ?_⟩
  · exact fun start hmem hstarts => hended start hmem (hstart start hmem hstarts)
  · exact fun entry hentry hends start hmem hstarts => hbefore entry hentry hends start hmem (hstart start hmem hstarts)
  · exact fun ready hmem other _ hto hmakes => hended ready hmem (hready ready other hto hmakes)
  · exact fun entry hentry hends ready hmem other _ hto hmakes =>
      hbefore entry hentry hends ready hmem (hready ready other hto hmakes)
  · rintro ready hmem other hother hto ⟨nodes, _, _, hloop, hnodes, hevent⟩ start hstart_mem hstarts
    obtain ⟨task, hwriter, hnode⟩ := htranscribed.writer_of_node hstart_mem hstarts.1
    rcases related_of_pairwise horderly hmem hstart_mem with rfl | hrelated | hrelated
    · rw [hloop] at hwriter
      cases hwriter
    · exact hrelated.seq_lt
    · rw [← hto] at hnode
      exact absurd (hnode ▸ hnodes) (hrelated.started_first task nodes hwriter hloop)

end Live

/-- A handler that puts out nothing at its first attempt, or fails at its node. -/
def quiet_behaviour (failing : String) (task : Task) : Behaviour where
  timeout_ms := 0
  retry := ⟨1, none⟩
  attempts _ := ⟨[], if task.node_id = failing then .error (.Fatal "broken") else .ok .null⟩

theorem quiet_behaviour_no_panic (failing : String) (task : Task) : (quiet_behaviour failing task).NoPanic := by
  intro attempt error
  unfold quiet_behaviour
  dsimp only
  split <;> simp

/-- The tasks of the fork, one after the other; the branches write in turn. -/
def fork_moves : List Move :=
  [.write ⟨0, 0⟩, .write ⟨0, 0⟩, .write ⟨0, 0⟩, .join ⟨0, 0⟩, .record, .record, .spawn, .write ⟨1, 0⟩, .write ⟨2, 0⟩,
    .write ⟨2, 0⟩, .write ⟨1, 0⟩, .draw, .join ⟨1, 0⟩, .write ⟨2, 0⟩, .spawn, .join ⟨2, 0⟩, .record, .spawn, .write ⟨3, 0⟩]

/-- The task has put out nothing. -/
def puts_out_nothing (j : Task × JoinResult) : Bool :=
  match j.2 with
  | .returned (.Success .null) _ | .returned (.Failed _) _ => true
  | _ => false

theorem short_of_puts_out_nothing {ctx : RunContext} {x : Live} (h : ∀ j ∈ x.joins, puts_out_nothing j = true) :
    ShortJoins ctx x := by
  intro j hj outputs records hresult edge _ _ items hitems
  have hnothing := h j hj
  rw [puts_out_nothing, hresult] at hnothing
  cases outputs with
  | null => cases hitems
  | _ => cases hnothing

theorem log_respects_causality_sample : ∃ x,
    LiveRun failing_fork_sample (quiet_behaviour "B") 1 fork_moves x ∧
      (∃ start ∈ x.log, StartsNode start "D") ∧
      CausalOrder failing_fork_sample x (sample_edge "cd" "C" "D" none) := by
  have hfold : (fork_moves.foldlM (live_step failing_fork_sample (quiet_behaviour "B"))
      (initial_live failing_fork_sample 1)).map (fun x => (x.joins.all puts_out_nothing,
        x.log.any fun entry => is_start entry.event && event_node entry.event == some "D")) = some (true, true) := by
    decide +kernel
  obtain ⟨x, hmoves, hread⟩ := Option.map_eq_some_iff.mp hfold
  simp only [Prod.mk.injEq, List.all_eq_true, List.any_eq_true, Bool.and_eq_true, beq_iff_eq] at hread
  obtain ⟨hnothing, start, hstart, his_start, hnode⟩ := hread
  have hrun : LiveRun failing_fork_sample (quiet_behaviour "B") 1 fork_moves x := transition.run_of_foldlM hmoves
  have hacyclic := sample_acyclic 1 (show ∀ edge ∈ failing_fork_sample.graph.edges,
    ["A", "B", "C", "D"].idxOf edge.from_node < ["A", "B", "C", "D"].idxOf edge.to_node by decide +kernel)
  have hparallel : NoParallelEdges failing_fork_sample.graph := by
    unfold NoParallelEdges
    decide +kernel
  refine ⟨x, hrun, ⟨start, hstart, hnode, his_start⟩, ?_⟩
  exact log_respects_causality (sample_accepted 1 (by decide +kernel)) hacyclic hparallel (quiet_behaviour_no_panic "B")
    hrun (short_of_puts_out_nothing hnothing) (by simp [failing_fork_sample, sample_context])

end flow_engine.executor
