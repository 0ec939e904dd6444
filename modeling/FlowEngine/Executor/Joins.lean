import FlowEngine.Executor.Bookkeeping
import FlowEngine.Executor.Ready

namespace flow_engine.executor

/-- Spawning a ready node puts it in flight. A fan-out whose truncated number of items
is zero waits for nothing. -/
def puts_in_flight (ready : ReadyNode) : Bool :=
  match ready.fan_out_items with
  | some items => decide (items.length % 2 ^ 32 ≠ 0)
  | none => true

/-- The edge is a forward edge from `source` to `target`. -/
def ForwardEdge (ctx : RunContext) (source target : String) : Prop :=
  ∃ edge ∈ ctx.graph.edges, edge.from_node = source ∧ edge.to_node = target ∧
    edge.id ∉ find_back_edges ctx.graph

/-- When the joined task completes its node and edges are evaluated, no node is spawned
while a source of one of its forward edges is in flight. -/
def JoinsWait (ctx : RunContext) (s : RunState) (c : Completion) : Prop :=
  ∀ task settled node_id outputs from_fan_in,
    s.running.find? (fun task => task.id = c.task) = some task →
    settle ctx (joined ctx s c task) (node_result task c.joined) =
      .ok (settled, some (node_id, outputs, from_fan_in)) →
    ∀ before ready after,
      (evaluate_edges_and_find_ready ctx node_id outputs settled from_fan_in).2 = before ++ ready :: after →
      ∀ source, ForwardEdge ctx source ready.node_id → in_flight (spawn_ready_nodes ctx before
        (evaluate_edges_and_find_ready ctx node_id outputs settled from_fan_in).1) source = false

/-- The edges of the completed node disturb no join: a target that has completed before
has no forward source in flight, and no edge starts a forward source of the target of
a later edge. -/
structure QuietRestarts (ctx : RunContext) (s : RunState) (node_id : String) (outputs : Value)
    (from_fan_in : Bool) : Prop where
  completed_targets : ∀ edge ∈ starting_edges ctx s node_id outputs, edge.to_node ∈ s.completed →
    ∀ source, ForwardEdge ctx source edge.to_node → in_flight s source = false
  no_source_first : (starting_edges ctx s node_id outputs).Pairwise fun first second =>
    puts_in_flight (ready_node s outputs from_fan_in first) = true →
      ¬ ForwardEdge ctx first.to_node second.to_node

/-- The condition on a step: when the joined task completes its node, the edges of that
node disturb no join. -/
def StepQuiet (ctx : RunContext) (s : RunState) (c : Completion) : Prop :=
  ∀ task settled node_id outputs from_fan_in,
    s.running.find? (fun task => task.id = c.task) = some task →
    settle ctx (joined ctx s c task) (node_result task c.joined) =
      .ok (settled, some (node_id, outputs, from_fan_in)) →
    QuietRestarts ctx settled node_id outputs from_fan_in

/-- A node whose edges are evaluated completed by its plain task or by its last
instance. -/
theorem settle_completes {ctx : RunContext} {s settled : RunState} {c : Completion} {task : Task}
    {node_id : String} {outputs : Value} {from_fan_in : Bool}
    (h : settle ctx (joined ctx s c task) (node_result task c.joined) =
      .ok (settled, some (node_id, outputs, from_fan_in))) :
    (task.fan_out_index = none ∧ settled = complete_plain (joined ctx s c task) task.node_id outputs) ∨
    ∃ index state outcome, task.fan_out_index = some index ∧ s.fan_out_states task.node_id = some state ∧
      state.completed + 1 = state.expected ∧
      settled = complete_fan_in (joined ctx s c task) task.node_id (fill_slot state index outcome) := by
  cases hjoined : c.joined with
  | panicked error =>
    rw [hjoined, settle_panic] at h
    cases h
  | returned outcome records =>
    rw [hjoined] at h
    cases hindex : task.fan_out_index with
    | none =>
      cases outcome with
      | Success outputs =>
        rw [settle_plain_success _ _ _ _ _ hindex] at h
        cases h
        exact Or.inl ⟨rfl, rfl⟩
      | Failed error =>
        rw [settle_plain_failure _ _ _ _ _ hindex] at h
        cases h
    | some index =>
      have hsame : (joined ctx s c task).fan_out_states = s.fan_out_states := rfl
      cases hstate : s.fan_out_states task.node_id with
      | none =>
        rw [settle_instance_dropped _ _ _ _ _ hindex (hsame ▸ hstate)] at h
        cases h
      | some state =>
        by_cases hbound : index < state.results.length
        · by_cases hlast : state.completed + 1 = state.expected
          · rw [settle_fan_in _ _ _ _ _ hindex (hsame ▸ hstate) hbound hlast] at h
            cases h
            exact Or.inr ⟨index, state, outcome, rfl, rfl, hlast, rfl⟩
          · rw [settle_instance_kept _ _ _ _ _ hindex (hsame ▸ hstate) hbound hlast] at h
            cases h
        · rw [settle_out_of_bounds _ _ _ _ _ hindex (hsame ▸ hstate) hbound] at h
          cases h

theorem Phases.settled {ctx : RunContext} {s settled : RunState} {c : Completion} {task : Task}
    {node_id : String} {outputs : Value} {from_fan_in : Bool} (h : Phases s)
    (hfind : s.running.find? (fun task => task.id = c.task) = some task)
    (hsettle : settle ctx (joined ctx s c task) (node_result task c.joined) =
      .ok (settled, some (node_id, outputs, from_fan_in))) :
    Phases settled ∧ settled.edge_traversal_counts = s.edge_traversal_counts := by
  rcases settle_completes hsettle with ⟨hindex, rfl⟩ | ⟨index, state, outcome, hindex, hstate, hlast, rfl⟩
  · exact ⟨h.completed_plain hfind hindex outputs, rfl⟩
  · exact ⟨h.completed_fan_in hstate hfind hindex hlast outcome, rfl⟩

/-- After idle nodes were spawned, what was in flight still is, and so are those of
them a spawn puts in flight. -/
theorem in_flight_spawn_ready_nodes {ctx : RunContext} {s : RunState} {nodes : List ReadyNode}
    (hnodup : (nodes.map ReadyNode.node_id).Nodup)
    (hidle : ∀ ready ∈ nodes, in_flight s ready.node_id = false ∧ spawnable ctx ready.node_id = true)
    (n : String) : in_flight (spawn_ready_nodes ctx nodes s) n = true ↔
      in_flight s n = true ∨ ∃ ready ∈ nodes, ready.node_id = n ∧ puts_in_flight ready = true := by
  induction nodes generalizing s with
  | nil => simp [spawn_ready_nodes]
  | cons ready rest ih =>
    rw [List.map_cons, List.nodup_cons] at hnodup
    obtain ⟨hfree, hspawnable⟩ := hidle ready (List.mem_cons_self ..)
    have hother : ∀ m, m ≠ ready.node_id → in_flight (spawn_ready_node ctx s ready) m = in_flight s m := by
      intro m hm
      obtain ⟨_, hrunning, hfan⟩ := spawn_ready_node_other ctx s ready hm
      exact in_flight_congr hfan hrunning
    have hself : in_flight (spawn_ready_node ctx s ready) ready.node_id = puts_in_flight ready := by
      obtain ⟨hfan, hrunning⟩ := in_flight_eq_false_iff.mp hfree
      cases hitems : ready.fan_out_items with
      | none =>
        rw [spawn_ready_node_plain ctx s hitems, spawn_plain_eq, if_pos hspawnable]
        simp [in_flight, puts_in_flight, hitems]
      | some items =>
        rw [spawn_ready_node_fan_out ctx s hitems, spawn_fan_out_eq]
        simp [in_flight, puts_in_flight, hitems, is_fan_out_running, fresh_fan_out, hrunning,
          Nat.pos_iff_ne_zero]
    have hrest : ∀ other ∈ rest, in_flight (spawn_ready_node ctx s ready) other.node_id = false ∧
        spawnable ctx other.node_id = true := by
      intro other hmem
      have hne : other.node_id ≠ ready.node_id := fun heq => hnodup.1 (heq ▸ List.mem_map_of_mem hmem)
      rw [hother _ hne]
      exact hidle other (List.mem_cons_of_mem _ hmem)
    change in_flight (spawn_ready_nodes ctx rest (spawn_ready_node ctx s ready)) n = true ↔ _
    rw [ih hnodup.2 hrest, List.exists_mem_cons_iff]
    by_cases hn : n = ready.node_id
    · subst hn
      rw [hself, hfree]
      simp
    · have hne : ¬ ready.node_id = n := fun heq => hn heq.symm
      rw [hother n hn]
      simp [hne]

/-- The ready list before an entry is the image of the starting edges before its edge. -/
theorem ready_split {ctx : RunContext} {s : RunState} (hcounts : CountsBounded ctx s.edge_traversal_counts)
    (node_id : String) (outputs : Value) (from_fan_in : Bool) {before after : List ReadyNode} {ready : ReadyNode} :
    (evaluate_edges_and_find_ready ctx node_id outputs s from_fan_in).2 = before ++ ready :: after ↔
      ∃ first edge last, starting_edges ctx s node_id outputs = first ++ edge :: last ∧
        first.map (ready_node s outputs from_fan_in) = before ∧ ready_node s outputs from_fan_in edge = ready ∧
        last.map (ready_node s outputs from_fan_in) = after := by
  rw [evaluate_edges_eq hcounts]
  simp only [List.map_eq_append_iff, List.map_eq_cons_iff]
  constructor
  · rintro ⟨first, _, hsplit, hfirst, edge, last, rfl, hedge, hlast⟩
    exact ⟨first, edge, last, hsplit, hfirst, hedge, hlast⟩
  · rintro ⟨first, edge, last, hsplit, hfirst, hedge, hlast⟩
    exact ⟨first, _, hsplit, hfirst, edge, last, rfl, hedge, hlast⟩

/-- What is in flight when one of the ready nodes is about to start: what was before, and
the nodes that have been started ahead of it. -/
theorem in_flight_before_iff {ctx : RunContext} (haccepted : Accepted ctx) {s : RunState} (hphases : Phases s)
    (hcounts : CountsBounded ctx s.edge_traversal_counts) {node_id : String} {outputs : Value} (from_fan_in : Bool)
    {first last : List Edge} {edge : Edge} (hsplit : starting_edges ctx s node_id outputs = first ++ edge :: last)
    (source : String) :
    in_flight (spawn_ready_nodes ctx (first.map (ready_node s outputs from_fan_in))
        (evaluate_edges_and_find_ready ctx node_id outputs s from_fan_in).1) source = true ↔
      in_flight s source = true ∨ ∃ e ∈ first, e.to_node = source ∧
        puts_in_flight (ready_node s outputs from_fan_in e) = true := by
  have hnodup := ready_nodes_nodup ctx s node_id outputs from_fan_in
  rw [hsplit, List.map_append, List.map_append, List.nodup_append] at hnodup
  rw [in_flight_spawn_ready_nodes hnodup.1, evaluate_edges_eq hcounts]
  · simp only [List.mem_map, exists_exists_and_eq_and]
    rfl
  · intro ready hready
    obtain ⟨e, he, rfl⟩ := List.mem_map.mp hready
    have hmem : e ∈ starting_edges ctx s node_id outputs := hsplit ▸ List.mem_append_left _ he
    rw [evaluate_edges_eq hcounts]
    exact ⟨(hphases.idle_of_starting from_fan_in hmem).not_in_flight,
      haccepted.target_spawnable (mem_starting_edges hmem).1⟩

/-- The joins wait in the evaluation of a completed node's edges exactly when these
edges disturb no join. -/
theorem quietRestarts_iff {ctx : RunContext} (haccepted : Accepted ctx) {s : RunState} (hphases : Phases s)
    (hcounts : CountsBounded ctx s.edge_traversal_counts) (node_id : String) (outputs : Value)
    (from_fan_in : Bool) :
    (∀ before ready after,
      (evaluate_edges_and_find_ready ctx node_id outputs s from_fan_in).2 = before ++ ready :: after →
      ∀ source, ForwardEdge ctx source ready.node_id → in_flight (spawn_ready_nodes ctx before
        (evaluate_edges_and_find_ready ctx node_id outputs s from_fan_in).1) source = false) ↔
      QuietRestarts ctx s node_id outputs from_fan_in := by
  have hspawned := @in_flight_before_iff ctx haccepted s hphases hcounts node_id outputs from_fan_in
  constructor
  · intro hwait
    constructor
    · intro edge hedge _ source hforward
      obtain ⟨first, last, hsplit⟩ := List.append_of_mem hedge
      have hready := (ready_split hcounts _ _ from_fan_in).mpr ⟨first, edge, last, hsplit, rfl, rfl, rfl⟩
      have hfalse := hwait _ _ _ hready source hforward
      by_contra hflight
      rw [Bool.not_eq_false] at hflight
      have htrue := (hspawned hsplit source).mpr (Or.inl hflight)
      rw [hfalse] at htrue
      cases htrue
    · rw [List.pairwise_iff_forall_sublist]
      intro first second hsub hputs hforward
      obtain ⟨before, rest, hsplit, hfirst, hsecond⟩ := List.cons_sublist_iff.mp hsub
      obtain ⟨middle, last, hrest⟩ := List.append_of_mem (List.singleton_sublist.mp hsecond)
      have hwhole : starting_edges ctx s node_id outputs = (before ++ middle) ++ second :: last := by
        rw [hsplit, hrest, List.append_assoc]
      have hready := (ready_split hcounts _ _ from_fan_in).mpr
        ⟨before ++ middle, second, last, hwhole, rfl, rfl, rfl⟩
      have hfalse := hwait _ _ _ hready first.to_node hforward
      have htrue := (hspawned hwhole first.to_node).mpr
        (Or.inr ⟨first, List.mem_append_left _ hfirst, rfl, hputs⟩)
      rw [hfalse] at htrue
      cases htrue
  · intro hquiet before ready after hready source hforward
    obtain ⟨first, edge, last, hsplit, rfl, rfl, rfl⟩ := (ready_split hcounts _ _ from_fan_in).mp hready
    by_contra hflight
    rw [Bool.not_eq_false, hspawned hsplit source] at hflight
    have hmem : edge ∈ starting_edges ctx s node_id outputs := hsplit ▸ by simp
    cases hflight with
    | inl hflight =>
      by_cases hcompleted : edge.to_node ∈ s.completed
      · have hfalse := hquiet.completed_targets edge hmem hcompleted source hforward
        rw [hflight] at hfalse
        cases hfalse
      · obtain ⟨_, _, _, hstart⟩ := mem_starting_edges hmem
        simp only [startable, hcompleted, decide_false, Bool.false_or, Bool.and_eq_true] at hstart
        obtain ⟨e, he, rfl, hto, hforward⟩ := hforward
        obtain ⟨hnot_completed, hnot_failed⟩ := hphases.in_flight_not_done _ hflight
        exact (source_done_of_ready hcounts hstart.2.2 he hto hforward).elim hnot_completed hnot_failed
    | inr hstarted =>
      obtain ⟨e, he, rfl, hputs⟩ := hstarted
      have hpairwise := hquiet.no_source_first
      rw [hsplit, List.pairwise_append] at hpairwise
      exact hpairwise.2.2 e he edge (List.mem_cons_self ..) hputs hforward

/-- In a reached state a step makes no join start early exactly when it is quiet. -/
theorem joinsWait_iff {ctx : RunContext} (haccepted : Accepted ctx) {s : RunState} (hphases : Phases s)
    (hcounts : CountsBounded ctx s.edge_traversal_counts) (c : Completion) :
    JoinsWait ctx s c ↔ StepQuiet ctx s c := by
  constructor
  · intro hwait task settled node_id outputs from_fan_in hfind hsettle
    obtain ⟨hsettled, hsame⟩ := hphases.settled hfind hsettle
    exact (quietRestarts_iff haccepted hsettled (hsame ▸ hcounts) node_id outputs from_fan_in).mp
      (hwait task settled node_id outputs from_fan_in hfind hsettle)
  · intro hquiet task settled node_id outputs from_fan_in hfind hsettle
    obtain ⟨hsettled, hsame⟩ := hphases.settled hfind hsettle
    exact (quietRestarts_iff haccepted hsettled (hsame ▸ hcounts) node_id outputs from_fan_in).mpr
      (hquiet task settled node_id outputs from_fan_in hfind hsettle)

/-- On any graph the joins wait in every step of a run exactly when every step is quiet. -/
theorem joins_wait_in_loops {ctx : RunContext} (haccepted : Accepted ctx) {may : Task → NodeOutcome → Prop}
    (hsucceed : ∀ task error, ¬ may task (.Failed error)) {cs : List Completion} {s : RunState} :
    transition.Run (next_state ctx) (fun s c => Finishes may s c ∧ JoinsWait ctx s c) (initial_state ctx) cs s ↔
      transition.Run (next_state ctx) (fun s c => Finishes may s c ∧ StepQuiet ctx s c)
        (initial_state ctx) cs s := by
  have hstep : ∀ cs s, RunOf ctx may cs s → ∀ c, JoinsWait ctx s c ↔ StepQuiet ctx s c := fun cs s hrun c =>
    joinsWait_iff haccepted (run_phases haccepted (fun task error hmay => absurd hmay (hsucceed task error)) hrun)
      (run_countsBounded hrun) c
  constructor
  · apply transition.Run.transfer
    intro cs s c hrun hallowed
    exact ⟨hallowed.1, (hstep cs s (hrun.mono fun _ _ h => h.1) c).mp hallowed.2⟩
  · apply transition.Run.transfer
    intro cs s c hrun hallowed
    exact ⟨hallowed.1, (hstep cs s (hrun.mono fun _ _ h => h.1) c).mpr hallowed.2⟩

/-- A test for a join that does not wait. -/
def spawns_early (ctx : RunContext) (s : RunState) (c : Completion) : Bool :=
  match s.running.find? fun task => task.id = c.task with
  | none => false
  | some task =>
    match settle ctx (joined ctx s c task) (node_result task c.joined) with
    | .ok (settled, some (node_id, outputs, from_fan_in)) =>
      let evaluated := evaluate_edges_and_find_ready ctx node_id outputs settled from_fan_in
      (List.range evaluated.2.length).any fun k =>
        match evaluated.2[k]? with
        | none => false
        | some ready => ctx.graph.edges.any fun edge =>
          decide (edge.to_node = ready.node_id) && decide (edge.id ∉ find_back_edges ctx.graph) &&
            in_flight (spawn_ready_nodes ctx (evaluated.2.take k) evaluated.1) edge.from_node
    | _ => false

theorem not_joinsWait_of_spawns_early {ctx : RunContext} {s : RunState} {c : Completion}
    (h : spawns_early ctx s c = true) :
    (∃ task, s.running.find? (fun task => task.id = c.task) = some task) ∧ ¬ JoinsWait ctx s c := by
  unfold spawns_early at h
  split at h
  · cases h
  · rename_i task hfind
    refine ⟨⟨task, hfind⟩, fun hwait => ?_⟩
    split at h
    · rename_i settled node_id outputs from_fan_in hsettle
      obtain ⟨k, _, hk⟩ := List.any_eq_true.mp h
      split at hk
      · cases hk
      · rename_i ready hready
        obtain ⟨edge, hedge, hearly⟩ := List.any_eq_true.mp hk
        simp only [Bool.and_eq_true, decide_eq_true_eq] at hearly
        obtain ⟨⟨hto, hforward⟩, hflight⟩ := hearly
        obtain ⟨hlt, hget⟩ := List.getElem?_eq_some_iff.mp hready
        have hsplit := List.take_append_drop k
          (evaluate_edges_and_find_ready ctx node_id outputs settled from_fan_in).2
        rw [List.drop_eq_getElem_cons hlt, hget] at hsplit
        have hfalse := hwait task settled node_id outputs from_fan_in hfind hsettle _ _ _ hsplit.symm
          edge.from_node ⟨edge, hedge, rfl, hto, hforward⟩
        rw [hflight] at hfalse
        cases hfalse
    · cases h

/-- A fork and a join inside a loop: "A" starts "B" and "C", the join "T" takes both
and loops back to "A". -/
def fork_sample : RunContext :=
  sample_context ["A", "B", "C", "T"] [sample_edge "ab" "A" "B" none, sample_edge "ac" "A" "C" none,
    sample_edge "bt" "B" "T" none, sample_edge "ct" "C" "T" none, sample_edge "ta" "T" "A" none] 3

/-- In the second iteration "C" finishes first, and "T" is started again while "B" is
still running. -/
theorem joins_in_loops_start_early : Accepted fork_sample ∧ ∃ cs s c,
    RunOf fork_sample (fun _ outcome => outcome = .Success .null) cs s ∧
      Finishes (fun _ outcome => outcome = .Success .null) s c ∧ ¬ JoinsWait fork_sample s c := by
  refine ⟨sample_accepted 3 (by decide +kernel), ?_⟩
  have hreplay : ((replay fork_sample (fun _ => .Success .null) (initial_state fork_sample)
      [⟨0, 0⟩, ⟨1, 0⟩, ⟨2, 0⟩, ⟨3, 0⟩, ⟨4, 0⟩]).map fun run =>
        spawns_early fork_sample run.2 ⟨⟨6, 0⟩, .returned (.Success .null) []⟩) = some true := by
    decide +kernel
  obtain ⟨⟨cs, s⟩, hrun, hearly⟩ := Option.map_eq_some_iff.mp hreplay
  obtain ⟨⟨task, hfind⟩, hnot⟩ := not_joinsWait_of_spawns_early hearly
  exact ⟨cs, s, _, run_of_replay hrun, ⟨task, hfind, _, _, rfl, rfl⟩, hnot⟩

theorem joins_wait_in_loops_sample : ∃ cs s,
    RunOf fork_sample (fun _ outcome => outcome = .Success .null) cs s ∧ s.activations.length = 5 ∧
    (transition.Run (next_state fork_sample) (fun s c =>
        Finishes (fun _ outcome => outcome = .Success .null) s c ∧ JoinsWait fork_sample s c)
        (initial_state fork_sample) cs s ↔
      transition.Run (next_state fork_sample) (fun s c =>
        Finishes (fun _ outcome => outcome = .Success .null) s c ∧ StepQuiet fork_sample s c)
        (initial_state fork_sample) cs s) := by
  have hreplay : ((replay fork_sample (fun _ => .Success .null) (initial_state fork_sample)
      [⟨0, 0⟩, ⟨1, 0⟩, ⟨2, 0⟩, ⟨3, 0⟩]).map fun run => run.2.activations.length) = some 5 := by
    decide +kernel
  obtain ⟨⟨cs, s⟩, hrun, hlength⟩ := Option.map_eq_some_iff.mp hreplay
  refine ⟨cs, s, run_of_replay hrun, hlength, ?_⟩
  apply joins_wait_in_loops (sample_accepted 3 (by decide +kernel))
  intro _ _ herror
  cases herror

end flow_engine.executor
