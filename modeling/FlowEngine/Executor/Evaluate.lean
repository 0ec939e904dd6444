import FlowEngine.Executor.Spawn

namespace flow_engine.executor

/-- A node with a task in flight, or a fan-out that still waits for instances. -/
def in_flight (s : RunState) (node_id : String) : Bool :=
  is_fan_out_running s node_id || decide (node_id ∈ s.running_set)

/-- The target of an edge can be started: it is not in flight, and has completed
before or is ready for the first time. -/
def startable (ctx : RunContext) (s : RunState) (node_id : String) : Bool :=
  !in_flight s node_id && (decide (node_id ∈ s.completed) ||
    decide (node_id ∉ s.failed) && is_node_ready ctx s s.edge_traversal_counts node_id)

/-- The ready node a passed edge gives. -/
def ready_node (s : RunState) (outputs : Value) (from_fan_in : Bool) (edge : Edge) : ReadyNode where
  node_id := edge.to_node
  fan_out_items := fan_out_items outputs edge from_fan_in
  is_cycle := decide (edge.to_node ∈ s.completed)

/-- The traversal counts after an edge was passed. -/
def count_pass (counts : String → Nat) (edge : Edge) : String → Nat :=
  Function.update counts edge.id (counts edge.id + 1)

/-- The edges of a list that are passed when they are evaluated in turn. -/
def passed_edges (ctx : RunContext) (outputs : Value) : (String → Nat) → List Edge → List Edge
  | _, [] => []
  | counts, edge :: rest =>
    if evaluate_edge_condition ctx edge outputs && decide (counts edge.id < ctx.max_traversals) then
      edge :: passed_edges ctx outputs (count_pass counts edge) rest
    else passed_edges ctx outputs counts rest

/-- The edges of a list that are the first to lead to their target. -/
def first_targets (seen : Finset String) : List Edge → List Edge
  | [] => []
  | edge :: rest =>
    if edge.to_node ∈ seen then first_targets seen rest
    else edge :: first_targets (insert edge.to_node seen) rest

/-- The event recorded for an edge. -/
def edge_event (ctx : RunContext) (edge : Edge) (outputs : Value) (passed : Bool) : WriteEvent :=
  .EdgeEvaluated 0 ctx.run_id edge.id (edge.condition.map EdgeCondition.expression) passed outputs

/-- The events recorded for a list of edges. -/
def edge_events (ctx : RunContext) (outputs : Value) : (String → Nat) → List Edge → List WriteEvent
  | _, [] => []
  | counts, edge :: rest =>
    if evaluate_edge_condition ctx edge outputs && decide (counts edge.id < ctx.max_traversals) then
      edge_event ctx edge outputs true :: edge_events ctx outputs (count_pass counts edge) rest
    else edge_event ctx edge outputs false :: edge_events ctx outputs counts rest

/-- The edges a completed node passes. -/
def passed (ctx : RunContext) (s : RunState) (node_id : String) (outputs : Value) : List Edge :=
  passed_edges ctx outputs s.edge_traversal_counts (build_outgoing_edges ctx.graph node_id)

/-- The edges of a completed node that start their target. -/
def starting_edges (ctx : RunContext) (s : RunState) (node_id : String) (outputs : Value) : List Edge :=
  (first_targets ∅ (passed ctx s node_id outputs)).filter fun edge => startable ctx s edge.to_node

/-- No edge was passed more often than allowed. -/
def CountsBounded (ctx : RunContext) (counts : String → Nat) : Prop := ∀ id, counts id ≤ ctx.max_traversals

theorem CountsBounded.count_pass {ctx : RunContext} {counts : String → Nat} (h : CountsBounded ctx counts)
    {edge : Edge} (hlimit : counts edge.id < ctx.max_traversals) :
    CountsBounded ctx (count_pass counts edge) := by
  intro id
  by_cases hid : id = edge.id
  · rw [hid, executor.count_pass, Function.update_self]
    exact hlimit
  · simpa [executor.count_pass, hid] using h id

/-- Readiness does not depend on traversal counts that keep to the limit. -/
theorem is_node_ready_congr {ctx : RunContext} {counts counts' : String → Nat} (h : CountsBounded ctx counts)
    (h' : CountsBounded ctx counts') (s : RunState) (node_id : String) :
    is_node_ready ctx s counts node_id = is_node_ready ctx s counts' node_id := by
  have hloop : ∀ (edges : List Edge) (passing : Bool),
      is_node_ready_loop ctx s counts edges passing = is_node_ready_loop ctx s counts' edges passing := by
    intro edges
    induction edges with
    | nil => exact fun _ => rfl
    | cons edge rest ih =>
      intro passing
      simp only [is_node_ready_loop, ih, h edge.id, h' edge.id]
  unfold is_node_ready
  cases build_incoming_edges ctx.graph node_id with
  | nil => rfl
  | cons edge rest => exact hloop _ _

/-- Visiting the target of a passed edge adds its ready node, if it is the first
visit and the target can be started. -/
theorem visit_target_eq {ctx : RunContext} {s : RunState} (hcounts : CountsBounded ctx s.edge_traversal_counts)
    (outputs : Value) (from_fan_in : Bool) (vars : EdgeLoop) (hvars : CountsBounded ctx vars.counts) (edge : Edge) :
    visit_target ctx s outputs from_fan_in vars edge =
      if edge.to_node ∈ vars.seen then vars
      else { vars with
        seen := insert edge.to_node vars.seen
        ready := vars.ready ++
          if startable ctx s edge.to_node then [ready_node s outputs from_fan_in edge] else [] } := by
  have hready := is_node_ready_congr hvars hcounts s edge.to_node
  unfold visit_target startable in_flight ready_node
  by_cases hseen : edge.to_node ∈ vars.seen
  · simp [hseen]
  · by_cases hfan : is_fan_out_running s edge.to_node = true
    · simp [hseen, hfan]
    · by_cases hrunning : edge.to_node ∈ s.running_set
      · simp [hseen, hrunning]
      · by_cases hcompleted : edge.to_node ∈ s.completed
        · simp [hseen, hfan, hrunning, hcompleted]
        · by_cases hstart : edge.to_node ∉ s.failed ∧
              is_node_ready ctx s s.edge_traversal_counts edge.to_node = true
          · simp [hseen, hfan, hrunning, hcompleted, hready, hstart]
          · simp [hseen, hfan, hrunning, hcompleted, hready, hstart]

/-- The loop in closed form. -/
theorem evaluate_edge_foldl {ctx : RunContext} {s : RunState}
    (hcounts : CountsBounded ctx s.edge_traversal_counts) (outputs : Value) (from_fan_in : Bool)
    (edges : List Edge) (vars : EdgeLoop) (hvars : CountsBounded ctx vars.counts) :
    ∃ seen, edges.foldl (evaluate_edge ctx s outputs from_fan_in) vars = {
      ready := vars.ready ++ ((first_targets vars.seen (passed_edges ctx outputs vars.counts edges)).filter
        fun edge => startable ctx s edge.to_node).map (ready_node s outputs from_fan_in)
      seen := seen
      counts := (passed_edges ctx outputs vars.counts edges).foldl count_pass vars.counts
      log := vars.log ++ edge_events ctx outputs vars.counts edges } := by
  induction edges generalizing vars with
  | nil => exact ⟨vars.seen, by simp [passed_edges, first_targets, edge_events]⟩
  | cons edge rest ih =>
    rw [List.foldl_cons]
    cases hpassed : evaluate_edge_condition ctx edge outputs &&
        decide (vars.counts edge.id < ctx.max_traversals) with
    | false =>
      have hstep : evaluate_edge ctx s outputs from_fan_in vars edge =
          { vars with log := vars.log ++ [edge_event ctx edge outputs false] } := by
        unfold evaluate_edge edge_event
        simp only [hpassed, Bool.false_eq_true, if_false]
      rw [hstep]
      obtain ⟨seen, hrest⟩ := ih { vars with log := vars.log ++ [edge_event ctx edge outputs false] } hvars
      refine ⟨seen, ?_⟩
      rw [hrest]
      simp [passed_edges, edge_events, hpassed]
    | true =>
      have hlimit : vars.counts edge.id < ctx.max_traversals := by
        simpa using (Bool.and_eq_true_iff.mp hpassed).2
      have hbump : CountsBounded ctx (count_pass vars.counts edge) := hvars.count_pass hlimit
      have hstep : evaluate_edge ctx s outputs from_fan_in vars edge =
          visit_target ctx s outputs from_fan_in { vars with
            counts := count_pass vars.counts edge
            log := vars.log ++ [edge_event ctx edge outputs true] } edge := by
        unfold evaluate_edge edge_event count_pass
        simp only [hpassed, if_true]
      rw [hstep, visit_target_eq hcounts _ _ _ hbump]
      by_cases hseen : edge.to_node ∈ vars.seen
      · rw [if_pos hseen]
        obtain ⟨seen, hrest⟩ := ih { vars with
          counts := count_pass vars.counts edge
          log := vars.log ++ [edge_event ctx edge outputs true] } hbump
        refine ⟨seen, ?_⟩
        rw [hrest]
        simp [passed_edges, edge_events, first_targets, hpassed, hseen]
      · rw [if_neg hseen]
        obtain ⟨seen, hrest⟩ := ih { vars with
          ready := vars.ready ++
            if startable ctx s edge.to_node then [ready_node s outputs from_fan_in edge] else []
          seen := insert edge.to_node vars.seen
          counts := count_pass vars.counts edge
          log := vars.log ++ [edge_event ctx edge outputs true] } hbump
        refine ⟨seen, ?_⟩
        rw [hrest]
        by_cases hstart : startable ctx s edge.to_node = true
        · simp [passed_edges, edge_events, first_targets, hpassed, hseen, hstart]
        · simp [passed_edges, edge_events, first_targets, hpassed, hseen, hstart]

/-- What the edges of a completed node do: the passed ones are counted, all are
recorded, and those that start their target give the ready nodes. -/
theorem evaluate_edges_eq {ctx : RunContext} {s : RunState}
    (hcounts : CountsBounded ctx s.edge_traversal_counts) (node_id : String) (outputs : Value)
    (from_fan_in : Bool) :
    evaluate_edges_and_find_ready ctx node_id outputs s from_fan_in =
      ({ s with
        edge_traversal_counts := (passed ctx s node_id outputs).foldl count_pass s.edge_traversal_counts
        log := s.log ++
          edge_events ctx outputs s.edge_traversal_counts (build_outgoing_edges ctx.graph node_id) },
        (starting_edges ctx s node_id outputs).map (ready_node s outputs from_fan_in)) := by
  unfold evaluate_edges_and_find_ready starting_edges passed
  obtain ⟨seen, hloop⟩ := evaluate_edge_foldl hcounts outputs from_fan_in
    (build_outgoing_edges ctx.graph node_id)
    { ready := [], seen := ∅, counts := s.edge_traversal_counts, log := s.log } hcounts
  simp only [hloop, List.nil_append]

theorem mem_passed_edges {ctx : RunContext} {outputs : Value} {counts : String → Nat} {edges : List Edge}
    {edge : Edge} (h : edge ∈ passed_edges ctx outputs counts edges) :
    edge ∈ edges ∧ evaluate_edge_condition ctx edge outputs = true ∧ 0 < ctx.max_traversals := by
  induction edges generalizing counts with
  | nil => simp [passed_edges] at h
  | cons head rest ih =>
    rw [passed_edges] at h
    split at h
    · rename_i hpassed
      rw [Bool.and_eq_true, decide_eq_true_eq] at hpassed
      cases List.mem_cons.mp h with
      | inl heq => exact ⟨by simp [heq], heq ▸ hpassed.1, by omega⟩
      | inr hrest =>
        obtain ⟨hmem, hcondition⟩ := ih hrest
        exact ⟨List.mem_cons_of_mem _ hmem, hcondition⟩
    · obtain ⟨hmem, hcondition⟩ := ih h
      exact ⟨List.mem_cons_of_mem _ hmem, hcondition⟩

/-- Counting one edge does not change whether other edges are passed. -/
theorem passed_edges_count_pass {ctx : RunContext} {outputs : Value} {edge : Edge} {edges : List Edge}
    (hfresh : edge.id ∉ edges.map Edge.id) (counts : String → Nat) :
    passed_edges ctx outputs (count_pass counts edge) edges = passed_edges ctx outputs counts edges := by
  induction edges generalizing counts with
  | nil => rfl
  | cons head rest ih =>
    have hne : head.id ≠ edge.id := fun heq => hfresh (by simp [heq])
    have hrest : edge.id ∉ rest.map Edge.id := fun hmem => hfresh (List.mem_cons_of_mem _ hmem)
    have hsame : count_pass counts edge head.id = counts head.id := Function.update_of_ne hne _ _
    have hcomm : count_pass (count_pass counts edge) head = count_pass (count_pass counts head) edge := by
      unfold count_pass
      rw [Function.update_of_ne hne, Function.update_of_ne hne.symm, Function.update_comm hne]
    simp only [passed_edges, hsame, hcomm, ih hrest]

/-- Where the edge ids are distinct, the passed edges can be told from the counts
before the first evaluation. -/
theorem passed_edges_eq_filter {ctx : RunContext} {outputs : Value} {counts : String → Nat} {edges : List Edge}
    (hnodup : (edges.map Edge.id).Nodup) :
    passed_edges ctx outputs counts edges = edges.filter fun edge =>
      evaluate_edge_condition ctx edge outputs && decide (counts edge.id < ctx.max_traversals) := by
  induction edges with
  | nil => rfl
  | cons edge rest ih =>
    rw [List.map_cons, List.nodup_cons] at hnodup
    rw [passed_edges, passed_edges_count_pass hnodup.1, ih hnodup.2, List.filter_cons]

/-- An edge is the first to lead to its target when a search for that target finds it. -/
theorem mem_first_targets {seen : Finset String} {edges : List Edge} {edge : Edge} :
    edge ∈ first_targets seen edges ↔
      edge.to_node ∉ seen ∧ edges.find? (fun e => e.to_node = edge.to_node) = some edge := by
  induction edges generalizing seen with
  | nil => simp [first_targets]
  | cons head rest ih =>
    rw [first_targets]
    by_cases hseen : head.to_node ∈ seen
    · rw [if_pos hseen, ih]
      by_cases heq : head.to_node = edge.to_node
      · simp [heq ▸ hseen]
      · simp [heq]
    · rw [if_neg hseen, List.mem_cons, ih]
      by_cases heq : head.to_node = edge.to_node
      · simp only [heq, Finset.mem_insert_self, not_true_eq_false, false_and, or_false,
          List.find?_cons_of_pos, decide_true, Option.some.injEq]
        exact ⟨fun h => ⟨heq ▸ hseen, h.symm⟩, fun h => h.2.symm⟩
      · simp only [heq, decide_false, Bool.false_eq_true, not_false_eq_true, List.find?_cons_of_neg,
          Finset.mem_insert, not_or]
        constructor
        · rintro (rfl | ⟨⟨_, hnot⟩, hfind⟩)
          · exact absurd rfl heq
          · exact ⟨hnot, hfind⟩
        · rintro ⟨hnot, hfind⟩
          exact Or.inr ⟨⟨fun h => heq h.symm, hnot⟩, hfind⟩

theorem first_targets_nodup (seen : Finset String) (edges : List Edge) :
    ((first_targets seen edges).map Edge.to_node).Nodup := by
  induction edges generalizing seen with
  | nil => simp [first_targets]
  | cons head rest ih =>
    rw [first_targets]
    split
    · exact ih seen
    · rw [List.map_cons, List.nodup_cons]
      refine ⟨?_, ih _⟩
      intro hmem
      obtain ⟨edge, hedge, heq⟩ := List.mem_map.mp hmem
      exact (mem_first_targets.mp hedge).1 (heq ▸ Finset.mem_insert_self _ _)

/-- What an edge that starts its target satisfies. -/
theorem mem_starting_edges {ctx : RunContext} {s : RunState} {node_id : String} {outputs : Value} {edge : Edge}
    (h : edge ∈ starting_edges ctx s node_id outputs) :
    edge ∈ ctx.graph.edges ∧ edge.from_node = node_id ∧ evaluate_edge_condition ctx edge outputs = true ∧
      startable ctx s edge.to_node = true := by
  obtain ⟨hfirst, hstart⟩ := List.mem_filter.mp h
  obtain ⟨hmem, hcondition, _⟩ := mem_passed_edges (List.mem_of_find?_eq_some (mem_first_targets.mp hfirst).2)
  obtain ⟨hedge, hfrom⟩ := mem_build_outgoing_edges.mp hmem
  exact ⟨hedge, hfrom, hcondition, hstart⟩

theorem starting_edges_nodup (ctx : RunContext) (s : RunState) (node_id : String) (outputs : Value) :
    ((starting_edges ctx s node_id outputs).map Edge.to_node).Nodup :=
  (first_targets_nodup _ _).sublist (List.filter_sublist.map _)

theorem foldl_count_pass (counts : String → Nat) (edges : List Edge) (id : String) :
    edges.foldl count_pass counts id = counts id + edges.countP fun edge => edge.id = id := by
  induction edges generalizing counts with
  | nil => rfl
  | cons edge rest ih =>
    rw [List.foldl_cons, ih, List.countP_cons]
    by_cases hid : edge.id = id
    · subst hid
      simp [count_pass]
      omega
    · simp [count_pass, hid, Ne.symm hid]

/-- The edge loop keeps the traversal counts within the limit. -/
theorem passed_edges_countsBounded {ctx : RunContext} {outputs : Value} {counts : String → Nat} (edges : List Edge)
    (h : CountsBounded ctx counts) :
    CountsBounded ctx ((passed_edges ctx outputs counts edges).foldl count_pass counts) := by
  induction edges generalizing counts with
  | nil => exact h
  | cons edge rest ih =>
    rw [passed_edges]
    split
    · rename_i hpassed
      rw [Bool.and_eq_true, decide_eq_true_eq] at hpassed
      exact ih (h.count_pass hpassed.2)
    · exact ih h

end flow_engine.executor
