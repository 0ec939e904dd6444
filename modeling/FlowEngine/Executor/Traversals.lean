import FlowEngine.Executor.Ends
import FlowEngine.Executor.Termination

namespace flow_engine.executor

/-- The event of an evaluation of the edge. -/
def is_evaluation (edge_id : String) : WriteEvent → Bool
  | .EdgeEvaluated _ _ id _ _ _ => decide (id = edge_id)
  | _ => false

/-- The evaluations of an edge account for the outputs its source completed with: there is
one for each, in their order, passed if the condition holds on the output and earlier passes
leave room, and so many are passed as the limit allows. -/
structure Accounts (ctx : RunContext) (edge : Edge) (outputs : List Value) (events : List WriteEvent) : Prop where
  one_each : events.length = outputs.length
  decided : ∀ (j : Nat) (output : Value), outputs[j]? = some output →
    events[j]? = some (edge_event ctx edge output (evaluate_edge_condition ctx edge output &&
      decide ((events.take j).countP (is_pass edge.id) < ctx.max_traversals)))
  passes : events.countP (is_pass edge.id) =
    min ctx.max_traversals (outputs.countP (evaluate_edge_condition ctx edge))

section Accounts

variable {ctx : RunContext} {edge : Edge}

@[simp] theorem is_evaluation_edge_event (e : Edge) (outputs : Value) (passed : Bool) (edge_id : String) :
    is_evaluation edge_id (edge_event ctx e outputs passed) = decide (e.id = edge_id) := rfl

@[simp] theorem is_pass_edge_event (outputs : Value) (passed : Bool) :
    is_pass edge.id (edge_event ctx edge outputs passed) = passed := by
  cases passed <;> simp [edge_event, is_pass]

theorem is_evaluation_of_pass {edge_id : String} {event : WriteEvent} (h : is_pass edge_id event = true) :
    is_evaluation edge_id event = true := by
  unfold is_pass at h
  split at h
  · exact h
  · cases h

theorem Accounts.nil : Accounts ctx edge [] [] := by
  refine ⟨rfl, ?_, ?_⟩
  · intro j output hget
    cases hget
  · simp

/-- One more output is accounted for by one more event. -/
theorem Accounts.snoc {outputs : List Value} {events : List WriteEvent} (h : Accounts ctx edge outputs events)
    (output : Value) : Accounts ctx edge (outputs ++ [output]) (events ++ [edge_event ctx edge output
      (evaluate_edge_condition ctx edge output && decide (events.countP (is_pass edge.id) < ctx.max_traversals))]) := by
  have hlength := h.one_each
  refine ⟨by simp [hlength], ?_, ?_⟩
  · intro j value hget
    by_cases hlt : j < outputs.length
    · rw [List.getElem?_append_left hlt] at hget
      rw [List.getElem?_append_left (by omega), List.take_append_of_le_length (by omega)]
      exact h.decided j value hget
    · have hlast : j = outputs.length := by
        have hbound := (List.getElem?_eq_some_iff.mp hget).1
        rw [List.length_append, List.length_singleton] at hbound
        omega
      subst hlast
      rw [List.getElem?_concat_length] at hget
      cases hget
      rw [← hlength, List.getElem?_concat_length, List.take_left]
  · rw [List.countP_append, List.countP_append, List.countP_singleton, List.countP_singleton, is_pass_edge_event,
      h.passes]
    cases evaluate_edge_condition ctx edge output with
    | false => simp
    | true =>
      simp only [Bool.true_and, decide_eq_true_eq, if_true]
      split <;> omega

end Accounts

section Events

variable {ctx : RunContext} {outputs : Value} {edge : Edge}

theorem edge_events_cons (counts : String → Nat) (e : Edge) (rest : List Edge) :
    edge_events ctx outputs counts (e :: rest) =
      edge_event ctx e outputs (evaluate_edge_condition ctx e outputs && decide (counts e.id < ctx.max_traversals)) ::
        edge_events ctx outputs (if evaluate_edge_condition ctx e outputs && decide (counts e.id < ctx.max_traversals)
          then count_pass counts e else counts) rest := by
  rw [edge_events]
  cases evaluate_edge_condition ctx e outputs && decide (counts e.id < ctx.max_traversals) <;> rfl

theorem mem_edge_events {counts : String → Nat} {edges : List Edge} {event : WriteEvent}
    (h : event ∈ edge_events ctx outputs counts edges) :
    ∃ edge ∈ edges, ∃ passed, event = edge_event ctx edge outputs passed := by
  induction edges generalizing counts with
  | nil => cases h
  | cons e rest ih =>
    rw [edge_events_cons] at h
    cases List.mem_cons.mp h with
    | inl heq => exact ⟨e, List.mem_cons_self, _, heq⟩
    | inr hrest =>
      obtain ⟨edge, hedge, hform⟩ := ih hrest
      exact ⟨edge, List.mem_cons_of_mem _ hedge, hform⟩

/-- Other edges record nothing for the edge. -/
theorem edge_events_other {edges : List Edge} (hother : ∀ e ∈ edges, e.id ≠ edge.id) (counts : String → Nat) :
    (edge_events ctx outputs counts edges).filter (is_evaluation edge.id) = [] := by
  induction edges generalizing counts with
  | nil => rfl
  | cons e rest ih =>
    rw [edge_events_cons, List.filter_cons_of_neg (by simpa using hother e List.mem_cons_self)]
    exact ih (fun other hmem => hother other (List.mem_cons_of_mem _ hmem)) _

/-- An edge is evaluated once, under the passes counted before. -/
theorem edge_events_self {edges : List Edge} (hnodup : (edges.map Edge.id).Nodup) (hedge : edge ∈ edges)
    (counts : String → Nat) : (edge_events ctx outputs counts edges).filter (is_evaluation edge.id) =
      [edge_event ctx edge outputs
        (evaluate_edge_condition ctx edge outputs && decide (counts edge.id < ctx.max_traversals))] := by
  induction edges generalizing counts with
  | nil => cases hedge
  | cons e rest ih =>
    rw [List.map_cons, List.nodup_cons] at hnodup
    obtain ⟨hfresh, hnodup⟩ := hnodup
    rw [edge_events_cons]
    cases List.mem_cons.mp hedge with
    | inl heq =>
      subst heq
      have hrest : ∀ other ∈ rest, other.id ≠ edge.id := fun other hmem heq => hfresh (heq ▸ List.mem_map_of_mem hmem)
      rw [List.filter_cons_of_pos (by simp), edge_events_other hrest]
    | inr hmem =>
      have hne : edge.id ≠ e.id := fun heq => hfresh (heq ▸ List.mem_map_of_mem hmem)
      rw [List.filter_cons_of_neg (by simpa using Ne.symm hne), ih hnodup hmem]
      split
      · rw [count_pass, Function.update_of_ne hne]
      · rfl

theorem joined_evaluations (s : RunState) (c : Completion) (task : Task) (edge_id : String) :
    (joined ctx s c task).log.filter (is_evaluation edge_id) = s.log.filter (is_evaluation edge_id) := by
  unfold joined collect_llm_records
  rw [List.filter_append, List.append_right_eq_self, List.filter_eq_nil_iff]
  intro event hevent
  obtain ⟨record, _, rfl⟩ := List.mem_map.mp hevent
  exact Bool.false_ne_true

end Events

/-- In every run, with cycles and whatever else is under way, every edge of the graph is accounted for. -/
theorem run_accounts {ctx : RunContext} (haccepted : Accepted ctx) {allowed : RunState → Completion → Prop}
    {cs : List Completion} {s : RunState}
    (hrun : transition.Run (next_state ctx) allowed (initial_state ctx) cs s) {edge : Edge}
    (hedge : edge ∈ ctx.graph.edges) :
    Accounts ctx edge (outputs_of (node_ends ctx cs) edge.from_node) (s.log.filter (is_evaluation edge.id)) := by
  refine hrun.invariant (P := fun cs s =>
    Accounts ctx edge (outputs_of (node_ends ctx cs) edge.from_node) (s.log.filter (is_evaluation edge.id))) ?_ ?_
  · have hlog : (initial_state ctx).log = [] := (spawn_entry_frame ctx (entry_nodes ctx) _).2.2.2.2
    rw [hlog]
    exact .nil
  · intro cs s c next hreached h _ hstep
    have hcounts := run_countsBounded hreached
    have hpasses : (s.log.filter (is_evaluation edge.id)).countP (is_pass edge.id) = s.edge_traversal_counts edge.id := by
      rw [← run_log_passes hreached, List.countP_filter]
      apply List.countP_congr
      intro event _
      rw [Bool.and_eq_true, and_iff_left_of_imp is_evaluation_of_pass]
    obtain ⟨task, _, heffect⟩ := step_effect hstep
    cases heffect with
    | @completes settled outputs from_fan_in hend houtputs hsame hactivations hlog =>
      have hnodup : ((build_outgoing_edges ctx.graph task.node_id).map Edge.id).Nodup := by
        rw [build_outgoing_edges, file_edges_apply]
        exact haccepted.valid.edge_ids_nodup.sublist (List.filter_sublist.map _)
      rw [evaluate_downstream_eq (hsame ▸ hcounts), spawn_ready_nodes_log, outputs_of_snoc_done hreached hend]
      dsimp only
      rw [List.filter_append, hlog, joined_evaluations, hsame]
      by_cases hsource : task.node_id = edge.from_node
      · rw [if_pos hsource, edge_events_self hnodup (mem_build_outgoing_edges.mpr ⟨hedge, hsource.symm⟩), ← hpasses]
        exact h.snoc outputs
      · have hother : ∀ e ∈ build_outgoing_edges ctx.graph task.node_id, e.id ≠ edge.id := by
          intro e he hid
          obtain ⟨hmem, hfrom⟩ := mem_build_outgoing_edges.mp he
          have heq := List.inj_on_of_nodup_map haccepted.valid.edge_ids_nodup hmem hedge hid
          exact hsource (hfrom ▸ heq ▸ rfl)
        rw [if_neg hsource, edge_events_other hother, List.append_nil, List.append_nil]
        exact h
    | fails hend =>
      rw [proceed_after_failure_eq, spawn_ready_nodes_log, outputs_of_snoc_failed hreached hend]
      exact (joined_evaluations s c task edge.id).symm ▸ h
    | waits hend houtputs hsame hactivations hlog =>
      rw [hlog, joined_evaluations, outputs_of_snoc_failed hreached (by simp [hend])]
      exact h

/-- A node that leads back to itself. -/
def looping_sample : RunContext := sample_context ["A"] [sample_edge "again" "A" "A" none] 2

/-- Of three completions the last finds the limit reached. -/
theorem run_accounts_sample : ∃ cs s,
    transition.Run (next_state looping_sample) (fun _ _ => True) (initial_state looping_sample) cs s ∧
      (outputs_of (node_ends looping_sample cs) "A").length = 3 ∧
      Accounts looping_sample (sample_edge "again" "A" "A" none) (outputs_of (node_ends looping_sample cs) "A")
        (s.log.filter (is_evaluation "again")) := by
  have hreplay : ((replay looping_sample (fun _ => .Success .null) (initial_state looping_sample)
      [⟨0, 0⟩, ⟨1, 0⟩, ⟨2, 0⟩]).map fun run => (outputs_of (node_ends looping_sample run.1) "A").length) = some 3 := by
    decide +kernel
  obtain ⟨⟨cs, s⟩, hrun, hlength⟩ := Option.map_eq_some_iff.mp hreplay
  have hreached := (run_of_replay hrun).mono fun _ _ _ => trivial
  exact ⟨cs, s, hreached, hlength, run_accounts (sample_accepted 2 (by decide +kernel)) hreached List.mem_cons_self⟩

end flow_engine.executor
