import FlowEngine.Executor.Dag.Net
import FlowEngine.Executor.Bookkeeping
import FlowEngine.Executor.Ready

namespace flow_engine.executor

open dataflow (Activated Legal found keys)

/-- The activation a ready node is spawned with. -/
def ready_activation (ctx : RunContext) (s : RunState) (ready : ReadyNode) : Activation where
  node_id := ready.node_id
  work := match ready.fan_out_items with
    | some items => .fan_out items
    | none => .plain (resolve_inputs ctx.graph s.node_outputs ready.node_id)

/-- The effect of spawning nodes for the first time. -/
structure Spawned (ctx : RunContext) (nodes : List ReadyNode) (s next : RunState) : Prop where
  completed : next.completed = s.completed
  failed : next.failed = s.failed
  node_outputs : next.node_outputs = s.node_outputs
  counts : next.edge_traversal_counts = s.edge_traversal_counts
  activations : next.activations = s.activations ++ nodes.map (ready_activation ctx s)
  running : ∀ n, n ∈ next.running_set ↔
    n ∈ s.running_set ∨ ∃ ready ∈ nodes, ready.node_id = n ∧ ready.fan_out_items = none
  fanning : ∀ n, next.fan_out_states n ≠ none ↔
    s.fan_out_states n ≠ none ∨ ∃ ready ∈ nodes, ready.node_id = n ∧ ready.fan_out_items ≠ none

theorem spawned_one {ctx : RunContext} {s : RunState} {ready : ReadyNode}
    (hspawnable : spawnable ctx ready.node_id = true) (hfirst : ready.is_cycle = false) :
    Spawned ctx [ready] s (spawn_ready_node ctx s ready) := by
  have hreopen : reopen s ready = s := by simp [reopen, hfirst]
  cases hitems : ready.fan_out_items with
  | none =>
    rw [spawn_ready_node_plain ctx s hitems, spawn_plain_eq, if_pos hspawnable, hreopen]
    constructor
    · rfl
    · rfl
    · rfl
    · rfl
    · simp [ready_activation, hitems]
    · intro n
      simp [hitems, eq_comm, or_comm]
    · intro n
      simp [hitems]
  | some items =>
    rw [spawn_ready_node_fan_out ctx s hitems, spawn_fan_out_eq, hreopen]
    constructor
    · rfl
    · rfl
    · rfl
    · rfl
    · simp [ready_activation, hitems]
    · intro n
      simp [hitems]
    · intro n
      by_cases hn : n = ready.node_id
      · subst hn
        simp [hitems]
      · have hne : ¬ ready.node_id = n := fun heq => hn heq.symm
        simp [hitems, hn, hne]

theorem spawned_all {ctx : RunContext} {s : RunState} {nodes : List ReadyNode}
    (hspawnable : ∀ ready ∈ nodes, spawnable ctx ready.node_id = true)
    (hfirst : ∀ ready ∈ nodes, ready.is_cycle = false) :
    Spawned ctx nodes s (spawn_ready_nodes ctx nodes s) := by
  induction nodes generalizing s with
  | nil => exact ⟨rfl, rfl, rfl, rfl, by simp [spawn_ready_nodes], by simp [spawn_ready_nodes],
      by simp [spawn_ready_nodes]⟩
  | cons ready rest ih =>
    have hone := spawned_one (s := s) (hspawnable ready (List.mem_cons_self ..))
      (hfirst ready (List.mem_cons_self ..))
    have hrest := ih (s := spawn_ready_node ctx s ready) (fun r hr => hspawnable r (List.mem_cons_of_mem _ hr))
      (fun r hr => hfirst r (List.mem_cons_of_mem _ hr))
    change Spawned ctx (ready :: rest) s (spawn_ready_nodes ctx rest (spawn_ready_node ctx s ready))
    constructor
    · rw [hrest.completed, hone.completed]
    · rw [hrest.failed, hone.failed]
    · rw [hrest.node_outputs, hone.node_outputs]
    · rw [hrest.counts, hone.counts]
    · have hsame : ready_activation ctx (spawn_ready_node ctx s ready) = ready_activation ctx s := by
        funext r
        unfold ready_activation
        rw [hone.node_outputs]
      rw [hrest.activations, hone.activations, hsame]
      simp
    · intro n
      rw [hrest.running, hone.running]
      simp [or_assoc]
    · intro n
      rw [hrest.fanning, hone.fanning]
      simp [or_assoc]

/-- The executor's variables are those of an order of ended nodes: done and failed
nodes, their outputs, the activated nodes and those among them that still run. -/
structure Refines (ctx : RunContext) (ends : WorkEnds) (order : List (String × NodeEnd)) (s : RunState) : Prop where
  legal : Legal (net ctx) ends order
  completed : ∀ n, n ∈ s.completed ↔ ∃ outputs from_fan_in, found order n = some (.done outputs from_fan_in)
  failed : ∀ n, n ∈ s.failed ↔ found order n = some .failed
  outputs : s.node_outputs = end_outputs ctx (found order)
  activated : ∀ v w, (⟨v, w⟩ : Activation) ∈ s.activations ↔ Activated (net ctx) order v w
  once : (s.activations.map Activation.node_id).Nodup
  running : ∀ n, n ∈ s.running_set ↔ n ∉ keys order ∧ ∃ inputs, Activated (net ctx) order n (.plain inputs)
  fanning : ∀ n, s.fan_out_states n ≠ none ↔
    n ∉ keys order ∧ ∃ items, Activated (net ctx) order n (.fan_out items)
  counts : ∀ edge ∈ ctx.graph.edges, edge.from_node ∉ keys order → s.edge_traversal_counts edge.id = 0

/-- The moment at which `x` has ended and the nodes it was the last source of have not
been started. -/
structure Ended (ctx : RunContext) (ends : WorkEnds) (order : List (String × NodeEnd)) (x : String) (r : NodeEnd)
    (s : RunState) : Prop where
  legal : Legal (net ctx) ends (order ++ [(x, r)])
  completed : ∀ n, n ∈ s.completed ↔
    ∃ outputs from_fan_in, found (order ++ [(x, r)]) n = some (.done outputs from_fan_in)
  failed : ∀ n, n ∈ s.failed ↔ found (order ++ [(x, r)]) n = some .failed
  outputs : s.node_outputs = end_outputs ctx (found (order ++ [(x, r)]))
  activated : ∀ v w, (⟨v, w⟩ : Activation) ∈ s.activations ↔ Activated (net ctx) order v w
  once : (s.activations.map Activation.node_id).Nodup
  running : ∀ n, n ∈ s.running_set ↔
    n ∉ keys (order ++ [(x, r)]) ∧ ∃ inputs, Activated (net ctx) order n (.plain inputs)
  fanning : ∀ n, s.fan_out_states n ≠ none ↔
    n ∉ keys (order ++ [(x, r)]) ∧ ∃ items, Activated (net ctx) order n (.fan_out items)

/-- A node is done or failed when it has ended. -/
theorem over_iff {ctx : RunContext} {ends : WorkEnds} {order : List (String × NodeEnd)} {s : RunState}
    (hlegal : Legal (net ctx) ends order)
    (hcompleted : ∀ n, n ∈ s.completed ↔ ∃ outputs from_fan_in, found order n = some (.done outputs from_fan_in))
    (hfailed : ∀ n, n ∈ s.failed ↔ found order n = some .failed) (n : String) :
    n ∈ s.completed ∨ n ∈ s.failed ↔ n ∈ keys order := by
  rw [hcompleted, hfailed]
  constructor
  · intro hover
    by_contra hnot
    rw [dataflow.found_eq_none hnot] at hover
    simp at hover
  · intro hmem
    obtain ⟨_, end_of_n, _, hfound, _⟩ := hlegal.activated hmem
    rw [hfound]
    cases end_of_n with
    | failed => exact Or.inr rfl
    | done outputs from_fan_in => exact Or.inl ⟨outputs, from_fan_in, rfl⟩

/-- What a state has to show for `x` to have ended in it. -/
theorem Refines.ended {ctx : RunContext} {ends : WorkEnds} {order : List (String × NodeEnd)} {s s' : RunState}
    (h : Refines ctx ends order s) {x : String} {w : Work} {r : NodeEnd} (hx : x ∉ keys order)
    (hwork : Activated (net ctx) order x w) (hends : ends x w r)
    (hcompleted : ∀ n, n ∈ s'.completed ↔ n ∈ s.completed ∨ n = x ∧ ∃ outputs from_fan_in, r = .done outputs from_fan_in)
    (hfailed : ∀ n, n ∈ s'.failed ↔ n ∈ s.failed ∨ n = x ∧ r = .failed)
    (hother : ∀ n, n ≠ x → s'.node_outputs n = s.node_outputs n)
    (hself : s'.node_outputs x = r.output.or (s.node_outputs x))
    (hactivations : s'.activations = s.activations)
    (hrunning : ∀ n, n ∈ s'.running_set ↔ n ∈ s.running_set ∧ n ≠ x)
    (hfanning : ∀ n, s'.fan_out_states n ≠ none ↔ s.fan_out_states n ≠ none ∧ n ≠ x) :
    Ended ctx ends order x r s' := by
  have hkeys : ∀ n, n ∉ keys (order ++ [(x, r)]) ↔ n ∉ keys order ∧ n ≠ x := by
    intro n
    simp [dataflow.keys_append]
  have hfound : ∀ n, n ≠ x → found (order ++ [(x, r)]) n = found order n := fun n hn =>
    dataflow.found_snoc_other hn
  have hfound_self : found (order ++ [(x, r)]) x = some r := dataflow.found_snoc_self hx
  have hnone : found order x = none := dataflow.found_eq_none hx
  constructor
  · exact h.legal.snoc hx hwork hends
  · intro n
    rw [hcompleted n, h.completed n]
    by_cases hn : n = x
    · subst hn
      simp [hfound_self, hnone]
    · simp [hfound n hn, hn]
  · intro n
    rw [hfailed n, h.failed n]
    by_cases hn : n = x
    · subst hn
      simp [hfound_self, hnone]
    · simp [hfound n hn, hn]
  · funext n
    by_cases hn : n = x
    · subst hn
      rw [hself, h.outputs]
      unfold end_outputs
      rw [hfound_self, hnone]
      cases r <;> rfl
    · rw [hother n hn, h.outputs]
      unfold end_outputs
      rw [hfound n hn]
  · rw [hactivations]
    exact h.activated
  · rw [hactivations]
    exact h.once
  · intro n
    rw [hrunning n, h.running n, hkeys n]
    tauto
  · intro n
    rw [hfanning n, h.fanning n, hkeys n]
    tauto

end flow_engine.executor
