import FlowEngine.Executor.Dag.Exact
import FlowEngine.Executor.Dag.Tracks

namespace flow_engine.executor

open dataflow (Activated Legal found keys)

/-- What a node leaves when it does its work. -/
def work_output (eval : String → Value → Value) (node_id : String) : Work → Value
  | .plain inputs => eval node_id inputs
  | .fan_out items => .array (items.map (eval node_id))

/-- The output of this work comes from a fan-in. -/
def Work.is_fan_out : Work → Bool
  | .plain _ => false
  | .fan_out _ => true

def node_end (eval : String → Value → Value) (node_id : String) (work : Work) : NodeEnd :=
  .done (work_output eval node_id work) work.is_fan_out

section NoArrays

variable {ctx : RunContext} {eval : String → Value → Value} (harrays : ∀ n inputs, SendsNoArray ctx n (eval n inputs))
include harrays

/-- Without arrays every work is a single task. -/
theorem work_plain_of_no_arrays {order : List (String × NodeEnd)} (hlegal : Legal (net ctx) (Computes eval) order)
    {v : String} {w : Work} (hactive : Activated (net ctx) order v w) : ∃ inputs, w = .plain inputs := by
  rcases activated_cases hactive with
    ⟨_, _, hw⟩ | ⟨x, outputs, from_fan_in, edge, hx, hsource, hfound, hpassing, hw⟩ | ⟨_, _, _, _, _, hw⟩
  · exact ⟨_, hw⟩
  · obtain ⟨hedge, hfrom, _⟩ := passing_edge_spec hpassing
    obtain ⟨_, r, _, hfound', hends⟩ := hlegal.activated (hx.sources_mem x hsource)
    rw [hfound] at hfound'
    cases hfound'
    have hitems : fan_out_items outputs edge from_fan_in = none := by
      cases hends with
      | plain => exact fan_out_items_eq_none (harrays x _) hedge hfrom false
      | fan_in _ _ _ _ => rfl
    rw [hitems] at hw
    exact ⟨_, hw⟩
  · exact ⟨_, hw⟩

/-- Without arrays each work has one end. -/
theorem legal_iff_of_no_arrays {order : List (String × NodeEnd)} :
    Legal (net ctx) (Computes eval) order ↔ Legal (net ctx) (fun v w r => r = node_end eval v w) order := by
  constructor
  · intro hlegal
    induction hlegal with
    | nil => exact .nil
    | snoc legal hfresh hactivated hresult ih =>
      obtain ⟨inputs, rfl⟩ := work_plain_of_no_arrays harrays legal hactivated
      cases hresult
      exact ih.snoc hfresh hactivated rfl
  · intro hlegal
    induction hlegal with
    | nil => exact .nil
    | snoc _ hfresh hactivated hresult ih =>
      obtain ⟨inputs, rfl⟩ := work_plain_of_no_arrays harrays ih hactivated
      exact ih.snoc hfresh hactivated (hresult ▸ Computes.plain)

variable (haccepted : Accepted ctx)
include haccepted

/-- No task is left in flight when every node with work has ended. -/
theorem Tracks.maximal_iff {order : List (String × NodeEnd)} {cs : List Completion} {s : RunState}
    (h : Tracks ctx eval order cs s) : dataflow.Maximal (net ctx) order ↔ s.running = [] := by
  constructor
  · intro hmax
    rw [List.eq_nil_iff_forall_not_mem]
    intro task hmem
    obtain ⟨work, hactivation, hwork⟩ := (run_ledger haccepted h.run).recorded task hmem
    obtain ⟨inputs, rfl⟩ := work_plain_of_no_arrays harrays h.refines.legal
      ((h.refines.activated _ _).mp (List.mem_of_getElem? hactivation))
    cases hwork with
    | plain _ _ hindex =>
      obtain ⟨hnot, hactive⟩ := h.refines.plain_active (functional_phases haccepted h.run)
        (run_ledger haccepted h.run) hmem hindex
      exact hnot (hmax _ _ hactive)
  · exact h.maximal haccepted

variable (hacyclic : digraph.Acyclic (GraphEdge ctx.graph))
include hacyclic

/-- A complete run follows a complete order of ends. -/
theorem FunctionalRun.complete_order {cs : List Completion} {s : RunState} (hrun : FunctionalRun ctx eval cs s)
    (hempty : s.running = []) : ∃ order, Tracks ctx eval order cs s ∧
      Legal (net ctx) (fun v w r => r = node_end eval v w) order ∧ dataflow.Maximal (net ctx) order := by
  obtain ⟨order, h⟩ := FunctionalRun.tracks haccepted hacyclic hrun
  exact ⟨order, h, (legal_iff_of_no_arrays harrays).mp h.refines.legal,
    (h.maximal_iff harrays haccepted).mpr hempty⟩

/-- The complete runs agree on a node's work exactly when the complete orders do. -/
theorem agree_iff_confluentAt (v : String) :
    (∀ cs s cs' s', FunctionalRun ctx eval cs s → FunctionalRun ctx eval cs' s' → s.running = [] → s'.running = [] →
      ∀ w, (⟨v, w⟩ : Activation) ∈ s.activations ↔ ⟨v, w⟩ ∈ s'.activations) ↔
    dataflow.ConfluentAt (net ctx) (node_end eval) v := by
  constructor
  · intro hagree first second hfirst hsecond hmax hmax' w
    obtain ⟨cs, s, h, _⟩ := exists_tracks haccepted hacyclic ((legal_iff_of_no_arrays harrays).mpr hfirst)
    obtain ⟨cs', s', h', _⟩ := exists_tracks haccepted hacyclic ((legal_iff_of_no_arrays harrays).mpr hsecond)
    have hempty := (h.maximal_iff harrays haccepted).mp hmax
    have hempty' := (h'.maximal_iff harrays haccepted).mp hmax'
    rw [← h.refines.activated, ← h'.refines.activated]
    exact hagree cs s cs' s' h.run h'.run hempty hempty' w
  · intro hconfluent cs s cs' s' hrun hrun' hempty hempty' w
    obtain ⟨order, h, hlegal, hmax⟩ := FunctionalRun.complete_order harrays haccepted hacyclic hrun hempty
    obtain ⟨order', h', hlegal', hmax'⟩ := FunctionalRun.complete_order harrays haccepted hacyclic hrun' hempty'
    rw [h.refines.activated, h'.refines.activated]
    exact hconfluent order order' hlegal hlegal' hmax hmax' w

/-- What a complete run leaves is told by its activations. -/
theorem same_result_of_agree {cs cs' : List Completion} {s s' : RunState} (hrun : FunctionalRun ctx eval cs s)
    (hrun' : FunctionalRun ctx eval cs' s') (hempty : s.running = []) (hempty' : s'.running = [])
    (hagree : ∀ activation, activation ∈ s.activations ↔ activation ∈ s'.activations) :
    s.node_outputs = s'.node_outputs ∧ final_status ctx s false = final_status ctx s' false := by
  obtain ⟨order, h, hlegal, hmax⟩ := FunctionalRun.complete_order harrays haccepted hacyclic hrun hempty
  obtain ⟨order', h', hlegal', hmax'⟩ := FunctionalRun.complete_order harrays haccepted hacyclic hrun' hempty'
  have hactivated : ∀ v w, Activated (net ctx) order v w ↔ Activated (net ctx) order' v w := by
    intro v w
    rw [← h.refines.activated, ← h'.refines.activated]
    exact hagree ⟨v, w⟩
  have hfound : ∀ v, found order v = found order' v := by
    intro v
    by_cases hactive : ∃ w, Activated (net ctx) order v w
    · obtain ⟨w, hactive⟩ := hactive
      have hactive' := (hactivated v w).mp hactive
      rw [hlegal.found_eval (hmax v w hactive) hactive, hlegal'.found_eval (hmax' v w hactive') hactive']
    · have hnot : v ∉ keys order := by
        intro hmem
        obtain ⟨w, _, hact, _⟩ := hlegal.activated hmem
        exact hactive ⟨w, hact⟩
      have hnot' : v ∉ keys order' := by
        intro hmem
        obtain ⟨w, _, hact, _⟩ := hlegal'.activated hmem
        exact hactive ⟨w, (hactivated v w).mpr hact⟩
      rw [dataflow.found_eq_none hnot, dataflow.found_eq_none hnot']
  have hcompleted : s.completed = s'.completed := by
    ext n
    rw [h.refines.completed, h'.refines.completed, hfound]
  have hfailed : s.failed = s'.failed := by
    ext n
    rw [h.refines.failed, h'.refines.failed, hfound]
  have hrunning : s.running_set = s'.running_set := by
    ext n
    have hcount := (functional_phases haccepted hrun).plain_count n
    have hcount' := (functional_phases haccepted hrun').plain_count n
    rw [hempty] at hcount
    rw [hempty'] at hcount'
    by_cases hn : n ∈ s.running_set
    · simp [hn] at hcount
    · by_cases hn' : n ∈ s'.running_set
      · simp [hn'] at hcount'
      · simp [hn, hn']
  constructor
  · rw [h.refines.outputs, h'.refines.outputs]
    exact congrArg (end_outputs ctx) (funext hfound)
  · unfold final_status all_reachable_done
    rw [hcompleted, hfailed, hrunning]

end NoArrays

end flow_engine.executor
