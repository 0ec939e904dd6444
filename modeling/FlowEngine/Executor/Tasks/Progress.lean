import FlowEngine.Stores.NodeStatus
import Mathlib.Algebra.Order.BigOperators.Group.List
import Mathlib.Data.Prod.Lex

namespace flow_engine.executor

/-- The arrays that the handlers send through edges have fewer than `2 ^ 32` elements. -/
def SmallOutputs (ctx : RunContext) (behave : Task → Behaviour) : Prop :=
  ∀ task attempt outputs, ((behave task).attempts attempt).result = .ok outputs → SmallArrays ctx task.node_id outputs

/-- The events that the loop has still to record, and one more for the end of the iteration. -/
def Live.unrecorded (x : Live) : Nat :=
  match x.iteration with
  | some iteration => iteration.unwritten.length + 1
  | none => 0

/-- The events that the tasks in flight have still to write. -/
def Live.remaining (ctx : RunContext) (behave : Task → Behaviour) (x : Live) : Nat :=
  (x.loop.running.map fun task => (script ctx behave task).1.length - x.written task.id).sum

/-- How far an execution is from its end: the activations that the limits still permit, the tasks
in flight, and what the iteration and the tasks have still to write. -/
def Live.distance (ctx : RunContext) (behave : Task → Behaviour) (x : Live) : ℕ ×ₗ ℕ ×ₗ ℕ ×ₗ ℕ :=
  toLex ((node_names ctx.graph).card * activation_bound ctx.graph ctx.max_traversals - x.ahead.activations.length,
    toLex (x.ahead.running.length, toLex (x.unrecorded, x.remaining ctx behave)))

/-- The move to make next: the iteration goes on, or the first task in flight does. -/
def Live.due (ctx : RunContext) (behave : Task → Behaviour) (x : Live) : Option Move :=
  match x.iteration with
  | some ⟨_, _ :: _⟩ => some .record
  | some ⟨_, []⟩ => some .spawn
  | none => x.loop.running.head?.map fun task =>
      if x.written task.id < (script ctx behave task).1.length then .write task.id else .join task.id

variable {ctx : RunContext} {behave : Task → Behaviour} {x y : Live} {first_seq : Nat} {moves : List Move} {move : Move}

theorem due_none (h : x.due ctx behave = none) : x.Over := by
  unfold Live.due at h
  split at h
  · cases h
  · cases h
  · rename_i hbetween
    rw [Option.map_eq_none_iff, List.head?_eq_none_iff] at h
    exact ⟨hbetween, h⟩

theorem due_moves (h : x.due ctx behave = some move) : move ≠ .draw := by
  rintro rfl
  unfold Live.due at h
  split at h
  · cases h
  · cases h
  · obtain ⟨task, _, hmove⟩ := Option.map_eq_some_iff.mp h
    split at hmove <;> cases hmove

section Nearer

/-- The state ahead changes only where a task is joined. -/
theorem nearer_of_ahead (hahead : y.ahead = x.ahead)
    (hless : y.unrecorded < x.unrecorded ∨
      y.unrecorded = x.unrecorded ∧ y.remaining ctx behave < x.remaining ctx behave) :
    y.distance ctx behave < x.distance ctx behave := by
  simp only [Live.distance, hahead, Prod.Lex.toLex_lt_toLex, lt_irrefl, true_and, false_or]
  exact hless

theorem write_written (x : Live) (task : Task) (event : WriteEvent) (id : TaskId) :
    (x.write task event).written id = if id = task.id then x.written task.id + 1 else x.written id :=
  Function.update_apply _ _ _ _

/-- A task has written an event of its script. -/
theorem write_nearer {task : Task} {event : WriteEvent}
    (hfind : x.loop.running.find? (fun other => other.id = task.id) = some task)
    (hevent : (script ctx behave task).1[x.written task.id]? = some event) :
    (x.write task event).distance ctx behave < x.distance ctx behave := by
  refine nearer_of_ahead rfl (.inr ⟨rfl, ?_⟩)
  obtain ⟨hlt, _⟩ := List.getElem?_eq_some_iff.mp hevent
  refine List.sum_lt_sum _ _ ?_ ⟨task, List.mem_of_find?_eq_some hfind, ?_⟩
  · intro other _
    rw [write_written]
    split
    · rename_i hid
      rw [hid]
      omega
    · exact le_rfl
  · rw [write_written, if_pos rfl]
    omega

/-- One more task has been joined, or more tasks have been started. -/
theorem join_nearer {task : Task} {result : JoinResult} {next : RunState} (hbetween : x.iteration = none)
    (hcounts : CountsBounded ctx x.loop.edge_traversal_counts) (hstep : next_state ctx x.loop ⟨task.id, result⟩ = some next)
    (hbound : next.activations.length ≤ (node_names ctx.graph).card * activation_bound ctx.graph ctx.max_traversals) :
    (x.join task result next).distance ctx behave < x.distance ctx behave := by
  have hahead : (x.join task result next).ahead = next := rfl
  simp only [Live.distance, hahead, ahead_eq_loop hbetween, Prod.Lex.toLex_lt_toLex]
  rcases step_progress hcounts hstep with hmore | ⟨hsame, hless⟩
  · exact .inl (by omega)
  · exact .inr ⟨by rw [hsame], .inl hless⟩

theorem record_nearer {next : RunState} {event : WriteEvent} {rest : List WriteEvent}
    (hwithin : x.iteration = some ⟨next, event :: rest⟩) :
    (x.record next event rest).distance ctx behave < x.distance ctx behave := by
  refine nearer_of_ahead (by simp [Live.ahead, Live.record, hwithin]) (.inl ?_)
  simp [Live.unrecorded, Live.record, hwithin]

theorem spawn_nearer {next : RunState} (hwithin : x.iteration = some ⟨next, []⟩) :
    (x.spawn next).distance ctx behave < x.distance ctx behave := by
  refine nearer_of_ahead (by simp [Live.ahead, Live.spawn, hwithin]) (.inl ?_)
  simp [Live.unrecorded, Live.spawn, hwithin]

end Nearer

section Runs

/-- Every move of an execution brings it nearer to its end. -/
theorem live_step_nearer (hrun : LiveRun ctx behave first_seq moves x) (hstep : live_step ctx behave x move = some y)
    (hmove : move ≠ .draw) : y.distance ctx behave < x.distance ctx behave := by
  have hafter : InStep ctx behave y := run_in_step (hrun.snoc trivial hstep)
  cases move with
  | write id =>
    simp only [live_step] at hstep
    split at hstep
    · cases hstep
    rename_i task hfind
    have hid : task.id = id := by simpa using List.find?_some hfind
    subst hid
    split at hstep
    · cases hstep
    rename_i event hevent
    cases hstep
    exact write_nearer hfind hevent
  | join id =>
    simp only [live_step] at hstep
    split at hstep
    · rename_i task hbetween hfind
      have hid : task.id = id := by simpa using List.find?_some hfind
      subst hid
      split at hstep
      · obtain ⟨next, hnext, rfl⟩ := Option.map_eq_some_iff.mp hstep
        have hloop := (run_in_step hrun).between hbetween
        exact join_nearer hbetween (run_countsBounded hloop) hnext (run_activations_length_le hafter.ahead_run)
      · cases hstep
    · cases hstep
  | record =>
    simp only [live_step] at hstep
    split at hstep
    · rename_i next event rest hwithin
      cases hstep
      exact record_nearer hwithin
    · cases hstep
  | spawn =>
    simp only [live_step] at hstep
    split at hstep
    · rename_i next hwithin
      cases hstep
      exact spawn_nearer hwithin
    · cases hstep
  | draw => exact absurd rfl hmove

variable (haccepted : Accepted ctx)
include haccepted

/-- No task writes more than its script. -/
theorem run_written_le (hrun : LiveRun ctx behave first_seq moves x) :
    ∀ task, Recorded x.loop.activations task → x.written task.id ≤ (script ctx behave task).1.length := by
  refine hrun.invariant (P := fun _ x => ∀ task, Recorded x.loop.activations task →
    x.written task.id ≤ (script ctx behave task).1.length) (fun _ _ => Nat.zero_le _) ?_
  intro moves x move y hreached h _ hstep
  have hin_step := run_in_step hreached
  obtain ⟨_, hloop⟩ := hin_step.loop_run
  cases live_step_cases hstep with
  | @write writer event hfind hevent =>
    intro task hrecorded
    by_cases hid : task.id = writer.id
    · have hwriter := (run_ledger haccepted hloop).recorded writer (List.mem_of_find?_eq_some hfind)
      cases hrecorded.unique hwriter hid
      obtain ⟨hlt, _⟩ := List.getElem?_eq_some_iff.mp hevent
      rw [write_written, if_pos rfl]
      exact hlt
    · rw [write_written, if_neg hid]
      exact h task hrecorded
  | join | record | draw => exact h
  | @spawn next hwithin =>
    intro task hrecorded
    obtain ⟨_, _, _, _, _, hnext⟩ := hin_step.within _ hwithin
    obtain ⟨more, hmore⟩ := next_state_activations (run_countsBounded hloop) hnext
    rw [Live.spawn, hmore] at hrecorded
    by_cases hold : task.id ∈ task_ids x.loop.activations
    · exact h task (hrecorded.of_mem_task_ids hold)
    · exact ((run_transcribed haccepted hreached).fresh task.id hold).trans_le (Nat.zero_le _)

variable (hpanic : ∀ task, (behave task).NoPanic) (hsmall : SmallOutputs ctx behave)
include hpanic hsmall

/-- The loop does not panic when it joins a task. -/
theorem exists_next_of_join (hrun : LiveRun ctx behave first_seq moves x) (hbetween : x.iteration = none) {task : Task}
    (hfind : x.loop.running.find? (fun other => other.id = task.id) = some task) (result : JoinResult) :
    ∃ next, next_state ctx x.loop ⟨task.id, result⟩ = some next := by
  have hloop := run_of_loop_run hpanic (run_joins_scripted hrun) ((run_in_step hrun).between hbetween)
  have hledger := run_ledger haccepted hloop
  have hshort : ShortJoins ctx x := by
    intro j hj outputs records hreturned
    obtain ⟨failures, hsucceeds⟩ := execute_node_success_iff.mp
      ⟨records, (run_joins_scripted hrun j hj).symm.trans hreturned⟩
    exact hsmall j.1 _ outputs hsucceeds.succeeded
  have hfan := run_fanIn haccepted hshort.small hloop
  apply exists_next_state hfind
  intro index state hindex hstate
  obtain ⟨items, state', hinstance⟩ := hfan.open_instance hledger (List.mem_of_find?_eq_some hfind) hindex
  have hslot := hinstance.slot_empty
  rw [hinstance.index] at hindex
  cases hindex
  rw [hinstance.state_eq] at hstate
  cases hstate
  exact (List.getElem?_eq_some_iff.mp hslot).1

/-- The move that is due can be made. -/
theorem due_enabled (hrun : LiveRun ctx behave first_seq moves x) (hdue : x.due ctx behave = some move) :
    ∃ y, live_step ctx behave x move = some y := by
  unfold Live.due at hdue
  split at hdue
  · rename_i next event rest hwithin
    cases hdue
    exact ⟨x.record next event rest, by simp [live_step, hwithin]⟩
  · rename_i next hwithin
    cases hdue
    exact ⟨x.spawn next, by simp [live_step, hwithin]⟩
  · rename_i hbetween
    obtain ⟨task, hhead, rfl⟩ := Option.map_eq_some_iff.mp hdue
    have hfind : x.loop.running.find? (fun other => other.id = task.id) = some task := by
      obtain ⟨rest, hrunning⟩ := List.head?_eq_some_iff.mp hhead
      rw [hrunning, List.find?_cons_of_pos (by simp)]
    split
    · rename_i hlt
      exact ⟨x.write task (script ctx behave task).1[x.written task.id], by simp [live_step, hfind, hlt]⟩
    · rename_i hwhole
      obtain ⟨_, hloop⟩ := (run_in_step hrun).loop_run
      have hrecorded := (run_ledger haccepted hloop).recorded task (List.mem_of_find?_eq_some hfind)
      have hwritten : x.written task.id = (script ctx behave task).1.length :=
        Nat.le_antisymm (run_written_le haccepted hrun task hrecorded) (Nat.not_lt.mp hwhole)
      obtain ⟨next, hnext⟩ := exists_next_of_join haccepted hpanic hsmall hrun hbetween hfind
        (script ctx behave task).2
      refine ⟨x.join task (script ctx behave task).2 next, ?_⟩
      simp only [live_step, hbetween, hfind, hwritten, ↓reduceIte, hnext, Option.map_some]

end Runs

end flow_engine.executor
