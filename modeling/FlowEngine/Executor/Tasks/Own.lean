import FlowEngine.Executor.Tasks.Ending
import FlowEngine.Runtime.Life

namespace flow_engine.executor

/-- A critical event of a run that neither begins nor ends it. -/
structure Own (run_id : String) (event : WriteEvent) : Prop where
  critical : event.is_critical = true
  of_run : event.run_id = run_id
  inner : event.brackets = (false, false)

section Attempts

variable {run_id : String} {task : Task} {timeout_ms max_attempts : Nat} {attempts : Nat → Attempt}

theorem execute_attempts_own {remaining attempt : Nat} {error : String} {records : List LlmInvocationRecord} :
    ∀ event ∈ (execute_attempts run_id task timeout_ms max_attempts attempts remaining attempt error records).1,
      Own run_id event := by
  induction remaining generalizing attempt error records with
  | zero => simp [execute_attempts]
  | succ remaining ih =>
    have hstarted : Own run_id (.NodeStarted 0 run_id task.node_id task.inputs task.fan_out_index attempt) := ⟨rfl, rfl, rfl⟩
    have hfailed : ∀ error will_retry, Own run_id (.NodeFailed 0 run_id task.node_id error will_retry attempt) :=
      fun _ _ => ⟨rfl, rfl, rfl⟩
    rw [execute_attempts]
    dsimp only
    cases (attempts attempt).result with
    | ok outputs =>
      simp only [List.forall_mem_cons]
      exact ⟨hstarted, ⟨rfl, rfl, rfl⟩, ⟨rfl, rfl, rfl⟩, by simp⟩
    | error node_error =>
      dsimp only
      split
      · simp only [List.forall_mem_cons]
        exact ⟨hstarted, hfailed _ _, ih⟩
      · simp only [List.forall_mem_cons]
        exact ⟨hstarted, hfailed _ _, by simp⟩
    | elapsed =>
      simp only [List.forall_mem_cons]
      exact ⟨hstarted, hfailed _ _, by simp⟩
    | panicked error =>
      simp only [List.forall_mem_cons]
      exact ⟨hstarted, by simp⟩

theorem script_own {ctx : RunContext} {behave : Task → Behaviour} {event : WriteEvent}
    (h : event ∈ (script ctx behave task).1) : Own ctx.run_id event :=
  execute_attempts_own event h

end Attempts

section Loop

variable {ctx : RunContext} {behave : Task → Behaviour} {s next : RunState} {c : Completion}

theorem next_state_own (hcounts : CountsBounded ctx s.edge_traversal_counts) (hstep : next_state ctx s c = some next) :
    ∃ events, next.log = s.log ++ events ∧ ∀ event ∈ events, Own ctx.run_id event := by
  obtain ⟨task, _, heffect⟩ := step_effect hstep
  have hjoined : (joined ctx s c task).log = s.log ++ invocation_events ctx (node_result task c.joined).llm_records := rfl
  have hrecords : ∀ event ∈ invocation_events ctx (node_result task c.joined).llm_records, Own ctx.run_id event := by
    intro event hevent
    obtain ⟨record, _, rfl⟩ := List.mem_map.mp hevent
    exact ⟨rfl, rfl, rfl⟩
  cases heffect with
  | @completes settled outputs from_fan_in hend houtputs hsame hactivations hlog =>
    rw [evaluate_downstream_eq (hsame ▸ hcounts), spawn_ready_nodes_log]
    refine ⟨_, by rw [hlog, hjoined, List.append_assoc], ?_⟩
    intro event hevent
    cases List.mem_append.mp hevent with
    | inl hrecord => exact hrecords event hrecord
    | inr hedge =>
      obtain ⟨edge, _, passed, rfl⟩ := mem_edge_events hedge
      exact ⟨rfl, rfl, rfl⟩
  | fails hend =>
    rw [proceed_after_failure_eq, spawn_ready_nodes_log]
    exact ⟨_, hjoined, hrecords⟩
  | waits hend houtputs hsame hactivations hlog => exact ⟨_, hlog.trans hjoined, hrecords⟩

/-- All that the executor writes is its own. -/
theorem run_own {first_seq : Nat} {moves : List Move} {x : Live}
    (hrun : LiveRun ctx behave first_seq moves x) :
    (∀ entry ∈ x.log, Own ctx.run_id entry.event) ∧ ∀ event ∈ x.unwritten, Own ctx.run_id event := by
  refine hrun.invariant (P := fun _ x => (∀ entry ∈ x.log, Own ctx.run_id entry.event) ∧
    ∀ event ∈ x.unwritten, Own ctx.run_id event) ?_ ?_
  · simp [initial_live, Live.unwritten]
  intro moves x move y run h _ hstep
  cases live_step_cases hstep with
  | write hfind hevent =>
    refine ⟨?_, h.2⟩
    rw [Live.write, List.forall_mem_append]
    refine ⟨h.1, ?_⟩
    simpa using script_own (List.mem_of_getElem? hevent)
  | join hbetween hfind hwritten hnext =>
    obtain ⟨_, hloop⟩ := (run_in_step run).loop_run
    obtain ⟨events, hlog, hown⟩ := next_state_own (run_countsBounded hloop) hnext
    refine ⟨h.1, ?_⟩
    simp only [Live.unwritten, Live.join]
    rw [hlog, List.drop_left]
    exact hown
  | record hwithin =>
    have hunwritten := h.2
    simp only [Live.unwritten, hwithin, List.forall_mem_cons] at hunwritten
    refine ⟨?_, hunwritten.2⟩
    rw [Live.record, List.forall_mem_append]
    refine ⟨h.1, ?_⟩
    simpa using hunwritten.1
  | spawn hwithin =>
    refine ⟨h.1, ?_⟩
    simp [Live.unwritten, Live.spawn]
  | draw => exact h

end Loop

/-- The execution once its run has recorded its start. -/
abbrev Live.opened (x : Live) (entry : Entry) : Live := { x with log := entry :: x.log }

section Opened

variable {ctx : RunContext} {behave : Task → Behaviour} {x : Live}

end Opened

end flow_engine.executor
