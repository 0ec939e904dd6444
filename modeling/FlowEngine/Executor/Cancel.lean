import FlowEngine.Executor.Runs
import FlowEngine.Lib.Oneshot

namespace flow_engine.executor

/-- The test at the head of the run loop. A dropped sender counts as a message. -/
def check_cancel (cancel_rx : oneshot.Sender) : Bool :=
  match oneshot.try_recv cancel_rx with
  | .ok () => true
  | .error .Closed => true
  | .error .Empty => false

/-- Where the task of a run is: at the head of its loop, waiting for a node's task, or
past the loop with the final status. -/
inductive LoopPhase where
  | head
  | select
  | finished (status : RunStatus)
  deriving DecidableEq

/-- A spawned run: the sender in its `ExecutionHandle`, and the loop with its
variables. -/
structure Execution where
  cancel : oneshot.Sender
  phase : LoopPhase
  state : RunState

/-- What can happen to a run: its owner sends or drops the sender, the loop passes its
head, or joins a finished task. -/
inductive ExecutionEvent where
  | send
  | drop
  | head
  | join (c : Completion)

/-- The run of a context when `execute` returns its handle. -/
def launch (ctx : RunContext) : Execution where
  cancel := .held
  phase := .head
  state := initial_state ctx

def execution_step (ctx : RunContext) (e : Execution) : ExecutionEvent → Option Execution
  | .send => (oneshot.send e.cancel).map fun cancel => { e with cancel := cancel }
  | .drop => (oneshot.drop e.cancel).map fun cancel => { e with cancel := cancel }
  | .head =>
    if e.phase = .head then
      if check_cancel e.cancel then some { e with phase := .finished (final_status ctx e.state true) }
      else if e.state.running.isEmpty then some { e with phase := .finished (final_status ctx e.state false) }
      else some { e with phase := .select }
    else none
  | .join c =>
    if e.phase = .select then
      (next_state ctx e.state c).map fun state => { e with phase := .head, state := state }
    else none

/-- The runs of an execution, with any behaviour of its tasks and of the owner of its
handle. -/
abbrev ExecutionRun (ctx : RunContext) : List ExecutionEvent → Execution → Prop :=
  transition.Run (execution_step ctx) (fun _ _ => True) (launch ctx)

theorem check_cancel_eq_false_iff {cancel_rx : oneshot.Sender} :
    check_cancel cancel_rx = false ↔ cancel_rx = .held := by
  cases cancel_rx <;> simp [check_cancel, oneshot.try_recv]

theorem final_status_cancelled (ctx : RunContext) (s : RunState) : final_status ctx s true = .Cancelled := by
  simp [final_status]

theorem final_status_not_cancelled (ctx : RunContext) (s : RunState) : final_status ctx s false ≠ .Cancelled := by
  unfold final_status
  simp only [Bool.false_eq_true, if_false]
  split
  · simp
  · split <;> simp

/-- Only sending the message makes the sender a used one. -/
theorem execution_step_sent {ctx : RunContext} {e next : Execution} {event : ExecutionEvent}
    (hstep : execution_step ctx e event = some next) :
    next.cancel = .sent ↔ e.cancel = .sent ∨ event = .send := by
  cases event with
  | send =>
    obtain ⟨cancel, hsend, rfl⟩ := Option.map_eq_some_iff.mp hstep
    cases hcancel : e.cancel <;> simp [hcancel, oneshot.send] at hsend
    simp [← hsend]
  | drop =>
    obtain ⟨cancel, hdrop, rfl⟩ := Option.map_eq_some_iff.mp hstep
    cases hcancel : e.cancel <;> simp [hcancel, oneshot.drop] at hdrop
    simp [← hdrop]
  | head =>
    have hsame : next.cancel = e.cancel := by
      simp only [execution_step] at hstep
      split at hstep
      · split at hstep
        · cases hstep
          rfl
        · split at hstep <;> cases hstep <;> rfl
      · cases hstep
    simp [hsame]
  | join c =>
    have hsame : next.cancel = e.cancel := by
      simp only [execution_step] at hstep
      split at hstep
      · obtain ⟨state, _, rfl⟩ := Option.map_eq_some_iff.mp hstep
        rfl
      · cases hstep
    simp [hsame]

/-- In every reached state the sender is used exactly if its owner has sent. -/
theorem run_sent_iff {ctx : RunContext} {events : List ExecutionEvent} {e : Execution}
    (hrun : ExecutionRun ctx events e) : e.cancel = .sent ↔ .send ∈ events := by
  refine hrun.invariant (P := fun events e => e.cancel = .sent ↔ .send ∈ events) ?_ ?_
  · simp [launch]
  · intro events e event next _ h _ hstep
    rw [execution_step_sent hstep, h, List.mem_append, List.mem_singleton]
    exact or_congr_right eq_comm

/-- A run that ends on its last loop head is cancelled only by a message, and otherwise
ends with no task in flight, exactly if the sender was not dropped unsent. -/
theorem ends_honestly_iff {ctx : RunContext} {events : List ExecutionEvent} {e last : Execution} {status : RunStatus}
    (hrun : ExecutionRun ctx events e) (hend : execution_step ctx e .head = some last)
    (hstatus : last.phase = .finished status) :
    ((status = .Cancelled → .send ∈ events) ∧ (.send ∉ events → e.state.running = [])) ↔ e.cancel ≠ .dropped := by
  have hsent := run_sent_iff hrun
  rw [← hsent]
  simp only [execution_step] at hend
  split at hend
  · cases hcancel : e.cancel with
    | held =>
      have hopen : check_cancel e.cancel = false := check_cancel_eq_false_iff.mpr hcancel
      rw [hopen, if_neg Bool.false_ne_true] at hend
      split at hend
      · rename_i hempty
        cases hend
        cases hstatus
        have hnot := final_status_not_cancelled ctx e.state
        simpa [hnot] using hempty
      · cases hend
        cases hstatus
    | sent => simp
    | dropped =>
      have hcheck : check_cancel e.cancel = true := by rw [hcancel]; rfl
      rw [if_pos hcheck] at hend
      cases hend
      cases hstatus
      simp [final_status_cancelled]
  · cases hend

end flow_engine.executor
