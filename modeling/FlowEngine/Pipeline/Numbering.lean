import FlowEngine.Pipeline.Runs
import Mathlib.Data.List.Perm.Subperm
import Mathlib.Data.List.Nodup

namespace flow_engine.write_pipeline

/-- What the writers see of a pipeline. -/
def PipelineState.writers (s : PipelineState) : Nat × List (Nat × WriteEvent) × List Source :=
  (s.next_seq, s.waiting, s.accepted)

variable {p : WritePipeline} {s next : PipelineState}

theorem flush_and_return_writers (s : PipelineState) : s.flush_and_return.writers = s.writers := by
  unfold PipelineState.flush_and_return
  split <;> rfl

theorem resume_at_writers (s : PipelineState) (resume : Resume) : (s.resume_at resume).writers = s.writers := by
  cases resume <;> rfl

/-- A step of the flush loop numbers and accepts nothing. -/
theorem proceed_writers {elapsed : Bool} (hstep : proceed p s elapsed = some next) : next.writers = s.writers := by
  cases proceed_moves hstep with
  | closes_last | drained => exact flush_and_return_writers _
  | stores | rebuffers => exact resume_at_writers _ _
  | _ => rfl

/-- The numbers given out to events that wait or have been accepted. -/
def PipelineState.numbers (s : PipelineState) : List Nat :=
  s.waiting.map Prod.fst ++ s.accepted.map Source.number

/-- No number is given out twice. -/
structure Numbered (s : PipelineState) : Prop where
  distinct : s.numbers.Nodup
  below : ∀ n ∈ s.numbers, n < s.next_seq

theorem Numbered.subperm (h : Numbered s) (hnumbers : next.numbers.Subperm s.numbers) (hnext : s.next_seq ≤ next.next_seq) :
    Numbered next := by
  constructor
  · obtain ⟨kept, hperm, hsublist⟩ := hnumbers
    exact hperm.nodup_iff.mp (h.distinct.sublist hsublist)
  · intro n hmem
    have hlt := h.below n (hnumbers.subset hmem)
    omega

/-- The next number is given out. -/
theorem Numbered.give (h : Numbered s) (hnumbers : next.numbers.Perm (s.next_seq :: s.numbers))
    (hnext : next.next_seq = s.next_seq + 1) : Numbered next := by
  constructor
  · rw [hnumbers.nodup_iff, List.nodup_cons]
    exact ⟨fun hmem => absurd (h.below _ hmem) (Nat.lt_irrefl _), h.distinct⟩
  · intro n hmem
    rw [hnumbers.mem_iff, List.mem_cons] at hmem
    cases hmem with
    | inl heq => omega
    | inr hold =>
      have hlt := h.below n hold
      omega

/-- A number that waits is lost with its event. -/
theorem Numbered.erase (h : Numbered s) (index : Nat) : Numbered { s with waiting := s.waiting.eraseIdx index } := by
  refine h.subperm (List.Sublist.subperm ?_) (Nat.le_refl _)
  exact ((List.eraseIdx_sublist _ _).map _).append_right _

/-- Or it is accepted. -/
theorem Numbered.send (h : Numbered s) {index : Nat} {label : Nat × WriteEvent} (hlabel : s.waiting[index]? = some label)
    (channels : Lane → mpsc.Channel Entry) :
    Numbered { s with
      waiting := s.waiting.eraseIdx index
      channels
      accepted := s.accepted ++ [s.waiting_source label] } := by
  obtain ⟨hlt, hget⟩ := List.getElem?_eq_some_iff.mp hlabel
  refine h.subperm (List.Perm.subperm ?_) (Nat.le_refl _)
  have hperm := (List.getElem_cons_eraseIdx_perm hlt).map Prod.fst
  rw [hget, List.map_cons] at hperm
  simp only [PipelineState.numbers, PipelineState.waiting_source, List.map_append, List.map_cons, List.map_nil]
  rw [← List.append_assoc]
  refine (List.perm_append_comm).trans ?_
  rw [← List.append_assoc]
  exact hperm.append_right _

theorem Numbered.step (h : Numbered s) {action : PipelineAction} (hstep : pipeline_step p s action = some next) :
    Numbered next := by
  cases pipeline_moves hstep with
  | proceeds elapsed next hproceed =>
    have hwriters := proceed_writers hproceed
    simp only [PipelineState.writers, Prod.mk.injEq] at hwriters
    obtain ⟨hseq, hwaiting, haccepted⟩ := hwriters
    refine h.subperm ?_ hseq.ge
    rw [PipelineState.numbers, hwaiting, haccepted]
    exact List.Subperm.refl _
  | writes event =>
    refine h.give ?_ rfl
    simp only [PipelineState.numbers, PipelineState.write, List.map_append, List.map_cons, List.map_nil,
      List.append_assoc, List.singleton_append]
    exact List.perm_middle
  | sends index label ch hlabel => exact h.send hlabel _
  | gives_up index | abandons index => exact h.erase index
  | tries event =>
    -- an advisory event takes the next number, also when it is dropped
    refine h.give ?_ rfl
    simp only [PipelineState.numbers, PipelineState.tried_source, List.map_append, List.map_cons, List.map_nil,
      ← List.append_assoc]
    exact List.perm_append_singleton _ _
  | drops => exact h.subperm (List.Subperm.refl _) (Nat.le_succ _)
  | closes | signals => exact h.subperm (List.Subperm.refl _) (Nat.le_refl _)

theorem run_numbered {actions : List PipelineAction} (hrun : PipelineRun p actions s) : Numbered s := by
  refine hrun.invariant (P := fun _ s => Numbered s) ?_ fun _ _ _ _ _ h _ hstep => h.step hstep
  exact ⟨by simp [PipelineState.numbers, spawn], by simp [PipelineState.numbers, spawn]⟩

end flow_engine.write_pipeline
