import FlowEngine.Engine.HumanInput

namespace flow_engine.human_input

open executor engine

/-- What a move can do. -/
inductive MoveCase (s : State) : Move → State → Prop
  | ask (key : Key) : MoveCase s (.ask key) { s with waiters := s.waiters ++ [⟨key, .registering⟩] }
  | lock {waiter : Nat} {w : Waiter} (hw : s.waiters[waiter]? = some w) (hregistering : w.phase = .registering) :
      MoveCase s (.lock waiter) { s with lock := some (.register waiter) }
  | register {waiter : Nat} {w : Waiter} (hlock : s.lock = some (.register waiter)) (hw : s.waiters[waiter]? = some w) :
      MoveCase s .register (s.register waiter w.key (Function.update s.registry w.key (some waiter)))
  | leave {waiter : Nat} {w : Waiter} {lock : Option Holder} (hw : s.waiters[waiter]? = some w)
      (hphase : w.phase = .waiting ∨ w.phase = .registering)
      (hlock : ∀ other, lock = some (.register other) →
        s.lock = some (.register other) ∧ (waiter = other → w.phase = .waiting)) :
      MoveCase s (.leave waiter) { s with lock, waiters := set_phase s.waiters waiter .gone }
  | provide (key : Key) (value : Value) :
      MoveCase s (.provide key value) { s with lock := some (.provide key value) }
  | contend (key : Key) (value : Value) :
      MoveCase s (.provide key value)
        { s with calls := s.calls ++ [⟨key, value, .error (.Execution "human input registry lock contention")⟩] }
  | send {key : Key} {value : Value} :
      MoveCase s .send
        (s.answer key value (send_input s.registry s.live key).1 (send_input s.registry s.live key).2)

theorem phase_eq_some {s : State} {waiter : Nat} {phase : Phase} (h : s.phase waiter = some phase) :
    ∃ w, s.waiters[waiter]? = some w ∧ w.phase = phase :=
  Option.map_eq_some_iff.mp h

theorem step_cases {s next : State} {move : Move} (h : step s move = some next) : MoveCase s move next := by
  cases move with
  | ask key =>
    cases h
    exact .ask key
  | lock waiter =>
    simp only [step] at h
    split at h
    · rename_i hfree
      obtain ⟨w, hw, hregistering⟩ := phase_eq_some (by simpa using (Bool.and_eq_true_iff.mp hfree).2)
      cases h
      exact .lock hw hregistering
    · cases h
  | register =>
    simp only [step] at h
    split at h
    · rename_i waiter hlock
      cases hw : s.waiters[waiter]? with
      | none =>
        rw [hw] at h
        cases h
      | some w =>
        rw [hw] at h
        cases h
        exact .register hlock hw
    · cases h
  | leave waiter =>
    simp only [step] at h
    split at h
    · rename_i hphase
      obtain ⟨w, hw, hwaiting⟩ := phase_eq_some hphase
      cases h
      exact .leave hw (Or.inl hwaiting) fun other hlock => ⟨hlock, fun _ => hwaiting⟩
    · rename_i holder hphase hlock
      obtain ⟨w, hw, hregistering⟩ := phase_eq_some hphase
      cases h
      refine .leave hw (Or.inr hregistering) fun other hother => ?_
      by_cases hholder : holder = waiter
      · rw [if_pos hholder] at hother
        cases hother
      · rw [if_neg hholder] at hother
        refine ⟨hother, fun hsame => absurd ?_ hholder⟩
        cases hlock.symm.trans hother
        exact hsame.symm
    · rename_i hphase hlock
      obtain ⟨w, hw, hregistering⟩ := phase_eq_some hphase
      cases h
      exact .leave hw (Or.inr hregistering) fun other hother => (hlock other hother).elim
    · cases h
  | provide key value =>
    simp only [step] at h
    split at h
    · cases h
      exact .provide key value
    · cases h
      exact .contend key value
  | send =>
    simp only [step] at h
    split at h
    · cases h
      exact .send
    · cases h

/-- Every move keeps the books of the registry. -/
theorem Registered.step {s next : State} {move : Move} (h : Registered s) (hstep : step s move = some next) :
    Registered next := by
  cases step_cases hstep with
  | ask key => exact h.ask key
  | @lock waiter w hw hregistering =>
    refine ⟨h.held, h.available, ?_, h.answers⟩
    intro other hother
    cases hother
    exact ⟨w, hw, hregistering⟩
  | register hlock hw =>
    obtain ⟨u, hu, hregistering⟩ := h.locked _ hlock
    cases hw.symm.trans hu
    exact h.register hw hregistering
  | @leave waiter w lock hw hphase hlock =>
    refine h.leave hw hphase fun other hother => ?_
    obtain ⟨hlocked, hwaiting⟩ := hlock other hother
    refine ⟨hlocked, ?_⟩
    rintro rfl
    obtain ⟨u, hu, hregistering⟩ := h.locked waiter hlocked
    cases hw.symm.trans hu
    cases (hwaiting rfl).symm.trans hregistering
  | provide key value => exact ⟨h.held, h.available, (fun _ hlock => nomatch hlock), h.answers⟩
  | contend key value => exact ⟨h.held, h.available, h.locked, h.answers.refuse key value _⟩
  | send => exact h.send _ _

theorem run_registered {moves : List Move} {s : State}
    (hrun : transition.Run step (fun _ _ => True) initial moves s) : Registered s := by
  refine hrun.invariant (P := fun _ s => Registered s) ?_ fun _ _ _ _ _ h _ hstep => h.step hstep
  refine ⟨by simp [initial], by simp [initial], by simp [initial], ?_⟩
  constructor <;> simp [initial]

/-- No waiter was woken because its sender was dropped. -/
def NoneCanceled (s : State) : Prop :=
  ∀ (waiter : Nat) (w : Waiter), s.waiters[waiter]? = some w → w.phase ≠ .canceled

/-- The move registers no waiter under the key of another that waits. -/
def Undisturbing (s : State) : Move → Prop
  | .register => ∀ waiter w other, s.lock = some (.register waiter) → s.waiters[waiter]? = some w →
      s.registry w.key = some other → s.live other = false
  | _ => True

section Step

variable {s next : State} {move : Move}

theorem noneCanceled_set_phase {waiters : List Waiter} {waiter : Nat} {w : Waiter} {phase : Phase}
    (hw : waiters[waiter]? = some w) (hbefore : w.phase ≠ .canceled) (hafter : phase ≠ .canceled) :
    (∀ (i : Nat) (v : Waiter), (set_phase waiters waiter phase)[i]? = some v → v.phase ≠ .canceled) ↔
      ∀ (i : Nat) (v : Waiter), waiters[i]? = some v → v.phase ≠ .canceled := by
  constructor
  · intro h i v hv hcanceled
    have hi : ¬ waiter = i := by
      rintro rfl
      cases hw.symm.trans hv
      exact hbefore hcanceled
    exact h i v (by rw [getElem?_set_phase, hv, Option.map_some, if_neg hi]) hcanceled
  · intro h i v hv hcanceled
    obtain ⟨u, hu, rfl⟩ := set_phase_some hv
    by_cases hi : waiter = i
    · rw [if_pos hi] at hcanceled
      exact hafter hcanceled
    · rw [if_neg hi] at hcanceled
      exact h i u hu hcanceled

/-- Dropping a sender cancels nobody exactly if nobody waits for it. -/
theorem noneCanceled_dropped (s : State) (key : Key) :
    (∀ (i : Nat) (v : Waiter), (s.dropped key)[i]? = some v → v.phase ≠ .canceled) ↔
      NoneCanceled s ∧ ∀ other, s.registry key = some other → s.live other = false := by
  constructor
  · intro hnone
    constructor
    · intro i v hv hcanceled
      refine hnone i ⟨v.key, _⟩ (by rw [getElem?_dropped, hv]; rfl) ?_
      rw [if_neg (by simp [hcanceled]), hcanceled]
    · intro other hother
      by_contra hlive
      obtain ⟨u, hu, hwaiting⟩ := State.live_iff.mp (by simpa using hlive)
      refine hnone other ⟨u.key, _⟩ (by rw [getElem?_dropped, hu]; rfl) ?_
      rw [if_pos ⟨hother, hwaiting⟩]
  · rintro ⟨hnone, hdead⟩ i v hv hcanceled
    rw [getElem?_dropped, Option.map_eq_some_iff] at hv
    obtain ⟨u, hu, rfl⟩ := hv
    dsimp only at hcanceled
    split at hcanceled
    · rename_i hlive
      have hdead := hdead i hlive.1
      rw [State.live_iff.mpr ⟨u, hu, hlive.2⟩] at hdead
      cases hdead
    · exact hnone i u hu hcanceled

/-- A move cancels nobody exactly if it does not register over a waiter. -/
theorem noneCanceled_step (h : Registered s) (hstep : step s move = some next) :
    NoneCanceled next ↔ NoneCanceled s ∧ Undisturbing s move := by
  cases step_cases hstep with
  | ask key =>
    refine Iff.trans ⟨?_, ?_⟩ (and_iff_left trivial).symm
    · intro hnone i w hw
      refine hnone i w ?_
      change (s.waiters ++ [_])[i]? = some w
      rwa [List.getElem?_append_left (List.getElem?_eq_some_iff.mp hw).1]
    · intro hnone i w hw
      change (s.waiters ++ [_])[i]? = some w at hw
      rw [List.getElem?_append] at hw
      split at hw
      · exact hnone i w hw
      · obtain ⟨_, rfl⟩ := List.getElem?_eq_some_iff.mp hw
        simp
  | lock hw hregistering => exact (and_iff_left trivial).symm
  | @register waiter w hlock hw =>
    obtain ⟨u, hu, hregistering⟩ := h.locked _ hlock
    cases hw.symm.trans hu
    have hbase : (s.dropped w.key)[waiter]? = some w := by
      rw [getElem?_dropped, hw, Option.map_some, hregistering, if_neg (by simp), ← hregistering]
    refine (noneCanceled_set_phase hbase (by simp [hregistering]) (by simp)).trans ?_
    rw [noneCanceled_dropped]
    refine and_congr_right fun _ => ⟨?_, fun hdead other hother => hdead waiter w other hlock hw hother⟩
    intro hdead waiter' w' other hlock' hw' hother
    cases hlock.symm.trans hlock'
    cases hw.symm.trans hw'
    exact hdead other hother
  | leave hw hphase hlock =>
    refine (noneCanceled_set_phase hw ?_ (by simp)).trans (and_iff_left trivial).symm
    cases hphase with
    | inl hwaiting => simp [hwaiting]
    | inr hregistering => simp [hregistering]
  | provide key value => exact (and_iff_left trivial).symm
  | contend key value => exact (and_iff_left trivial).symm
  | @send key value =>
    refine Iff.trans ?_ (and_iff_left trivial).symm
    unfold send_input
    cases hregistry : s.registry key with
    | none => exact Iff.rfl
    | some waiter =>
      dsimp only
      cases hlive : s.live waiter with
      | true =>
        obtain ⟨w, hw, hwaiting⟩ := State.live_iff.mp hlive
        exact noneCanceled_set_phase hw (by simp [hwaiting]) (by simp)
      | false => exact Iff.rfl

end Step

/-- The waiters are served as promised: a waiting node's sender can be found, no node is
woken by the loss of its sender, a call succeeds exactly if one waiter of its key received
its value, and as many successful calls as waiters serve all of them. -/
structure WaitersServed (s : State) : Prop where
  available : ∀ (waiter : Nat) (w : Waiter), s.waiters[waiter]? = some w → w.phase = .waiting →
    (send_input s.registry s.live w.key).2 = .ok waiter
  undisturbed : ∀ waiter error, s.received waiter ≠ some (.error error)
  answered : ∀ (call : Nat) (c : Call), s.calls[call]? = some c →
    (c.result = .ok () ↔ ∃! waiter, Receives s.waiters call c.key waiter)
  all_served : ∀ key, s.waiters.countP (fun w => w.key = key) = s.calls.countP (accepted key) →
    ∀ (waiter : Nat) (w : Waiter), s.waiters[waiter]? = some w → w.key = key →
      ∃ value, s.received waiter = some (.ok value)

section Served

variable {s : State}

theorem Registered.send_waiting (h : Registered s) {waiter : Nat} {w : Waiter} (hw : s.waiters[waiter]? = some w)
    (hwaiting : w.phase = .waiting) : (send_input s.registry s.live w.key).2 = .ok waiter := by
  rw [send_input, h.available waiter w hw hwaiting]
  dsimp only
  rw [if_pos (State.live_iff.mpr ⟨w, hw, hwaiting⟩)]

/-- A served waiter finds the value of its call. -/
theorem Registered.received_of_served (h : Registered s) {waiter : Nat} {w : Waiter} {call : Nat}
    (hw : s.waiters[waiter]? = some w) (hserved : w.phase = .served call) :
    ∃ c, s.calls[call]? = some c ∧ s.received waiter = some (.ok c.value) := by
  obtain ⟨c, hc, _⟩ := h.answers.served waiter w call hw hserved
  refine ⟨c, hc, ?_⟩
  have hphase : s.phase waiter = some (.served call) := by rw [State.phase, hw, Option.map_some, hserved]
  rw [State.received, hphase]
  dsimp only
  rw [hc, Option.map_some]

theorem Registered.received_error_iff (h : Registered s) (waiter : Nat) :
    (∃ error, s.received waiter = some (.error error)) ↔
      ∃ w, s.waiters[waiter]? = some w ∧ w.phase = .canceled := by
  constructor
  · rintro ⟨error, herror⟩
    unfold State.received at herror
    split at herror
    · rename_i call hphase
      obtain ⟨w, hw, hserved⟩ := phase_eq_some hphase
      obtain ⟨c, hc, _⟩ := h.received_of_served hw hserved
      rw [hc] at herror
      cases herror
    · rename_i hphase
      exact phase_eq_some hphase
    · cases herror
  · rintro ⟨w, hw, hcanceled⟩
    have hphase : s.phase waiter = some .canceled := by rw [State.phase, hw, Option.map_some, hcanceled]
    exact ⟨_, by rw [State.received, hphase]⟩

/-- A call succeeds exactly if one waiter of its key received its value. -/
theorem Answered.ok_iff {waiters : List Waiter} {calls : List Call} (h : Answered waiters calls) {call : Nat} {c : Call}
    (hc : calls[call]? = some c) : c.result = .ok () ↔ ∃! waiter, Receives waiters call c.key waiter := by
  constructor
  · intro hok
    obtain ⟨waiter, hreceives⟩ := h.answered call c hc hok
    obtain ⟨w, hw, _, hserved⟩ := hreceives
    refine ⟨waiter, ⟨w, hw, ‹_›, hserved⟩, ?_⟩
    rintro other ⟨w', hw', _, hserved'⟩
    exact h.once other waiter w' w call hw' hw hserved' hserved
  · rintro ⟨waiter, ⟨w, hw, _, hserved⟩, _⟩
    obtain ⟨c', hc', _, hok⟩ := h.served waiter w call hw hserved
    cases hc.symm.trans hc'
    exact hok

/-- As many successful calls as waiters of a key serve all of them. -/
theorem Registered.all_served (h : Registered s) {key : Key}
    (hcount : s.waiters.countP (fun w => w.key = key) = s.calls.countP (accepted key)) {waiter : Nat} {w : Waiter}
    (hw : s.waiters[waiter]? = some w) (hkey : w.key = key) : ∃ value, s.received waiter = some (.ok value) := by
  have hsplit : is_served key = fun w => is_served key w && decide (w.key = key) := by
    funext w
    by_cases hkey : w.key = key <;> simp [is_served, hkey]
  have hmem : w ∈ s.waiters.filter fun w => w.key = key :=
    List.mem_filter.mpr ⟨List.mem_of_getElem? hw, decide_eq_true hkey⟩
  rw [← h.answers.counted, List.countP_eq_length_filter, hsplit, ← List.countP_filter, eq_comm,
    List.countP_eq_length] at hcount
  have hserved := hcount w hmem
  rw [is_served, Bool.and_eq_true] at hserved
  cases hphase : w.phase with
  | served call =>
    obtain ⟨c, _, hreceived⟩ := h.received_of_served hw hphase
    exact ⟨_, hreceived⟩
  | _ => simp [hphase] at hserved

/-- The promise holds exactly if nobody was canceled. -/
theorem Registered.waitersServed_iff (h : Registered s) : WaitersServed s ↔ NoneCanceled s := by
  constructor
  · intro hserved waiter w hw hcanceled
    obtain ⟨error, herror⟩ := (h.received_error_iff waiter).mpr ⟨w, hw, hcanceled⟩
    exact hserved.undisturbed waiter error herror
  · intro hnone
    refine ⟨fun _ _ hw hwaiting => h.send_waiting hw hwaiting, ?_, fun _ _ hc => h.answers.ok_iff hc,
      fun _ hcount _ _ hw hkey => h.all_served hcount hw hkey⟩
    intro waiter error herror
    obtain ⟨w, hw, hcanceled⟩ := (h.received_error_iff waiter).mp ⟨error, herror⟩
    exact hnone waiter w hw hcanceled

end Served

/-- The waiters are served as promised after exactly the runs in which no waiter is
registered under the key of another that waits. -/
theorem waiters_served_iff {moves : List Move} {s : State}
    (hrun : transition.Run step (fun _ _ => True) initial moves s) :
    WaitersServed s ↔ transition.Run step Undisturbing initial moves s := by
  have hgood := hrun.holds_iff_good NoneCanceled Undisturbing (by simp [NoneCanceled, initial])
    fun _ _ _ _ hreached _ hstep => noneCanceled_step (run_registered hreached) hstep
  rw [(run_registered hrun).waitersServed_iff, hgood]
  exact ⟨fun h => h.mono fun _ _ hallowed => hallowed.2, fun h => h.mono fun _ _ hallowed => ⟨trivial, hallowed⟩⟩

/-- A node that is answered and asks again in the next round. -/
def rounds : List Move :=
  [.ask ("run", "H"), .lock 0, .register, .provide ("run", "H") (.bool true), .send, .ask ("run", "H"), .lock 1, .register]

theorem waiters_served_iff_sample : ∃ s, transition.Run step (fun _ _ => True) initial rounds s ∧
    s.live 1 = true ∧ WaitersServed s ∧ transition.Run step Undisturbing initial rounds s := by
  have hfold : (rounds.foldlM step initial).map (fun s => s.live 1 && s.waiters.all fun w => w.phase ≠ .canceled) =
      some true := by
    decide +kernel
  obtain ⟨s, hmoves, hread⟩ := Option.map_eq_some_iff.mp hfold
  rw [Bool.and_eq_true, List.all_eq_true] at hread
  obtain ⟨hlive, hnone⟩ := hread
  have hrun : transition.Run step (fun _ _ => True) initial rounds s := transition.run_of_foldlM hmoves
  have hserved : WaitersServed s :=
    (run_registered hrun).waitersServed_iff.mpr fun _ w hw => of_decide_eq_true (hnone w (List.mem_of_getElem? hw))
  exact ⟨s, hrun, hlive, hserved, (waiters_served_iff hrun).mp hserved⟩

/-- Two instances of a fan-out ask for input. -/
def crowd : List Move := [.ask ("run", "H"), .ask ("run", "H"), .lock 0, .register, .lock 1, .register]

/-- The second instance's registration cancels the first. -/
theorem second_registration_cancels : ∃ s, transition.Run step (fun _ _ => True) initial crowd s ∧
    s.received 0 = some (.error (.Fatal "Human input canceled")) ∧ ¬ WaitersServed s := by
  have hfold : (crowd.foldlM step initial).map (fun s => s.phase 0) = some (some .canceled) := by decide +kernel
  obtain ⟨s, hmoves, hphase⟩ := Option.map_eq_some_iff.mp hfold
  have hreceived : s.received 0 = some (.error (.Fatal "Human input canceled")) := by rw [State.received, hphase]
  exact ⟨s, transition.run_of_foldlM hmoves, hreceived, fun h => h.undisturbed 0 _ hreceived⟩

end flow_engine.human_input
