import FlowEngine.Lib.Transition

namespace program

/-- A program of operations on a shared state. It ends with the error of an operation that fails. -/
inductive Program (Op : Type) (Answer : Op → Type) (α : Type) where
  | ret (result : α)
  | call (op : Op) (next : Answer op → Program Op Answer α)

/-- How an operation goes for its caller. One that fails may have had its effect. -/
inductive Outcome where
  | served
  | failed (error : String) (applied : Bool)

/-- The operation may have its effect. -/
def Outcome.Effective : Outcome → Prop
  | .served => True
  | .failed _ applied => applied = true

variable {State Op Call α : Type} {Answer : Op → Type}

/-- What operations do: each is one step, which may fail by itself. -/
abbrev Semantics (State Op : Type) (Answer : Op → Type) := State → (op : Op) → Except String (Answer op × State)

/-- The state an operation leaves. -/
def applied (apply : Semantics State Op Answer) (s : State) (op : Op) : State :=
  match apply s op with
  | .ok (_, next) => next
  | .error _ => s

/-- One operation of a program: what it leaves of the state and of the program. -/
def advance (apply : Semantics State Op Answer) (s : State) (op : Op) (next : Answer op → Program Op Answer α) :
    Outcome → State × Except String (Program Op Answer α)
  | .served =>
    match apply s op with
    | .ok (answer, after) => (after, .ok (next answer))
    | .error e => (s, .error e)
  | .failed e true => (applied apply s op, .error e)
  | .failed e false => (s, .error e)

/-- Run a program alone, with the outcomes of its operations. Without a next outcome it has
been cut off. -/
def exec (apply : Semantics State Op Answer) : Program Op Answer α → State → List Outcome → State × Option (Except String α)
  | .ret result, s, _ => (s, some (.ok result))
  | .call _ _, s, [] => (s, none)
  | .call op next, s, .served :: rest =>
    match apply s op with
    | .ok (answer, after) => exec apply (next answer) after rest
    | .error e => (s, some (.error e))
  | .call op _, s, .failed e true :: _ => (applied apply s op, some (.error e))
  | .call _ _, s, .failed e false :: _ => (s, some (.error e))

/-- Programs at work on one state. -/
structure Pool (State Op : Type) (Answer : Op → Type) (α : Type) where
  state : State
  programs : List (Program Op Answer α)

/-- A program is started, or one of those at work takes its next operation. One that is never
taken again has been cut off. -/
inductive PoolAction (Call : Type) where
  | start (call : Call)
  | take (index : Nat) (outcome : Outcome)

def pool_step (apply : Semantics State Op Answer) (body : Call → Program Op Answer α) (pool : Pool State Op Answer α) :
    PoolAction Call → Option (Pool State Op Answer α)
  | .start call => some { pool with programs := pool.programs ++ [body call] }
  | .take index outcome =>
    match pool.programs[index]? with
    | some (.call op next) =>
      match advance apply pool.state op next outcome with
      | (state, .ok rest) => some ⟨state, pool.programs.set index rest⟩
      | (state, .error _) => some ⟨state, pool.programs.eraseIdx index⟩
    | _ => none

/-- Where an operation takes effect, what the guard says of it holds. -/
def Guarded (Guard : State → Op → Prop) (pool : Pool State Op Answer α) (action : PoolAction Call) : Prop :=
  ∀ index outcome op next, action = .take index outcome → pool.programs[index]? = some (.call op next) →
    outcome.Effective → Guard pool.state op

/-- The interleavings of programs from a set of calls, whose operations are guarded. -/
abbrev Interleaving (apply : Semantics State Op Answer) (body : Call → Program Op Answer α) (calls : Set Call)
    (Guard : State → Op → Prop) : Pool State Op Answer α → List (PoolAction Call) → Pool State Op Answer α → Prop :=
  transition.Run (pool_step apply body) fun pool action =>
    (∀ call, action = .start call → call ∈ calls) ∧ Guarded Guard pool action

/-- All operations of a program are of a kind. -/
def OnlyCalls (P : Op → Prop) : Program Op Answer α → Prop
  | .ret _ => True
  | .call op next => P op ∧ ∀ answer, OnlyCalls P (next answer)

/-- The operations of programs at work are those of the calls. -/
theorem only_calls {apply : Semantics State Op Answer} {body : Call → Program Op Answer α} {calls : Set Call}
    {Guard : State → Op → Prop} {P : Op → Prop} (hbody : ∀ call ∈ calls, OnlyCalls P (body call)) {start : State}
    {actions : List (PoolAction Call)} {last : Pool State Op Answer α}
    (hrun : Interleaving apply body calls Guard ⟨start, []⟩ actions last) : ∀ p ∈ last.programs, OnlyCalls P p := by
  refine hrun.invariant (P := fun _ pool => ∀ p ∈ pool.programs, OnlyCalls P p) (fun p hmem => by cases hmem) ?_
  intro _ pool action next _ hpool hallowed hstep
  cases action with
  | start call =>
    cases hstep
    intro p hmem
    cases List.mem_append.mp hmem with
    | inl hold => exact hpool p hold
    | inr hnew => exact List.mem_singleton.mp hnew ▸ hbody call (hallowed.1 call rfl)
  | take index outcome =>
    simp only [pool_step] at hstep
    split at hstep
    · rename_i op rest hprogram
      obtain ⟨_, hnext⟩ := hpool _ (List.mem_of_getElem? hprogram)
      split at hstep
      · rename_i state left hadvance
        cases hstep
        intro p hmem
        cases List.mem_or_eq_of_mem_set hmem with
        | inl hold => exact hpool p hold
        | inr hnew =>
          subst hnew
          cases outcome with
          | served =>
            simp only [advance] at hadvance
            split at hadvance
            · cases hadvance
              exact hnext _
            · cases hadvance
          | failed e effect => cases effect <;> cases hadvance
      · cases hstep
        exact fun p hmem => hpool p (List.mem_of_mem_eraseIdx hmem)
    · cases hstep

/-- A call of an operation: its program ends there, with or without the effect, or goes on. -/
theorem exec_call (apply : Semantics State Op Answer) {p : Program Op Answer α} {op : Op}
    {next : Answer op → Program Op Answer α} (hp : p = .call op next) (s : State) (outcomes : List Outcome) :
    ((exec apply p s outcomes).1 = s ∨ ∃ answer, apply s op = .ok (answer, (exec apply p s outcomes).1)) ∧
        (∀ result, (exec apply p s outcomes).2 ≠ some (.ok result)) ∨
      ∃ answer after rest, apply s op = .ok (answer, after) ∧ exec apply p s outcomes = exec apply (next answer) after rest := by
  subst hp
  cases outcomes with
  | nil => exact .inl ⟨.inl rfl, fun result h => by cases h⟩
  | cons outcome rest =>
    cases happly : apply s op with
    | error e =>
      cases outcome with
      | served => simp [exec, happly]
      | failed e effect => cases effect <;> simp [exec, applied, happly]
    | ok reached =>
      obtain ⟨answer, after⟩ := reached
      cases outcome with
      | served => exact .inr ⟨answer, after, rest, rfl, by simp only [exec, happly]⟩
      | failed e effect =>
        cases effect with
        | true => exact .inl ⟨.inr ⟨answer, by simp only [exec, applied, happly]⟩, fun result h => by cases h⟩
        | false => exact .inl ⟨.inl rfl, fun result h => by cases h⟩

section Safe

variable {apply : Semantics State Op Answer} {Guard : State → Op → Prop} {Inv : State → Prop} {Rel : State → State → Prop}

/-- Whatever others do within a relation, a program whose operations are guarded keeps an invariant and
does likewise. -/
def Safe (apply : Semantics State Op Answer) (Guard : State → Op → Prop) (Inv : State → Prop) (Rel : State → State → Prop) :
    Program Op Answer α → State → Prop
  | .ret _, _ => True
  | .call op next, s => ∀ before, Inv before → Rel s before → Guard before op → ∀ answer after,
      apply before op = .ok (answer, after) →
      Inv after ∧ Rel before after ∧ Safe apply Guard Inv Rel (next answer) after

theorem Safe.mono (htrans : ∀ a b c, Rel a b → Rel b c → Rel a c) {p : Program Op Answer α} {s s' : State}
    (h : Safe apply Guard Inv Rel p s) (hrel : Rel s s') : Safe apply Guard Inv Rel p s' := by
  cases p with
  | ret => trivial
  | call op next => exact fun before hinv hrel' => h before hinv (htrans _ _ _ hrel hrel')

theorem Safe.applied (hrefl : ∀ a, Rel a a) {op : Op} {next : Answer op → Program Op Answer α} {s : State}
    (h : Safe apply Guard Inv Rel (.call op next) s) (hinv : Inv s) (hguard : Guard s op) :
    Inv (applied apply s op) ∧ Rel s (applied apply s op) := by
  unfold program.applied
  split
  · rename_i answer after happly
    obtain ⟨hafter, hrel, _⟩ := h s hinv (hrefl s) hguard answer after happly
    exact ⟨hafter, hrel⟩
  · exact ⟨hinv, hrefl s⟩

theorem Safe.advance (hrefl : ∀ a, Rel a a) {op : Op} {next : Answer op → Program Op Answer α} {s : State}
    (h : Safe apply Guard Inv Rel (.call op next) s) (hinv : Inv s) (outcome : Outcome)
    (hguard : outcome.Effective → Guard s op) :
    Inv (advance apply s op next outcome).1 ∧ Rel s (advance apply s op next outcome).1 ∧
      ∀ rest, (advance apply s op next outcome).2 = .ok rest →
        Safe apply Guard Inv Rel rest (advance apply s op next outcome).1 := by
  cases outcome with
  | served =>
    simp only [program.advance]
    split
    · rename_i answer after happly
      obtain ⟨hafter, hrel, hnext⟩ := h s hinv (hrefl s) (hguard trivial) answer after happly
      exact ⟨hafter, hrel, fun rest hrest => Except.ok.inj hrest ▸ hnext⟩
    · exact ⟨hinv, hrefl s, fun rest hrest => by cases hrest⟩
  | failed e effect =>
    cases effect with
    | true =>
      obtain ⟨hinv', hrel⟩ := h.applied hrefl hinv (hguard rfl)
      exact ⟨hinv', hrel, fun rest hrest => by cases hrest⟩
    | false => exact ⟨hinv, hrefl s, fun rest hrest => by cases hrest⟩

/-- A program that runs alone. -/
theorem Safe.exec (hrefl : ∀ a, Rel a a) (htrans : ∀ a b c, Rel a b → Rel b c → Rel a c) {p : Program Op Answer α}
    {s : State} (h : Safe apply (fun _ _ => True) Inv Rel p s) (hinv : Inv s) (outcomes : List Outcome) :
    Inv (exec apply p s outcomes).1 ∧ Rel s (exec apply p s outcomes).1 := by
  induction p generalizing s outcomes with
  | ret result => exact ⟨hinv, hrefl s⟩
  | call op next ih =>
    cases outcomes with
    | nil => exact ⟨hinv, hrefl s⟩
    | cons outcome rest =>
      cases outcome with
      | served =>
        simp only [program.exec]
        split
        · rename_i answer after happly
          obtain ⟨hafter, hrel, hnext⟩ := h s hinv (hrefl s) trivial answer after happly
          obtain ⟨hlast, hrel'⟩ := ih answer hnext hafter rest
          exact ⟨hlast, htrans _ _ _ hrel hrel'⟩
        · exact ⟨hinv, hrefl s⟩
      | failed e effect =>
        cases effect with
        | true => exact h.applied hrefl hinv trivial
        | false => exact ⟨hinv, hrefl s⟩

/-- A pool in whose state the invariant holds, of safe programs. -/
structure SafePool (apply : Semantics State Op Answer) (Guard : State → Op → Prop) (Inv : State → Prop)
    (Rel : State → State → Prop) (pool : Pool State Op Answer α) : Prop where
  inv : Inv pool.state
  safe : ∀ p ∈ pool.programs, Safe apply Guard Inv Rel p pool.state

theorem SafePool.step (hrefl : ∀ a, Rel a a) (htrans : ∀ a b c, Rel a b → Rel b c → Rel a c)
    {body : Call → Program Op Answer α} {calls : Set Call}
    (hbody : ∀ call ∈ calls, ∀ s, Inv s → Safe apply Guard Inv Rel (body call) s) {pool next : Pool State Op Answer α}
    (h : SafePool apply Guard Inv Rel pool) {action : PoolAction Call} (hallowed : ∀ call, action = .start call → call ∈ calls)
    (hguarded : Guarded Guard pool action) (hstep : pool_step apply body pool action = some next) :
    SafePool apply Guard Inv Rel next ∧ Rel pool.state next.state := by
  cases action with
  | start call =>
    cases hstep
    refine ⟨⟨h.inv, fun p hmem => ?_⟩, hrefl _⟩
    cases List.mem_append.mp hmem with
    | inl hold => exact h.safe p hold
    | inr hnew => exact List.mem_singleton.mp hnew ▸ hbody call (hallowed call rfl) _ h.inv
  | take index outcome =>
    simp only [pool_step] at hstep
    split at hstep
    · rename_i op rest hprogram
      obtain ⟨hinv, hrel, hsafe⟩ := (h.safe _ (List.mem_of_getElem? hprogram)).advance hrefl h.inv outcome
        (hguarded index outcome op rest rfl hprogram)
      have hothers : ∀ p ∈ pool.programs, Safe apply Guard Inv Rel p (program.advance apply pool.state op rest outcome).1 :=
        fun p hmem => (h.safe p hmem).mono htrans hrel
      split at hstep
      · rename_i state left hadvance
        cases hstep
        rw [hadvance] at hinv hrel hsafe hothers
        refine ⟨⟨hinv, fun p hmem => ?_⟩, hrel⟩
        cases List.mem_or_eq_of_mem_set hmem with
        | inl hold => exact hothers p hold
        | inr hnew => exact hnew ▸ hsafe left rfl
      · rename_i state e hadvance
        cases hstep
        rw [hadvance] at hinv hrel hothers
        exact ⟨⟨hinv, fun p hmem => hothers p (List.mem_of_mem_eraseIdx hmem)⟩, hrel⟩
    · cases hstep

/-- The rule for interleavings: programs that are safe each for itself are so together. -/
theorem SafePool.run (hrefl : ∀ a, Rel a a) (htrans : ∀ a b c, Rel a b → Rel b c → Rel a c)
    {body : Call → Program Op Answer α} {calls : Set Call}
    (hbody : ∀ call ∈ calls, ∀ s, Inv s → Safe apply Guard Inv Rel (body call) s) {start last : Pool State Op Answer α}
    (h : SafePool apply Guard Inv Rel start) {actions : List (PoolAction Call)}
    (hrun : Interleaving apply body calls Guard start actions last) :
    SafePool apply Guard Inv Rel last ∧ Rel start.state last.state := by
  refine hrun.invariant (P := fun _ pool => SafePool apply Guard Inv Rel pool ∧ Rel start.state pool.state) ⟨h, hrefl _⟩ ?_
  intro _ pool action next _ hpool hallowed hstep
  obtain ⟨hnext, hrel⟩ := hpool.1.step hrefl htrans hbody hallowed.1 hallowed.2 hstep
  exact ⟨hnext, htrans _ _ _ hpool.2 hrel⟩

end Safe

end program
