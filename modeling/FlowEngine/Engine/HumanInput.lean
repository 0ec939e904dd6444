import FlowEngine.Engine.Triggers
import FlowEngine.Executor.Node
import FlowEngine.Lib.Transition
import Mathlib.Logic.Function.Basic

namespace flow_engine.human_input

open executor engine

/-- A run and one of its nodes. The instances of a fan-out and the rounds of a cycle share it. -/
abbrev Key := String × String

/-- The senders that wait for input, each by the waiter that holds the receiver. -/
abbrev HumanInputRegistry := Key → Option Nat

/-- Insert the sender of a waiter, which drops the sender that was there. -/
def register_human_input (human_input_registry : Option HumanInputRegistry) (key : Key) (sender : Nat) :
    Except NodeError HumanInputRegistry :=
  match human_input_registry with
  | none => .error (.Fatal "human input registry not available")
  | some registry => .ok (Function.update registry key (some sender))

/-- Take a sender out of the registry and send to its waiter, with the lock held. -/
def send_input (registry : HumanInputRegistry) (live : Nat → Bool) (key : Key) :
    HumanInputRegistry × Except ExecutorError Nat :=
  match registry key with
  | none =>
    (registry, .error (.Execution ("no human input sender registered for run=" ++ key.1 ++ " node=" ++ key.2)))
  | some waiter =>
    (Function.update registry key none,
      if live waiter then .ok waiter else .error (.Execution "human input receiver dropped"))

inductive Phase where
  | registering
  | waiting
  | served (call : Nat)
  | canceled
  | gone
  deriving DecidableEq

/-- A node that asked for input. -/
structure Waiter where
  key : Key
  phase : Phase

/-- A call of `provide_input` that has returned. -/
structure Call where
  key : Key
  value : Value
  result : Except ExecutorError Unit

/-- Who holds the lock of the registry. -/
inductive Holder where
  | register (waiter : Nat)
  | provide (key : Key) (value : Value)

/-- The registry, the waiters in the order in which they asked, and the calls that returned. -/
structure State where
  registry : HumanInputRegistry
  lock : Option Holder
  waiters : List Waiter
  calls : List Call

inductive Move where
  | ask (key : Key)
  | lock (waiter : Nat)
  | register
  | leave (waiter : Nat)
  | provide (key : Key) (value : Value)
  | send

def initial : State := ⟨fun _ => none, none, [], []⟩

def set_phase (waiters : List Waiter) (waiter : Nat) (phase : Phase) : List Waiter :=
  waiters.modify waiter fun w => { w with phase }

def State.phase (s : State) (waiter : Nat) : Option Phase := s.waiters[waiter]?.map Waiter.phase

/-- The waiter has its receiver and its sender is in the registry. -/
def State.live (s : State) (waiter : Nat) : Bool := s.phase waiter = some .waiting

/-- The waiters once the sender of the key is dropped. -/
def State.dropped (s : State) (key : Key) : List Waiter :=
  match s.registry key with
  | none => s.waiters
  | some other => if s.live other then set_phase s.waiters other .canceled else s.waiters

/-- The registration of a waiter, once it holds the lock. -/
def State.register (s : State) (waiter : Nat) (key : Key) (registry : HumanInputRegistry) : State :=
  { s with
    registry
    lock := none
    waiters := set_phase (s.dropped key) waiter .waiting }

/-- A call returns, and the waiter that received the value is served. -/
def State.answer (s : State) (key : Key) (value : Value) (registry : HumanInputRegistry)
    (result : Except ExecutorError Nat) : State :=
  { s with
    registry
    lock := none
    waiters :=
      match result with
      | .ok waiter => set_phase s.waiters waiter (.served s.calls.length)
      | .error _ => s.waiters
    calls := s.calls ++ [⟨key, value, result.map fun _ => ()⟩] }

/-- The moves of the nodes and of the callers: `register_human_input` waits for the lock,
`provide_input` does not. -/
def step (s : State) : Move → Option State
  | .ask key => some { s with waiters := s.waiters ++ [⟨key, .registering⟩] }
  | .lock waiter =>
    if s.lock.isNone && s.phase waiter = some .registering then some { s with lock := some (.register waiter) } else none
  | .register =>
    match s.lock with
    | some (.register waiter) =>
      match s.waiters[waiter]? with
      | none => none
      | some w =>
        match register_human_input (some s.registry) w.key waiter with
        | .ok registry => some (s.register waiter w.key registry)
        | .error _ => none
    | _ => none
  | .leave waiter =>
    match s.phase waiter, s.lock with
    | some .waiting, _ => some { s with waiters := set_phase s.waiters waiter .gone }
    | some .registering, some (.register holder) =>
      some { s with
        lock := if holder = waiter then none else s.lock
        waiters := set_phase s.waiters waiter .gone }
    | some .registering, _ => some { s with waiters := set_phase s.waiters waiter .gone }
    | _, _ => none
  | .provide key value =>
    if s.lock.isNone then some { s with lock := some (.provide key value) }
    else some { s with
      calls := s.calls ++ [⟨key, value, .error (.Execution "human input registry lock contention")⟩] }
  | .send =>
    match s.lock with
    | some (.provide key value) =>
      some (s.answer key value (send_input s.registry s.live key).1 (send_input s.registry s.live key).2)
    | _ => none

/-- What the waiting node finds at its receiver, once there is something. -/
def State.received (s : State) (waiter : Nat) : Option (Except NodeError Value) :=
  match s.phase waiter with
  | some (.served call) => s.calls[call]?.map fun c => .ok c.value
  | some .canceled => some (.error (.Fatal "Human input canceled"))
  | _ => none

/-- A call of the key that succeeded. -/
def accepted (key : Key) (call : Call) : Bool := call.key = key && call.result.isOk

/-- A waiter of the key that was served. -/
def is_served (key : Key) (waiter : Waiter) : Bool :=
  waiter.key = key && match waiter.phase with
    | .served _ => true
    | _ => false

/-- The waiter received the value of the call. -/
def Receives (waiters : List Waiter) (call : Nat) (key : Key) (waiter : Nat) : Prop :=
  ∃ w, waiters[waiter]? = some w ∧ w.key = key ∧ w.phase = .served call

/-- Every successful call served one waiter. -/
structure Answered (waiters : List Waiter) (calls : List Call) : Prop where
  served : ∀ (waiter : Nat) (w : Waiter) (call : Nat), waiters[waiter]? = some w → w.phase = .served call →
    ∃ c, calls[call]? = some c ∧ c.key = w.key ∧ c.result = .ok ()
  answered : ∀ (call : Nat) (c : Call), calls[call]? = some c → c.result = .ok () →
    ∃ waiter, Receives waiters call c.key waiter
  once : ∀ (waiter other : Nat) (w w' : Waiter) (call : Nat), waiters[waiter]? = some w → waiters[other]? = some w' →
    w.phase = .served call → w'.phase = .served call → waiter = other
  counted : ∀ key, waiters.countP (is_served key) = calls.countP (accepted key)

/-- The registry holds the senders of the waiting, and of some that have gone. -/
structure Registered (s : State) : Prop where
  held : ∀ key waiter, s.registry key = some waiter → ∃ w, s.waiters[waiter]? = some w ∧ w.key = key ∧
    (w.phase = .waiting ∨ w.phase = .gone)
  available : ∀ (waiter : Nat) (w : Waiter), s.waiters[waiter]? = some w → w.phase = .waiting →
    s.registry w.key = some waiter
  locked : ∀ waiter, s.lock = some (.register waiter) → ∃ w, s.waiters[waiter]? = some w ∧ w.phase = .registering
  answers : Answered s.waiters s.calls

section Phases

variable {waiters : List Waiter} {waiter : Nat} {w : Waiter} {phase : Phase}

theorem getElem?_set_phase (i : Nat) : (set_phase waiters waiter phase)[i]? =
    waiters[i]?.map fun w => ⟨w.key, if waiter = i then phase else w.phase⟩ := by
  unfold set_phase
  rw [List.getElem?_modify]
  split
  · rfl
  · cases waiters[i]? <;> rfl

theorem set_phase_some {i : Nat} (h : (set_phase waiters waiter phase)[i]? = some w) :
    ∃ u, waiters[i]? = some u ∧ w = ⟨u.key, if waiter = i then phase else u.phase⟩ := by
  rw [getElem?_set_phase, Option.map_eq_some_iff] at h
  obtain ⟨u, hu, rfl⟩ := h
  exact ⟨u, hu, rfl⟩

theorem countP_set_phase {p : Waiter → Bool} (hw : waiters[waiter]? = some w) (hp : p w = false) :
    (set_phase waiters waiter phase).countP p = waiters.countP p + if p { w with phase } then 1 else 0 := by
  unfold set_phase
  induction waiters generalizing waiter with
  | nil => cases hw
  | cons head rest ih =>
    cases waiter with
    | zero =>
      cases hw
      rw [List.modify_zero_cons, List.countP_cons, List.countP_cons, hp]
      rfl
    | succ waiter =>
      rw [List.modify_succ_cons, List.countP_cons, List.countP_cons, ih hw]
      omega

end Phases

section Answers

variable {waiters : List Waiter} {calls : List Call}

/-- A node asks for input. -/
theorem Answered.ask (h : Answered waiters calls) (key : Key) : Answered (waiters ++ [⟨key, .registering⟩]) calls := by
  have hnew : ∀ {i : Nat} {w : Waiter} {call : Nat}, (waiters ++ [⟨key, .registering⟩])[i]? = some w →
      w.phase = .served call → waiters[i]? = some w := by
    intro i w call hw hphase
    rw [List.getElem?_append] at hw
    split at hw
    · exact hw
    · obtain ⟨hlt, rfl⟩ := List.getElem?_eq_some_iff.mp hw
      simp at hphase
  constructor
  · exact fun waiter w call hw hphase => h.served waiter w call (hnew hw hphase) hphase
  · intro call c hc hok
    obtain ⟨waiter, w, hw, hserved⟩ := h.answered call c hc hok
    refine ⟨waiter, w, ?_, hserved⟩
    rwa [List.getElem?_append_left (List.getElem?_eq_some_iff.mp hw).1]
  · exact fun waiter other w w' call hw hw' hphase hphase' =>
      h.once waiter other w w' call (hnew hw hphase) (hnew hw' hphase') hphase hphase'
  · intro k
    rw [List.countP_append, h.counted]
    simp [is_served]

/-- A waiter that was not served moves on without being served. -/
theorem Answered.set_phase (h : Answered waiters calls) {waiter : Nat} {w : Waiter} {phase : Phase}
    (hw : waiters[waiter]? = some w) (hbefore : ∀ call, w.phase ≠ .served call) (hafter : ∀ call, phase ≠ .served call) :
    Answered (human_input.set_phase waiters waiter phase) calls := by
  have hnew : ∀ {i : Nat} {v : Waiter} {call : Nat}, (human_input.set_phase waiters waiter phase)[i]? = some v →
      v.phase = .served call → waiters[i]? = some v := by
    intro i v call hv hphase
    obtain ⟨u, hu, rfl⟩ := set_phase_some hv
    by_cases hi : waiter = i
    · rw [if_pos hi] at hphase
      exact absurd hphase (hafter call)
    · rw [if_neg hi]
      exact hu
  constructor
  · exact fun waiter v call hv hphase => h.served waiter v call (hnew hv hphase) hphase
  · intro call c hc hok
    obtain ⟨other, v, hv, hkey, hphase⟩ := h.answered call c hc hok
    refine ⟨other, v, ?_, hkey, hphase⟩
    have hother : ¬ waiter = other := by
      rintro rfl
      cases hw.symm.trans hv
      exact hbefore call hphase
    rw [getElem?_set_phase, hv, Option.map_some, if_neg hother]
  · exact fun waiter other v v' call hv hv' hphase hphase' =>
      h.once waiter other v v' call (hnew hv hphase) (hnew hv' hphase') hphase hphase'
  · intro k
    have hnot : ∀ v : Waiter, (∀ call, v.phase ≠ .served call) → is_served k v = false := by
      intro v hv
      unfold is_served
      split
      · rename_i call hcall
        exact absurd hcall (hv call)
      · simp
    rw [countP_set_phase hw (hnot w hbefore), hnot _ hafter, ← h.counted]
    simp

/-- A call that fails serves nobody. -/
theorem Answered.refuse (h : Answered waiters calls) (key : Key) (value : Value) (error : ExecutorError) :
    Answered waiters (calls ++ [⟨key, value, .error error⟩]) := by
  constructor
  · intro waiter w call hw hphase
    obtain ⟨c, hc, hcall⟩ := h.served waiter w call hw hphase
    refine ⟨c, ?_, hcall⟩
    rwa [List.getElem?_append_left (List.getElem?_eq_some_iff.mp hc).1]
  · intro call c hc hok
    rw [List.getElem?_append] at hc
    split at hc
    · exact h.answered call c hc hok
    · obtain ⟨_, rfl⟩ := List.getElem?_eq_some_iff.mp hc
      simp at hok
  · exact h.once
  · intro k
    rw [List.countP_append, ← h.counted]
    simp [accepted, Except.isOk, Except.toBool]

/-- A call that succeeds serves the waiter whose sender it took. -/
theorem Answered.serve (h : Answered waiters calls) {waiter : Nat} {w : Waiter} (hw : waiters[waiter]? = some w)
    (hwaiting : w.phase = .waiting) (value : Value) :
    Answered (human_input.set_phase waiters waiter (.served calls.length)) (calls ++ [⟨w.key, value, .ok ()⟩]) := by
  have hold : ∀ {i : Nat} {c : Call}, calls[i]? = some c → (calls ++ [⟨w.key, value, .ok ()⟩])[i]? = some c := by
    intro i c hc
    rwa [List.getElem?_append_left (List.getElem?_eq_some_iff.mp hc).1]
  have hlt : ∀ (i : Nat) (v : Waiter) (call : Nat), waiters[i]? = some v → v.phase = .served call → call < calls.length := by
    intro i v call hv hphase
    obtain ⟨c, hc, _⟩ := h.served i v call hv hphase
    exact (List.getElem?_eq_some_iff.mp hc).1
  constructor
  · intro other v call hv hphase
    obtain ⟨u, hu, rfl⟩ := set_phase_some hv
    by_cases hother : waiter = other
    · subst hother
      cases hw.symm.trans hu
      rw [if_pos rfl] at hphase
      cases hphase
      exact ⟨_, List.getElem?_concat_length, rfl, rfl⟩
    · rw [if_neg hother] at hphase
      obtain ⟨c, hc, hcall⟩ := h.served other u call hu hphase
      exact ⟨c, hold hc, hcall⟩
  · intro call c hc hok
    rw [List.getElem?_append] at hc
    split at hc
    · obtain ⟨other, v, hv, hkey, hphase⟩ := h.answered call c hc hok
      have hother : ¬ waiter = other := by
        rintro rfl
        cases hw.symm.trans hv
        cases hwaiting.symm.trans hphase
      exact ⟨other, v, by rw [getElem?_set_phase, hv, Option.map_some, if_neg hother], hkey, hphase⟩
    · obtain ⟨hbound, rfl⟩ := List.getElem?_eq_some_iff.mp hc
      have hcall : call = calls.length := by
        simp only [List.length_singleton] at hbound
        omega
      subst hcall
      refine ⟨waiter, ⟨w.key, .served calls.length⟩, ?_, by simp, rfl⟩
      rw [getElem?_set_phase, hw, Option.map_some, if_pos rfl]
  · intro i j v v' call hv hv' hphase hphase'
    obtain ⟨u, hu, rfl⟩ := set_phase_some hv
    obtain ⟨u', hu', rfl⟩ := set_phase_some hv'
    dsimp only at hphase hphase'
    by_cases hi : waiter = i
    · by_cases hj : waiter = j
      · exact hi.symm.trans hj
      · rw [if_pos hi] at hphase
        rw [if_neg hj] at hphase'
        cases hphase
        exact absurd (hlt j u' _ hu' hphase') (Nat.lt_irrefl _)
    · rw [if_neg hi] at hphase
      by_cases hj : waiter = j
      · rw [if_pos hj] at hphase'
        cases hphase'
        exact absurd (hlt i u _ hu hphase) (Nat.lt_irrefl _)
      · rw [if_neg hj] at hphase'
        exact h.once i j u u' call hu hu' hphase hphase'
  · intro k
    rw [countP_set_phase hw (by simp [is_served, hwaiting]), h.counted, List.countP_append]
    by_cases hkey : w.key = k <;> simp [is_served, accepted, hkey, Except.isOk, Except.toBool]

end Answers

section Moves

variable {s : State}

theorem State.live_iff {waiter : Nat} :
    s.live waiter = true ↔ ∃ w, s.waiters[waiter]? = some w ∧ w.phase = .waiting := by
  simp [State.live, State.phase]

/-- Dropping the sender of a key cancels the waiter that holds its receiver. -/
theorem getElem?_dropped (key : Key) (i : Nat) : (s.dropped key)[i]? = s.waiters[i]?.map fun w =>
    ⟨w.key, if s.registry key = some i ∧ w.phase = .waiting then .canceled else w.phase⟩ := by
  unfold State.dropped
  cases hregistry : s.registry key with
  | none => cases s.waiters[i]? <;> simp
  | some other =>
    dsimp only
    split
    · rename_i hlive
      obtain ⟨w, hw, hwaiting⟩ := State.live_iff.mp hlive
      rw [getElem?_set_phase]
      by_cases hother : other = i
      · subst hother
        simp [hw, hwaiting]
      · simp [hother]
    · rename_i hlive
      cases hw : s.waiters[i]? with
      | none => rfl
      | some w =>
        have hnot : ¬ (some other = some i ∧ w.phase = .waiting) := by
          rintro ⟨hsame, hwaiting⟩
          cases hsame
          exact hlive (State.live_iff.mpr ⟨w, hw, hwaiting⟩)
        rw [Option.map_some, if_neg hnot]

theorem Answered.dropped (h : Answered s.waiters s.calls) (key : Key) : Answered (s.dropped key) s.calls := by
  unfold State.dropped
  cases s.registry key with
  | none => exact h
  | some other =>
    dsimp only
    split
    · rename_i hlive
      obtain ⟨w, hw, hwaiting⟩ := State.live_iff.mp hlive
      exact h.set_phase hw (by simp [hwaiting]) (by simp)
    · exact h

theorem Registered.ask (h : Registered s) (key : Key) :
    Registered { s with waiters := s.waiters ++ [⟨key, .registering⟩] } := by
  have hold : ∀ {i : Nat} {w : Waiter}, s.waiters[i]? = some w → (s.waiters ++ [⟨key, .registering⟩])[i]? = some w := by
    intro i w hw
    rwa [List.getElem?_append_left (List.getElem?_eq_some_iff.mp hw).1]
  refine ⟨?_, ?_, ?_, h.answers.ask key⟩
  · intro k waiter hk
    obtain ⟨w, hw, hkey⟩ := h.held k waiter hk
    exact ⟨w, hold hw, hkey⟩
  · intro waiter w hw hphase
    rw [List.getElem?_append] at hw
    split at hw
    · exact h.available waiter w hw hphase
    · obtain ⟨_, rfl⟩ := List.getElem?_eq_some_iff.mp hw
      simp at hphase
  · intro waiter hlock
    obtain ⟨w, hw, hphase⟩ := h.locked waiter hlock
    exact ⟨w, hold hw, hphase⟩

theorem Registered.register (h : Registered s) {waiter : Nat} {w : Waiter} (hw : s.waiters[waiter]? = some w)
    (hregistering : w.phase = .registering) :
    Registered (s.register waiter w.key (Function.update s.registry w.key (some waiter))) := by
  have hbase : (s.dropped w.key)[waiter]? = some w := by
    rw [getElem?_dropped, hw, Option.map_some, hregistering, if_neg (by simp), ← hregistering]
  refine ⟨?_, ?_, (fun _ hlock => nomatch hlock), ?_⟩
  · intro key i hi
    change Function.update s.registry w.key (some waiter) key = some i at hi
    by_cases hkey : key = w.key
    · subst hkey
      rw [Function.update_self] at hi
      cases hi
      refine ⟨⟨w.key, .waiting⟩, ?_, rfl, Or.inl rfl⟩
      rw [State.register, getElem?_set_phase, hbase, Option.map_some, if_pos rfl]
    · rw [Function.update_of_ne hkey] at hi
      obtain ⟨u, hu, hukey, hphase⟩ := h.held key i hi
      have hi_ne : ¬ waiter = i := by
        rintro rfl
        cases hw.symm.trans hu
        rw [hregistering] at hphase
        exact hphase.elim nofun nofun
      have hnot : ¬ (s.registry w.key = some i ∧ u.phase = .waiting) := by
        rintro ⟨hsame, _⟩
        obtain ⟨u', hu', hukey', _⟩ := h.held w.key i hsame
        cases hu.symm.trans hu'
        exact hkey (hukey.symm.trans hukey')
      refine ⟨u, ?_, hukey, hphase⟩
      rw [State.register, getElem?_set_phase, getElem?_dropped, hu, Option.map_some, Option.map_some, if_neg hi_ne,
        if_neg hnot]
  · intro i v hv hwaiting
    obtain ⟨u, hu, rfl⟩ := set_phase_some hv
    change Function.update s.registry w.key (some waiter) u.key = some i
    by_cases hi : waiter = i
    · subst hi
      cases hbase.symm.trans hu
      exact Function.update_self _ _ _
    · rw [if_neg hi] at hwaiting
      rw [getElem?_dropped, Option.map_eq_some_iff] at hu
      obtain ⟨t, ht, rfl⟩ := hu
      dsimp only at hwaiting ⊢
      by_cases hcanceled : s.registry w.key = some i ∧ t.phase = .waiting
      · rw [if_pos hcanceled] at hwaiting
        cases hwaiting
      · rw [if_neg hcanceled] at hwaiting
        have hsame := h.available i t ht hwaiting
        have hne : t.key ≠ w.key := fun heq => hcanceled ⟨heq ▸ hsame, hwaiting⟩
        rwa [Function.update_of_ne hne]
  · exact (h.answers.dropped w.key).set_phase hbase (by simp [hregistering]) (by simp)

/-- A waiter gives up, before it is registered or while it waits. -/
theorem Registered.leave (h : Registered s) {waiter : Nat} {w : Waiter} (hw : s.waiters[waiter]? = some w)
    (hphase : w.phase = .waiting ∨ w.phase = .registering) {lock : Option Holder}
    (hlock : ∀ other, lock = some (.register other) → s.lock = some (.register other) ∧ waiter ≠ other) :
    Registered { s with lock, waiters := set_phase s.waiters waiter .gone } := by
  refine ⟨?_, ?_, ?_, ?_⟩
  · intro key i hi
    obtain ⟨u, hu, hkey, hphase⟩ := h.held key i hi
    refine ⟨⟨u.key, if waiter = i then .gone else u.phase⟩, by rw [getElem?_set_phase, hu, Option.map_some], hkey, ?_⟩
    by_cases hi : waiter = i
    · exact Or.inr (if_pos hi)
    · dsimp only
      rwa [if_neg hi]
  · intro i v hv hwaiting
    obtain ⟨u, hu, rfl⟩ := set_phase_some hv
    by_cases hi : waiter = i
    · rw [if_pos hi] at hwaiting
      cases hwaiting
    · rw [if_neg hi] at hwaiting
      exact h.available i u hu hwaiting
  · intro other hother
    obtain ⟨hlocked, hne⟩ := hlock other hother
    obtain ⟨u, hu, hregistering⟩ := h.locked other hlocked
    refine ⟨u, ?_, hregistering⟩
    rw [getElem?_set_phase, hu, Option.map_some, if_neg hne]
  · apply h.answers.set_phase hw
    · cases hphase with
      | inl hwaiting => simp [hwaiting]
      | inr hregistering => simp [hregistering]
    · simp

/-- A call takes the sender of its key, and succeeds if the receiver is there. -/
theorem Registered.send (h : Registered s) (key : Key) (value : Value) :
    Registered (s.answer key value (send_input s.registry s.live key).1 (send_input s.registry s.live key).2) := by
  unfold send_input
  cases hregistry : s.registry key with
  | none => exact ⟨h.held, h.available, (fun _ hlock => nomatch hlock), h.answers.refuse key value _⟩
  | some waiter =>
    obtain ⟨w, hw, rfl, _⟩ := h.held key waiter hregistry
    -- the other senders are still those of the other keys
    have hothers : ∀ k i, Function.update s.registry w.key none k = some i →
        ∃ u, s.waiters[i]? = some u ∧ u.key = k ∧ (u.phase = .waiting ∨ u.phase = .gone) ∧ ¬ waiter = i := by
      intro k i hi
      by_cases hk : k = w.key
      · rw [hk, Function.update_self] at hi
        cases hi
      · rw [Function.update_of_ne hk] at hi
        obtain ⟨u, hu, hukey, hphase⟩ := h.held k i hi
        refine ⟨u, hu, hukey, hphase, ?_⟩
        rintro rfl
        cases hw.symm.trans hu
        exact hk hukey.symm
    have havailable : ∀ (i : Nat) (u : Waiter), s.waiters[i]? = some u → u.phase = .waiting → ¬ waiter = i →
        Function.update s.registry w.key none u.key = some i := by
      intro i u hu hwaiting hne
      have hsame := h.available i u hu hwaiting
      have hkey : u.key ≠ w.key := by
        intro heq
        rw [heq, hregistry] at hsame
        exact hne (Option.some.inj hsame)
      rwa [Function.update_of_ne hkey]
    dsimp only
    cases hlive : s.live waiter with
    | true =>
      obtain ⟨w', hw', hwaiting⟩ := State.live_iff.mp hlive
      cases hw.symm.trans hw'
      refine ⟨?_, ?_, (fun _ hlock => nomatch hlock), h.answers.serve hw hwaiting value⟩
      · intro k i hi
        obtain ⟨u, hu, hkey, hphase, hne⟩ := hothers k i hi
        exact ⟨u, by rw [if_pos rfl, State.answer, getElem?_set_phase, hu, Option.map_some, if_neg hne], hkey, hphase⟩
      · intro i v hv hphase
        obtain ⟨u, hu, rfl⟩ := set_phase_some hv
        by_cases hi : waiter = i
        · rw [if_pos hi] at hphase
          cases hphase
        · rw [if_neg hi] at hphase
          exact havailable i u hu hphase hi
    | false =>
      have hnot : ∀ u, s.waiters[waiter]? = some u → u.phase ≠ .waiting := by
        intro u hu hwaiting
        rw [State.live_iff.mpr ⟨u, hu, hwaiting⟩] at hlive
        cases hlive
      refine ⟨?_, ?_, (fun _ hlock => nomatch hlock), h.answers.refuse w.key value _⟩
      · intro k i hi
        obtain ⟨u, hu, hkey, hphase, _⟩ := hothers k i hi
        exact ⟨u, hu, hkey, hphase⟩
      · intro i u hu hphase
        refine havailable i u hu hphase ?_
        rintro rfl
        exact hnot u hu hphase

end Moves

end flow_engine.human_input
