import Mathlib.Data.List.Basic

namespace broadcast

/-- A channel from many senders to receivers that each get every value. It keeps the last values
that were sent, oldest first, and counts all of them. -/
structure Channel (α : Type*) where
  capacity : Nat
  tail : Nat
  buffer : List α
  kept : buffer.length = min tail capacity

/-- What a receiver is told: a value, or how many it has missed. -/
inductive Told (α : Type*) where
  | value (a : α)
  | lagged (missed : Nat)

def Told.value? {α : Type*} : Told α → Option α
  | .value a => some a
  | .lagged _ => none

namespace Channel

variable {α : Type*}

/-- The capacity is rounded up to a power of two. -/
def new (capacity : Nat) : Channel α := ⟨capacity.nextPowerOfTwo, 0, [], (Nat.zero_min _).symm⟩

/-- The new value takes the place of the oldest one where the buffer is full. -/
def send (ch : Channel α) (a : α) : Channel α :=
  { ch with
    tail := ch.tail + 1
    buffer := (ch.buffer ++ [a]).drop (ch.buffer.length + 1 - ch.capacity)
    kept := by
      have hkept := ch.kept
      rw [List.length_drop, List.length_append, List.length_singleton]
      omega }

/-- A receiver that is about to read the value of that number is told of it, or of those before
the oldest one that is kept. It waits where there is none. -/
def recv (ch : Channel α) (next : Nat) : Option (Told α × Nat) :=
  if next < ch.tail - ch.buffer.length then
    some (.lagged (ch.tail - ch.buffer.length - next), ch.tail - ch.buffer.length)
  else (ch.buffer[next - (ch.tail - ch.buffer.length)]?).map fun a => (.value a, next + 1)

/-- All that has been sent to a channel. -/
structure Holds (ch : Channel α) (sent : List α) : Prop where
  tail : ch.tail = sent.length
  buffer : ch.buffer = sent.drop (sent.length - ch.capacity)

@[simp] theorem send_capacity (ch : Channel α) (a : α) : (ch.send a).capacity = ch.capacity := rfl

@[simp] theorem send_tail (ch : Channel α) (a : α) : (ch.send a).tail = ch.tail + 1 := rfl

@[simp] theorem send_buffer (ch : Channel α) (a : α) :
    (ch.send a).buffer = (ch.buffer ++ [a]).drop (ch.buffer.length + 1 - ch.capacity) := rfl

theorem holds_new (capacity : Nat) : Holds (new capacity : Channel α) [] := ⟨rfl, List.drop_nil.symm⟩

theorem Holds.send {ch : Channel α} {sent : List α} (h : Holds ch sent) (a : α) : Holds (ch.send a) (sent ++ [a]) := by
  constructor
  · rw [send_tail, h.tail, List.length_append, List.length_singleton]
  · have hkept : sent.length - ch.capacity ≤ sent.length := Nat.sub_le _ _
    have hbuffer : ch.buffer ++ [a] = (sent ++ [a]).drop (sent.length - ch.capacity) := by
      rw [h.buffer, List.drop_append_of_le_length hkept]
    have hlength : ch.buffer.length = sent.length - (sent.length - ch.capacity) := by rw [h.buffer, List.length_drop]
    rw [send_buffer, hbuffer, List.drop_drop, send_capacity, List.length_append, List.length_singleton]
    congr 1
    omega

theorem recv_value {ch : Channel α} {next after : Nat} {a : α} (h : ch.recv next = some (.value a, after)) : after = next + 1 := by
  unfold Channel.recv at h
  split at h
  · cases h
  · obtain ⟨_, _, heq⟩ := Option.map_eq_some_iff.mp h
    cases heq
    rfl

theorem new_capacity_pos (capacity : Nat) : 0 < (new capacity : Channel α).capacity :=
  Nat.pos_of_isPowerOfTwo (Nat.isPowerOfTwo_nextPowerOfTwo capacity)

/-- Nothing to receive: all of what was sent has been read. -/
theorem recv_none {ch : Channel α} {next : Nat} (hrecv : ch.recv next = none) : ch.tail ≤ next := by
  have hkept := ch.kept
  unfold Channel.recv at hrecv
  split at hrecv
  · cases hrecv
  · have hpast := List.getElem?_eq_none_iff.mp (Option.map_eq_none_iff.mp hrecv)
    omega

/-- What is read next is of what was sent. -/
theorem recv_next {ch : Channel α} {next after : Nat} {t : Told α} (hrecv : ch.recv next = some (t, after)) :
    next < after ∧ after ≤ ch.tail := by
  have hkept := ch.kept
  unfold Channel.recv at hrecv
  split at hrecv
  · cases hrecv
    omega
  · obtain ⟨a, hget, hpair⟩ := Option.map_eq_some_iff.mp hrecv
    obtain ⟨hlt, _⟩ := List.getElem?_eq_some_iff.mp hget
    cases hpair
    omega

end Channel

/-- How what a receiver was told covers a part of what was sent. -/
inductive Covers {α : Type*} : List α → List (Told α) → Prop
  | nil : Covers [] []
  | value {read : List α} {told : List (Told α)} (h : Covers read told) (a : α) : Covers (read ++ [a]) (told ++ [.value a])
  | lagged {read : List α} {told : List (Told α)} (h : Covers read told) (missed : List α) (hmissed : missed ≠ []) :
      Covers (read ++ missed) (told ++ [.lagged missed.length])

section Covers

variable {α : Type*} {read : List α} {told : List (Told α)}

/-- The values a receiver was told were sent in that order. -/
theorem Covers.sublist (h : Covers read told) : (told.filterMap Told.value?).Sublist read := by
  induction h with
  | nil => exact .slnil
  | value h a ih =>
    rw [List.filterMap_append]
    exact ih.append (List.Sublist.refl _)
  | lagged h missed hmissed ih =>
    rw [List.filterMap_append]
    exact ih.append (List.nil_sublist _)

/-- A receiver that never lagged was told all of them. -/
theorem Covers.complete (h : Covers read told) (hprompt : ∀ missed, .lagged missed ∉ told) :
    told.filterMap Told.value? = read := by
  induction h with
  | nil => rfl
  | value h a ih =>
    rw [List.filterMap_append, ih fun missed hmem => hprompt missed (List.mem_append_left _ hmem)]
    rfl
  | lagged h missed hmissed ih => exact absurd (List.mem_append_right _ (List.mem_singleton_self _)) (hprompt missed.length)

/-- What a receiver reads next: the next value, or the number of those it has fallen behind by more
than the capacity. -/
theorem Channel.Holds.recv {ch : Channel α} {sent : List α} (h : ch.Holds sent) {next after : Nat} {t : Told α}
    (hrecv : ch.recv next = some (t, after)) :
    (∃ a, t = .value a ∧ sent[next]? = some a ∧ after = next + 1 ∧ sent.length ≤ next + ch.capacity) ∨
      ∃ missed, t = .lagged missed ∧ 0 < missed ∧ after = next + missed ∧ after + ch.capacity = sent.length := by
  have hkept := ch.kept
  have htail := h.tail
  unfold Channel.recv at hrecv
  split at hrecv
  · rename_i hbehind
    simp only [Option.some.injEq, Prod.mk.injEq] at hrecv
    obtain ⟨rfl, rfl⟩ := hrecv
    exact .inr ⟨_, rfl, by omega, by omega, by omega⟩
  · rename_i hahead
    obtain ⟨a, hget, hpair⟩ := Option.map_eq_some_iff.mp hrecv
    simp only [Prod.mk.injEq] at hpair
    obtain ⟨rfl, rfl⟩ := hpair
    refine .inl ⟨a, rfl, ?_, rfl, by omega⟩
    rw [h.buffer, List.getElem?_drop] at hget
    rw [← hget]
    congr 1
    rw [List.length_drop]
    omega

/-- Where there is nothing to receive, all has been read. -/
theorem Channel.Holds.recv_none {ch : Channel α} {sent : List α} (h : ch.Holds sent) {next : Nat} (hrecv : ch.recv next = none) :
    sent.length ≤ next := by
  rw [← h.tail]
  exact Channel.recv_none hrecv

end Covers

/-- A task that reads from a channel, and hands on what it makes of a value before it reads the next. -/
structure Reader (β : Type*) where
  next : Nat
  pending : Option β
  stopped : Bool

namespace Reader

variable {α β : Type*}

/-- A reader that has just subscribed is told only of what is sent from now on. -/
def subscribe (ch : Channel α) : Reader β := ⟨ch.tail, none, false⟩

def told (r : Reader β) (f : α → Option β) (after : Nat) : Told α → Reader β
  | .value a => { r with next := after, pending := f a }
  | .lagged _ => { r with next := after }

def handed (r : Reader β) : Reader β := { r with pending := none }

def stop (r : Reader β) : Reader β := { r with stopped := true }

end Reader

/-- What a reader has read of the values that were sent since it subscribed, and handed on. -/
structure Tracks {α β : Type*} (f : α → Option β) (ch : Channel α) (r : Reader β) (published : List α) (told : List (Told α))
    (forwarded : List β) : Prop where
  read : ∃ read rest, published = read ++ rest ∧ Covers read told ∧
    (r.stopped = false → ∃ earlier, ch.Holds (earlier ++ published) ∧ r.next = earlier.length + read.length)
  handed : forwarded ++ r.pending.toList = (told.filterMap Told.value?).filterMap f
  behind : r.stopped = false → ∀ missed, told.getLast? = some (.lagged missed) → r.next + ch.capacity ≤ ch.tail

section Tracks

variable {α β : Type*} {f : α → Option β} {ch : Channel α} {r : Reader β} {published : List α} {told : List (Told α)}
variable {forwarded : List β}

theorem tracks_subscribe {sent : List α} (h : ch.Holds sent) : Tracks f ch (.subscribe ch) [] [] [] := by
  refine ⟨⟨[], [], rfl, .nil, fun _ => ⟨sent, ?_, ?_⟩⟩, rfl, fun _ missed hlast => by cases hlast⟩
  · rwa [List.append_nil]
  · rw [Reader.subscribe, h.tail, List.length_nil, Nat.add_zero]

theorem Tracks.send (h : Tracks f ch r published told forwarded) (a : α) :
    Tracks f (ch.send a) r (published ++ [a]) told forwarded := by
  obtain ⟨read, rest, hsplit, hcovers, hlive⟩ := h.read
  refine ⟨⟨read, rest ++ [a], by rw [hsplit, List.append_assoc], hcovers, fun hrunning => ?_⟩, h.handed, ?_⟩
  · obtain ⟨earlier, hholds, hnext⟩ := hlive hrunning
    refine ⟨earlier, ?_, hnext⟩
    rw [← List.append_assoc]
    exact hholds.send a
  · exact fun hrunning missed hlast => Nat.le_succ_of_le (h.behind hrunning missed hlast)

/-- What is sent after a reader has stopped is nothing to it. -/
theorem Tracks.stopped (h : Tracks f ch r published told forwarded) (hstopped : r.stopped = true) (other : Channel α)
    (more : List α) : Tracks f other r (published ++ more) told forwarded := by
  obtain ⟨read, rest, hsplit, hcovers, _⟩ := h.read
  refine ⟨⟨read, rest ++ more, by rw [hsplit, List.append_assoc], hcovers, fun hrunning => ?_⟩, h.handed, fun hrunning => ?_⟩
  · rw [hstopped] at hrunning
    cases hrunning
  · rw [hstopped] at hrunning
    cases hrunning

theorem Tracks.recv (h : Tracks f ch r published told forwarded) (hrunning : r.stopped = false) (hfree : r.pending = none)
    {t : Told α} {after : Nat} (hrecv : ch.recv r.next = some (t, after)) :
    Tracks f ch (r.told f after t) published (told ++ [t]) forwarded := by
  obtain ⟨read, rest, hsplit, hcovers, hlive⟩ := h.read
  obtain ⟨earlier, hholds, hnext⟩ := hlive hrunning
  have hhanded := h.handed
  rw [hfree, Option.toList_none, List.append_nil] at hhanded
  rcases hholds.recv hrecv with ⟨a, rfl, hget, rfl, _⟩ | ⟨missed, rfl, hpositive, rfl, hbehind⟩
  · have hrest : rest[0]? = some a := by
      rw [hsplit, ← List.append_assoc, List.getElem?_append_right (by rw [List.length_append]; omega), List.length_append,
        hnext, Nat.sub_self] at hget
      exact hget
    obtain ⟨tail, rfl⟩ : ∃ tail, rest = a :: tail := by
      cases rest with
      | nil => cases hrest
      | cons head tail => exact ⟨tail, by rw [Option.some.inj hrest]⟩
    refine ⟨⟨read ++ [a], tail, by rw [hsplit, List.append_assoc]; rfl, hcovers.value a, fun _ => ⟨earlier, hholds, ?_⟩⟩, ?_,
      fun _ missed hlast => ?_⟩
    · rw [Reader.told, List.length_append, List.length_singleton, hnext, Nat.add_assoc]
    · rw [List.filterMap_append, List.filterMap_append, ← hhanded]
      rw [Reader.told]
      cases hf : f a <;> simp [Told.value?, hf]
    · rw [List.getLast?_concat] at hlast
      cases hlast
  · have hlength : missed ≤ rest.length := by
      rw [hsplit] at hbehind
      simp only [List.length_append] at hbehind
      omega
    have hmissed : (rest.take missed).length = missed := List.length_take_of_le hlength
    have hsome : rest.take missed ≠ [] := by
      intro hnil
      rw [hnil] at hmissed
      exact absurd hmissed (Nat.ne_of_lt hpositive)
    have hcovers' := hcovers.lagged _ hsome
    rw [hmissed] at hcovers'
    refine ⟨⟨read ++ rest.take missed, rest.drop missed, ?_, hcovers', fun _ => ⟨earlier, hholds, ?_⟩⟩, ?_, fun _ _ _ => ?_⟩
    · rw [List.append_assoc, List.take_append_drop, hsplit]
    · rw [Reader.told, List.length_append, hmissed, hnext, Nat.add_assoc]
    · rw [List.filterMap_append, List.filterMap_append, ← hhanded, Reader.told, hfree]
      rfl
    · rw [hholds.tail]
      exact Nat.le_of_eq hbehind

theorem Tracks.hand (h : Tracks f ch r published told forwarded) {b : β} (hpending : r.pending = some b) :
    Tracks f ch r.handed published told (forwarded ++ [b]) := by
  refine ⟨h.read, ?_, h.behind⟩
  have hhanded := h.handed
  rw [hpending] at hhanded
  rw [← hhanded, Reader.handed, Option.toList_none, List.append_nil, Option.toList_some]

theorem Tracks.stop (h : Tracks f ch r published told forwarded) : Tracks f ch r.stop published told forwarded := by
  obtain ⟨read, rest, hsplit, hcovers, _⟩ := h.read
  exact ⟨⟨read, rest, hsplit, hcovers, fun hrunning => by cases hrunning⟩, h.handed, fun hrunning => by cases hrunning⟩

/-- A running reader that has nothing to receive has been told of all that was published. -/
theorem Tracks.read_up (h : Tracks f ch r published told forwarded) (hrunning : r.stopped = false)
    (hrecv : ch.recv r.next = none) : Covers published told := by
  obtain ⟨read, rest, hsplit, hcovers, hlive⟩ := h.read
  obtain ⟨earlier, hholds, hnext⟩ := hlive hrunning
  have hpast := hholds.recv_none hrecv
  have hrest : rest = [] := by
    rw [hsplit] at hpast
    simp only [List.length_append] at hpast
    exact List.eq_nil_of_length_eq_zero (by omega)
  rw [hsplit, hrest, List.append_nil]
  exact hcovers

/-- It was told of the last value itself, however far it had fallen behind. -/
theorem Tracks.told_last {earlier : List α} {a : α} (h : Tracks f ch r (earlier ++ [a]) told forwarded)
    (hrunning : r.stopped = false) (hcapacity : 0 < ch.capacity) (hrecv : ch.recv r.next = none) :
    ∃ before, told = before ++ [.value a] := by
  have hcovers := h.read_up hrunning hrecv
  generalize hpublished : earlier ++ [a] = published at h hcovers
  cases hcovers with
  | nil => simp at hpublished
  | @value read told hcovers b =>
    obtain ⟨_, hlast⟩ := List.append_inj' hpublished rfl
    cases hlast
    exact ⟨told, rfl⟩
  | lagged hcovers missed hmissed =>
    have hbehind := h.behind hrunning _ (List.getLast?_concat ..)
    obtain ⟨_, _, _, _, hlive⟩ := h.read
    obtain ⟨_, hholds, _⟩ := hlive hrunning
    have hpast := hholds.recv_none hrecv
    rw [← hholds.tail] at hpast
    omega

/-- A running reader lags only when more has been sent since it last read than the channel keeps. -/
theorem Tracks.not_lagged (h : Tracks f ch r published told forwarded) (hrunning : r.stopped = false)
    (hprompt : ch.tail ≤ r.next + ch.capacity) {missed after : Nat} : ch.recv r.next ≠ some (.lagged missed, after) := by
  intro hrecv
  obtain ⟨_, _, _, _, hlive⟩ := h.read
  obtain ⟨earlier, hholds, _⟩ := hlive hrunning
  rcases hholds.recv hrecv with ⟨a, heq, _⟩ | ⟨_, _, hpositive, hafter, hbehind⟩
  · cases heq
  · have htail := hholds.tail
    omega

end Tracks

end broadcast
