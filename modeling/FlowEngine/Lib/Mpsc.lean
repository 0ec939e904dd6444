import Mathlib.Data.List.Basic

namespace mpsc

/-- A bounded channel from many senders to one receiver: the messages in it, oldest
first, and whether a sender and the receiver are left. -/
structure Channel (α : Type*) where
  capacity : Nat
  queue : List α
  bounded : queue.length ≤ capacity
  senders : Bool
  receiver : Bool

inductive TrySendError where
  | Full
  | Closed
  deriving DecidableEq

/-- What the receiver finds when it looks. -/
inductive Received (α : Type*) where
  | message (x : α)
  | empty
  | disconnected

namespace Channel

variable {α : Type*}

def new (capacity : Nat) : Channel α := ⟨capacity, [], Nat.zero_le _, true, true⟩

/-- The receiver looks for a message: it finds the channel disconnected once the channel is
empty and no sender is left. -/
def peek (ch : Channel α) : Received α :=
  match ch.queue with
  | x :: _ => .message x
  | [] => if ch.senders then .empty else .disconnected

/-- The channel after the receiver has taken the oldest message. -/
def taken (ch : Channel α) : Channel α :=
  { ch with
    queue := ch.queue.tail
    bounded := by
      have hlen := List.length_tail (l := ch.queue)
      have hbounded := ch.bounded
      omega }

/-- Sending without waiting. -/
def try_send (ch : Channel α) (x : α) : Except TrySendError (Channel α) :=
  if ch.receiver = false then .error .Closed
  else if hroom : ch.queue.length < ch.capacity then
    .ok { ch with
      queue := ch.queue ++ [x]
      bounded := by
        rw [List.length_append]
        exact hroom }
  else .error .Full

/-- The last sender is dropped. -/
def close_senders (ch : Channel α) : Channel α := { ch with senders := false }

/-- The receiver is dropped, and with it what is still in the channel. -/
def close_receiver (ch : Channel α) : Channel α :=
  { ch with queue := [], bounded := Nat.zero_le _, receiver := false }

@[simp] theorem new_queue (capacity : Nat) : (new capacity : Channel α).queue = [] := rfl
@[simp] theorem new_senders (capacity : Nat) : (new capacity : Channel α).senders = true := rfl
@[simp] theorem new_receiver (capacity : Nat) : (new capacity : Channel α).receiver = true := rfl
@[simp] theorem taken_queue (ch : Channel α) : ch.taken.queue = ch.queue.tail := rfl
@[simp] theorem taken_senders (ch : Channel α) : ch.taken.senders = ch.senders := rfl
@[simp] theorem taken_receiver (ch : Channel α) : ch.taken.receiver = ch.receiver := rfl
@[simp] theorem close_senders_queue (ch : Channel α) : ch.close_senders.queue = ch.queue := rfl
@[simp] theorem close_senders_senders (ch : Channel α) : ch.close_senders.senders = false := rfl
@[simp] theorem close_senders_receiver (ch : Channel α) : ch.close_senders.receiver = ch.receiver := rfl
@[simp] theorem close_receiver_queue (ch : Channel α) : ch.close_receiver.queue = [] := rfl
@[simp] theorem close_receiver_senders (ch : Channel α) : ch.close_receiver.senders = ch.senders := rfl
@[simp] theorem close_receiver_receiver (ch : Channel α) : ch.close_receiver.receiver = false := rfl

/-- A send succeeds only while there is a receiver, and puts the message last. -/
theorem try_send_ok {ch next : Channel α} {x : α} (h : ch.try_send x = .ok next) :
    ch.receiver = true ∧ next.queue = ch.queue ++ [x] ∧ next.senders = ch.senders ∧ next.receiver = ch.receiver := by
  unfold try_send at h
  split at h
  · cases h
  · rename_i hreceiver
    split at h
    · cases h
      exact ⟨by simpa using hreceiver, rfl, rfl, rfl⟩
    · cases h

/-- It fails for want of a receiver or for want of room. -/
theorem try_send_error {ch : Channel α} {x : α} {e : TrySendError} (h : ch.try_send x = .error e) :
    (e = .Closed ∧ ch.receiver = false) ∨ (e = .Full ∧ ch.capacity ≤ ch.queue.length) := by
  unfold try_send at h
  split at h
  · cases h
    exact Or.inl ⟨rfl, ‹_›⟩
  · split at h
    · cases h
    · cases h
      exact Or.inr ⟨rfl, by omega⟩

theorem try_send_room {ch next : Channel α} {x : α} (h : ch.try_send x = .ok next) : ch.queue.length < ch.capacity := by
  unfold try_send at h
  split at h
  · cases h
  · split at h
    · assumption
    · cases h

theorem try_send_capacity {ch next : Channel α} {x : α} (h : ch.try_send x = .ok next) : next.capacity = ch.capacity := by
  unfold try_send at h
  split at h
  · cases h
  · split at h
    · cases h
      rfl
    · cases h

theorem peek_message {ch : Channel α} {x : α} (h : ch.peek = .message x) :
    ch.queue = x :: ch.taken.queue := by
  unfold peek at h
  split at h
  · rename_i hqueue
    cases h
    rw [taken_queue, hqueue, List.tail_cons]
  · split at h <;> cases h

theorem peek_empty {ch : Channel α} (h : ch.peek = .empty) : ch.queue = [] := by
  unfold peek at h
  split at h
  · cases h
  · assumption

theorem peek_disconnected {ch : Channel α} (h : ch.peek = .disconnected) :
    ch.queue = [] ∧ ch.senders = false := by
  unfold peek at h
  split at h
  · cases h
  · rename_i hqueue
    split at h
    · cases h
    · rename_i hsenders
      exact ⟨hqueue, by simpa using hsenders⟩

/-- What a receiver has taken of what was sent. What is still in the channel is lost with the receiver. -/
structure Conveys (ch : Channel α) (sent taken : List α) : Prop where
  first : taken <+: sent
  rest : ch.receiver = true → sent = taken ++ ch.queue
  closed : ch.receiver = false → ch.queue = []

section Conveys

variable {ch : Channel α} {sent taken : List α}

theorem conveys_new (capacity : Nat) : (new capacity : Channel α).Conveys [] [] :=
  ⟨List.prefix_rfl, fun _ => rfl, fun _ => rfl⟩

theorem Conveys.send (h : ch.Conveys sent taken) {next : Channel α} {x : α} (hsend : ch.try_send x = .ok next) :
    next.Conveys (sent ++ [x]) taken := by
  obtain ⟨hreceiver, hqueue, _, hsame⟩ := try_send_ok hsend
  refine ⟨h.first.trans (List.prefix_append _ _), fun _ => ?_, fun hclosed => ?_⟩
  · rw [h.rest hreceiver, hqueue, List.append_assoc]
  · rw [hsame, hreceiver] at hclosed
    cases hclosed

theorem Conveys.take (h : ch.Conveys sent taken) {x : α} {rest : List α} (hqueue : ch.queue = x :: rest) :
    ch.taken.Conveys sent (taken ++ [x]) := by
  have hreceiver : ch.receiver = true := by
    by_contra hclosed
    rw [h.closed (by simpa using hclosed)] at hqueue
    cases hqueue
  have hall : sent = taken ++ [x] ++ rest := by
    rw [h.rest hreceiver, hqueue, List.append_assoc]
    rfl
  refine ⟨by rw [hall]; exact List.prefix_append _ _, fun _ => ?_, fun hclosed => ?_⟩
  · rw [hall, taken_queue, hqueue, List.tail_cons]
  · rw [taken_receiver, hreceiver] at hclosed
    cases hclosed

theorem Conveys.close_senders (h : ch.Conveys sent taken) : ch.close_senders.Conveys sent taken := ⟨h.first, h.rest, h.closed⟩

theorem Conveys.close_receiver (h : ch.Conveys sent taken) : ch.close_receiver.Conveys sent taken :=
  ⟨h.first, fun hopen => (by cases hopen), fun _ => rfl⟩

end Conveys

end Channel

end mpsc
