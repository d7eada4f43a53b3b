import Mathlib.Tactic

set_option autoImplicit false

/-! # A bounded channel

Any number of senders, one receiver, and a buffer of fixed size between them. A send does not wait:
what finds the buffer full, or the receiver gone, comes back. The channel keeps its own books, what it
ever took in and what it ever gave out, and `Sound` says that they balance.
-/

namespace Lib

/-- A channel. `senders` and `receiver` say whether that end is still held by anyone. -/
structure Channel (α : Type) where
  buffer : List α
  capacity : Nat
  senders : Bool
  receiver : Bool
  /-- What was ever taken in. -/
  accepted : List α
  /-- What was ever given out. -/
  taken : List α

namespace Channel

variable {α : Type}

/-- A new channel. -/
def new (capacity : Nat) : Channel α := ⟨[], capacity, true, true, [], []⟩

/-- The channel takes what is sent to it. -/
def Accepts (c : Channel α) : Prop :=
  c.senders = true ∧ c.receiver = true ∧ c.buffer.length < c.capacity

instance (c : Channel α) : Decidable c.Accepts := inferInstanceAs (Decidable (_ ∧ _ ∧ _))

/-- Send without waiting. -/
def try_send (c : Channel α) (a : α) : Channel α :=
  if c.Accepts then { c with buffer := c.buffer ++ [a], accepted := c.accepted ++ [a] } else c

/-- The last sender goes. -/
def drop_senders (c : Channel α) : Channel α := { c with senders := false }

/-- The receiver goes, with what is in the buffer. -/
def drop_receiver (c : Channel α) : Channel α := { c with receiver := false }

/-- What a receiver finds. -/
inductive Received (α : Type) where
  /-- The next message, and the channel without it. -/
  | message (a : α) (rest : Channel α)
  /-- There will be no other. -/
  | closed
  /-- Not yet. -/
  | pending

/-- Receive. A message that was taken in is given out even when all senders have gone. -/
def recv (c : Channel α) : Received α :=
  match c.buffer with
  | a :: rest => .message a { c with buffer := rest, taken := c.taken ++ [a] }
  | [] => if c.senders then .pending else .closed

/-! ## The books balance -/

/-- What was taken in was given out, in this order, or is waiting; and no more waits than there is
room for. -/
structure Sound (c : Channel α) : Prop where
  balanced : c.accepted = c.taken ++ c.buffer
  bounded : c.buffer.length ≤ c.capacity

theorem sound_new (capacity : Nat) : (new capacity : Channel α).Sound :=
  ⟨rfl, Nat.zero_le capacity⟩

variable {c : Channel α}

theorem Sound.try_send (h : c.Sound) (a : α) : (c.try_send a).Sound := by
  unfold Channel.try_send
  split
  · rename_i hroom
    constructor
    · show c.accepted ++ [a] = c.taken ++ (c.buffer ++ [a])
      rw [h.balanced, List.append_assoc]
    · show (c.buffer ++ [a]).length ≤ c.capacity
      have hlt := hroom.2.2
      rw [List.length_append, List.length_singleton]
      omega
  · exact h

theorem Sound.drop_senders (h : c.Sound) : c.drop_senders.Sound := ⟨h.balanced, h.bounded⟩

theorem Sound.drop_receiver (h : c.Sound) : c.drop_receiver.Sound := ⟨h.balanced, h.bounded⟩

/-- What a receipt says of the channel. -/
theorem recv_message {a : α} {rest : Channel α} (h : c.recv = .message a rest) :
    c.buffer = a :: rest.buffer ∧ rest = { c with buffer := rest.buffer, taken := c.taken ++ [a] } := by
  unfold recv at h
  split at h
  · rename_i b tail hbuffer
    obtain ⟨rfl, rfl⟩ := Received.message.inj h
    exact ⟨hbuffer, rfl⟩
  · split at h <;> cases h

theorem recv_closed : c.recv = .closed ↔ c.buffer = [] ∧ c.senders = false := by
  unfold recv
  split
  · rename_i b tail hbuffer
    simp [hbuffer]
  · rename_i hbuffer
    cases hs : c.senders <;> simp [hbuffer]

theorem recv_pending : c.recv = .pending ↔ c.buffer = [] ∧ c.senders = true := by
  unfold recv
  split
  · rename_i b tail hbuffer
    simp [hbuffer]
  · rename_i hbuffer
    cases hs : c.senders <;> simp [hbuffer]

theorem Sound.recv {a : α} {rest : Channel α} (h : c.Sound) (hr : c.recv = .message a rest) :
    rest.Sound := by
  obtain ⟨hbuffer, hrest⟩ := recv_message hr
  rw [hrest]
  constructor
  · show c.accepted = (c.taken ++ [a]) ++ rest.buffer
    rw [h.balanced, hbuffer, List.append_assoc]
    rfl
  · show rest.buffer.length ≤ c.capacity
    have hle := h.bounded
    rw [hbuffer, List.length_cons] at hle
    omega

@[simp] theorem capacity_try_send (c : Channel α) (a : α) : (c.try_send a).capacity = c.capacity := by
  unfold Channel.try_send
  split <;> rfl

@[simp] theorem taken_try_send (c : Channel α) (a : α) : (c.try_send a).taken = c.taken := by
  unfold Channel.try_send
  split <;> rfl

@[simp] theorem senders_try_send (c : Channel α) (a : α) : (c.try_send a).senders = c.senders := by
  unfold Channel.try_send
  split <;> rfl

/-- Nobody can send to a channel without senders. -/
theorem try_send_of_closed (h : c.senders = false) (a : α) : c.try_send a = c :=
  if_neg fun hroom => Bool.false_ne_true (h.symm.trans hroom.1)

end Channel

end Lib
