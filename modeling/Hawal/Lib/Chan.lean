import Mathlib.Data.List.Basic

/-!
# Buffered channels

Go's buffered channels: a bounded queue with a closed flag. A send on a closed
channel panics, a send on a full one blocks; a receive takes the oldest value even
after the close, and only an empty closed channel is at its end. Closing a closed
channel panics.
-/

namespace Hawal.Lib

/-- A buffered channel. -/
structure Chan (α : Type*) where
  /-- The size of the buffer. -/
  cap : ℕ
  /-- The values in the buffer, oldest first. -/
  buf : List α := []
  /-- Whether `close` was called. -/
  closed : Bool := false
  deriving DecidableEq, Repr

/-- What a send does. -/
inductive Sent (α : Type*) where
  /-- The channel is closed. -/
  | panics
  /-- The buffer is full. -/
  | blocks
  /-- The value is in the buffer. -/
  | sent (c : Chan α)

/-- What a receive does. -/
inductive Received (α : Type*) where
  /-- A value, and the channel without it. -/
  | value (a : α) (c : Chan α)
  /-- The channel is closed and empty. -/
  | ended
  /-- The channel is empty. -/
  | blocks

namespace Chan

variable {α : Type*}

/-- `c <- a`. -/
def send (c : Chan α) (a : α) : Sent α :=
  if c.closed then .panics
  else if c.buf.length < c.cap then .sent { c with buf := c.buf ++ [a] }
  else .blocks

/-- `a, ok := <-c`. -/
def recv (c : Chan α) : Received α :=
  match c.buf with
  | a :: rest => .value a { c with buf := rest }
  | [] => if c.closed then .ended else .blocks

/-- `close(c)` of an open channel. -/
def close (c : Chan α) : Chan α := { c with closed := true }

theorem send_eq_sent {c c' : Chan α} {a : α} (h : c.send a = .sent c') :
    c.closed = false ∧ c' = { c with buf := c.buf ++ [a] } := by
  unfold send at h
  split_ifs at h with h₁ h₂
  exact ⟨by simpa using h₁, by simpa using h.symm⟩

theorem send_eq_panics {c : Chan α} {a : α} : c.send a = .panics ↔ c.closed = true := by
  unfold send
  split_ifs <;> simp_all

theorem recv_eq_value {c c' : Chan α} {a : α} (h : c.recv = .value a c') :
    c.buf = a :: c'.buf ∧ c' = { c with buf := c'.buf } := by
  unfold recv at h
  split at h
  · rename_i b rest hb
    cases h
    exact ⟨hb, rfl⟩
  · split_ifs at h

theorem recv_eq_ended {c : Chan α} : c.recv = .ended ↔ c.buf = [] ∧ c.closed = true := by
  unfold recv
  split <;> simp_all

/-- A receive on a closed channel does not wait. -/
theorem recv_ne_blocks {c : Chan α} (h : c.closed = true) : c.recv ≠ .blocks := by
  unfold recv
  split <;> simp [h]

end Chan

end Hawal.Lib
