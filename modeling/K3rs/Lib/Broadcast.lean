import Mathlib.Tactic

/-!
# Bounded broadcast channels

The receiving end of a broadcast channel that never blocks its sender.  A receiver that
falls behind by more than the capacity loses its oldest messages; its next read reports
that it lagged, and the reads after it continue with the oldest message that is left.
-/

namespace Broadcast

/-- A receiver: the messages it can still read, and whether it lost some since its last
read. -/
structure Receiver (α : Type*) where
  unread : List α := []
  lagged : Bool := false
  deriving DecidableEq, Repr

namespace Receiver

variable {α : Type*}

/-- A message is sent. -/
def send (capacity : ℕ) (rx : Receiver α) (a : α) : Receiver α :=
  if rx.unread.length < capacity then { rx with unread := rx.unread ++ [a] }
  else { unread := rx.unread.tail ++ [a], lagged := true }

/-- One read: `none` while there is nothing to read, an error after a loss. -/
def recv (rx : Receiver α) : Option (Except Unit α) × Receiver α :=
  match rx.lagged, rx.unread with
  | true, _ => (some (.error ()), { rx with lagged := false })
  | false, [] => (none, rx)
  | false, a :: rest => (some (.ok a), { rx with unread := rest })

/-- The message of a read, if it returned one. -/
def message : Option (Except Unit α) → List α
  | some (.ok a) => [a]
  | some (.error ()) => []
  | none => []

/-- A read takes the oldest message or none at all. -/
theorem message_recv (rx : Receiver α) : message rx.recv.1 ++ rx.recv.2.unread = rx.unread := by
  obtain ⟨unread, lagged⟩ := rx
  cases lagged with
  | true => rfl
  | false =>
      cases unread with
      | nil => rfl
      | cons a rest => rfl

/-- The number of reads after which nothing is left. -/
def backlog (rx : Receiver α) : ℕ := rx.unread.length + rx.lagged.toNat

theorem backlog_recv (rx : Receiver α) : rx.recv.2.backlog = rx.backlog - 1 := by
  obtain ⟨unread, lagged⟩ := rx
  cases lagged with
  | true => simp [recv, backlog]
  | false =>
      cases unread with
      | nil => rfl
      | cons a rest => simp [recv, backlog]

/-- Below the capacity nothing is lost. -/
theorem unread_send_of_lt {capacity : ℕ} {rx : Receiver α} {a : α}
    (h : rx.unread.length < capacity) : (rx.send capacity a).unread = rx.unread ++ [a] := by
  rw [send, if_pos h]

/-- At the capacity the oldest message is lost. -/
theorem unread_send_of_le {capacity : ℕ} {rx : Receiver α} {a : α}
    (h : capacity ≤ rx.unread.length) : (rx.send capacity a).unread = rx.unread.tail ++ [a] := by
  rw [send, if_neg (Nat.not_lt.mpr h)]

end Receiver

end Broadcast
