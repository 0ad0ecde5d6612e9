import Mathlib.Order.Basic

/-! A bounded broadcast channel: every receiver gets what is sent after it
subscribed, in order, except what fell out of the buffer before it read it. The
channel is the log of everything sent, a receiver the position it reads next. -/

namespace Oxmux.Lib.Broadcast

variable {α : Type*}

/-- A channel, by what was sent on it since it was made. -/
structure Channel (α : Type*) where
  log : List α

structure Receiver where
  next : Nat
  deriving DecidableEq

namespace Channel

def new : Channel α := ⟨[]⟩

def send (c : Channel α) (x : α) : Channel α := ⟨c.log ++ [x]⟩

def subscribe (c : Channel α) : Receiver := ⟨c.log.length⟩

/-- The oldest position that a buffer of size `capacity` still holds. -/
def oldest (capacity : Nat) (c : Channel α) : Nat := c.log.length - capacity

end Channel

inductive Received (α : Type*) where
  | value (x : α)
  | lagged (n : Nat)
  | empty

def Channel.tryRecv (capacity : Nat) (c : Channel α) (r : Receiver) : Received α × Receiver :=
  if r.next < c.oldest capacity then
    (.lagged (c.oldest capacity - r.next), ⟨c.oldest capacity⟩)
  else match c.log[r.next]? with
    | some x => (.value x, ⟨r.next + 1⟩)
    | none => (.empty, r)

/-- The loop that receives until it finds the channel empty. -/
def Channel.drainLoop (capacity : Nat) (c : Channel α) : Nat → Receiver → List α × Receiver
  | 0, r => ([], r)
  | fuel + 1, r =>
    match c.tryRecv capacity r with
    | (.value x, r') => (x :: (c.drainLoop capacity fuel r').1, (c.drainLoop capacity fuel r').2)
    | (.lagged _, r') => c.drainLoop capacity fuel r'
    | (.empty, r') => ([], r')

namespace Channel

/-- Receiving until the channel is empty; a call reads a value, catches up once
or is the last one, so the fuel never runs out. -/
def drain (capacity : Nat) (c : Channel α) (r : Receiver) : List α × Receiver :=
  c.drainLoop capacity (c.log.length + 2) r

@[simp] theorem log_send (c : Channel α) (x : α) : (c.send x).log = c.log ++ [x] := rfl

@[simp] theorem next_subscribe (c : Channel α) : c.subscribe.next = c.log.length := rfl

/-- From a position in the buffer, the loop reads to the end of the log. -/
theorem drainLoop_of_le {capacity : Nat} {c : Channel α} {fuel : Nat} {r : Receiver}
    (h : c.oldest capacity ≤ r.next) (hr : r.next ≤ c.log.length)
    (hf : c.log.length - r.next < fuel) :
    c.drainLoop capacity fuel r = (c.log.drop r.next, ⟨c.log.length⟩) := by
  induction fuel generalizing r with
  | zero => omega
  | succ fuel ih =>
    rw [drainLoop, tryRecv, if_neg (Nat.not_lt.mpr h)]
    by_cases he : r.next < c.log.length
    · rw [List.getElem?_eq_getElem he]
      simp only
      rw [ih (by simp only; omega) (by simp only; omega) (by simp only; omega),
        List.drop_eq_getElem_cons he]
    · have hlen : r.next = c.log.length := by omega
      rw [List.getElem?_eq_none (by omega)]
      simp only [hlen, List.drop_length, Prod.mk.injEq, true_and]
      exact congrArg Receiver.mk hlen

/-- **Draining** gives what was sent since, as far as the buffer still holds it. -/
theorem drain_eq {capacity : Nat} {c : Channel α} {r : Receiver} (hr : r.next ≤ c.log.length) :
    c.drain capacity r = (c.log.drop (max r.next (c.oldest capacity)), ⟨c.log.length⟩) := by
  unfold drain
  by_cases h : r.next < c.oldest capacity
  · have hle : c.oldest capacity ≤ c.log.length := Nat.sub_le _ _
    rw [drainLoop, tryRecv, if_pos h]
    simp only
    rw [drainLoop_of_le (r := ⟨c.oldest capacity⟩) (Nat.le_refl _) hle (by simp only; omega),
      Nat.max_eq_right (Nat.le_of_lt h)]
  · rw [drainLoop_of_le (Nat.not_lt.mp h) hr (by omega), Nat.max_eq_left (Nat.not_lt.mp h)]

end Channel

end Oxmux.Lib.Broadcast
