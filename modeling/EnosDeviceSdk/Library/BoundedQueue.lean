/-
# A bounded queue with its history

A queue of limited capacity accepts a message when it has room and hands the oldest one
out. A ledger is a queue beside the list of everything accepted and the list of everything
handed out; it cannot be built unless the first is the second followed by what still waits.
So every ledger says by its type that no message is lost, duplicated or overtaken.
-/

import Mathlib.Data.List.Basic

namespace EnosDeviceSdk.Library

universe u

variable {β : Type u} {capacity : Nat}

/-- The waiting messages, oldest first, at most as many as the capacity. -/
structure BoundedQueue (β : Type u) (capacity : Nat) where
  items : List β
  length_le : items.length ≤ capacity

namespace BoundedQueue

/-- The queue that nothing waits in. -/
def empty : BoundedQueue β capacity := ⟨[], Nat.zero_le capacity⟩

/-- Append a message where there is room. -/
def push (queue : BoundedQueue β capacity) (message : β)
    (hroom : queue.items.length < capacity) : BoundedQueue β capacity where
  items := queue.items ++ [message]
  length_le := by
    rw [List.length_append, List.length_singleton]
    exact hroom

/-- Take the oldest message away. -/
def pop (queue : BoundedQueue β capacity) {message : β} {rest : List β}
    (hitems : queue.items = message :: rest) : BoundedQueue β capacity where
  items := rest
  length_le := by
    have hlength := queue.length_le
    rw [hitems, List.length_cons] at hlength
    exact Nat.le_of_succ_le hlength

end BoundedQueue

/-- A queue beside everything it has accepted and everything it has handed out. -/
structure QueueLedger (β : Type u) (capacity : Nat) where
  queue : BoundedQueue β capacity
  accepted : List β
  returned : List β
  balanced : accepted = returned ++ queue.items

namespace QueueLedger

/-- Nothing has happened yet. -/
def start : QueueLedger β capacity := ⟨BoundedQueue.empty, [], [], rfl⟩

/-- One more message is accepted. -/
def accept (ledger : QueueLedger β capacity) (message : β)
    (hroom : ledger.queue.items.length < capacity) : QueueLedger β capacity where
  queue := ledger.queue.push message hroom
  accepted := ledger.accepted ++ [message]
  returned := ledger.returned
  balanced := by rw [BoundedQueue.push, ledger.balanced, List.append_assoc]

/-- The oldest message is handed out. -/
def handOut (ledger : QueueLedger β capacity) {message : β} {rest : List β}
    (hitems : ledger.queue.items = message :: rest) : QueueLedger β capacity where
  queue := ledger.queue.pop hitems
  accepted := ledger.accepted
  returned := ledger.returned ++ [message]
  balanced := by rw [BoundedQueue.pop, ledger.balanced, hitems, List.append_assoc]; rfl

end QueueLedger

end EnosDeviceSdk.Library
