/-
# An outbox of messages that wait for their acknowledgement

A sender keeps every message until the receiver has acknowledged its id. The
outbox is the list of the pending messages, oldest first: posting appends one, and
an acknowledgement retires all that carry its id. Ids need not be distinct; where
they are, one acknowledgement retires one message.
-/

import EnosDeviceSdk.Library.Run
import Mathlib.Data.List.Nodup

namespace EnosDeviceSdk.Library

universe u v

variable {ι : Type u} {β : Type v} [DecidableEq ι]

/-- What happens to an outbox. -/
inductive OutboxEvent (ι : Type u) (β : Type v)
  | post (id : ι) (message : β)
  | ack (id : ι)

/-- The pending messages after an event. -/
def outboxStep (pending : List (ι × β)) : OutboxEvent ι β → List (ι × β)
  | .post id message => pending ++ [(id, message)]
  | .ack id => pending.filter fun entry => entry.1 ≠ id

/-- The pending messages that carry the id. -/
def pendingUnder (id : ι) (pending : List (ι × β)) : List (ι × β) :=
  pending.filter fun entry => entry.1 = id

/-- An event other than its acknowledgement leaves what is pending under an id. -/
theorem pendingUnder_outboxStep {id : ι} (pending : List (ι × β)) {event : OutboxEvent ι β}
    (hother : event ≠ .ack id) :
    pendingUnder id pending <+: pendingUnder id (outboxStep pending event) := by
  cases event with
  | post newId message =>
      rw [outboxStep, pendingUnder, pendingUnder, List.filter_append]
      exact List.prefix_append _ _
  | ack acked =>
      have hne : acked ≠ id := fun hsame => hother (hsame ▸ rfl)
      have hkept : pendingUnder id (outboxStep pending (.ack acked)) =
          pendingUnder id pending := by
        rw [outboxStep, pendingUnder, pendingUnder, List.filter_filter]
        refine List.filter_congr fun entry _ => ?_
        by_cases hid : entry.1 = id
        · simp [hid, Ne.symm hne]
        · simp [hid]
      exact hkept ▸ List.prefix_rfl

/-- A message leaves the outbox only through an acknowledgement of its id. -/
theorem pendingUnder_runFrom {id : ι} (pending : List (ι × β))
    {events : List (OutboxEvent ι β)} (hunacked : .ack id ∉ events) :
    pendingUnder id pending <+: pendingUnder id (runFrom outboxStep pending events) := by
  induction events generalizing pending with
  | nil => exact List.prefix_rfl
  | cons event rest ih =>
      rw [List.mem_cons, not_or] at hunacked
      exact (pendingUnder_outboxStep pending (Ne.symm hunacked.1)).trans
        (ih (outboxStep pending event) hunacked.2)

/-- Where all ids are distinct, an acknowledgement retires one message. -/
theorem length_outboxStep_ack {pending : List (ι × β)} {id : ι}
    (hdistinct : (pending.map Prod.fst).Nodup) (hpending : id ∈ pending.map Prod.fst) :
    (outboxStep pending (.ack id)).length + 1 = pending.length := by
  induction pending with
  | nil => simp at hpending
  | cons entry rest ih =>
      rw [List.map_cons, List.nodup_cons] at hdistinct
      by_cases hid : entry.1 = id
      · have hrest : rest.filter (fun later => later.1 ≠ id) = rest := by
          rw [List.filter_eq_self]
          intro later hlater
          have hne : later.1 ≠ id := fun hsame =>
            hdistinct.1 (hid ▸ hsame ▸ List.mem_map_of_mem hlater)
          simpa using hne
        rw [outboxStep, List.filter_cons_of_neg (by simpa using hid), hrest, List.length_cons]
      · rw [List.map_cons, List.mem_cons] at hpending
        have hlater := ih hdistinct.2 (hpending.resolve_left (Ne.symm hid))
        rw [outboxStep, List.filter_cons_of_pos (by simpa using hid), List.length_cons,
          List.length_cons, ← hlater, outboxStep]

end EnosDeviceSdk.Library
