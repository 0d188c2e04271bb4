/-
# The transport and the packet writer

The transport is the boundary of the model. A connection is two byte streams: what
the broker sends, split into a part already read and a part still incoming, and
what the transport has accepted for sending. What a single read or write returns
is chosen by the environment, within the transport's contract: a write accepts a
prefix of what it is offered or fails, a read hands out a prefix of what is
incoming or fails.

`iotx_mc_send_packet` turns such writes into a verdict on a whole packet. Its
specification is one number: how many bytes of the packet the writes accept.
-/

import EnosDeviceSdk.Infra.State
import EnosDeviceSdk.Infra.Timer
import Mathlib.Algebra.Order.Group.Nat
import Mathlib.Algebra.Order.Group.Int

namespace EnosDeviceSdk.Mqtt

open EnosDeviceSdk.Infra

/-- `utils_network_t` with its current connection. -/
structure Network where
  incoming : List UInt8
  consumed : List UInt8
  accepted : List UInt8
  deriving DecidableEq

/-- What the environment lets one write do. -/
inductive WriteOutcome
  | accept (count : Nat)
  | fail
  deriving DecidableEq

/-- What the environment lets one read do. -/
inductive ReadOutcome
  | bytes (count : Nat)
  | fail
  deriving DecidableEq

/-- The `write` of the transport: the number of accepted bytes or a negative code. -/
def Network.write (net : Network) (bytes : List UInt8) : WriteOutcome → Int × Network
  | .accept count =>
      ((min count bytes.length : Nat), { net with accepted := net.accepted ++ bytes.take count })
  | .fail => (-1, net)

/-- The connection after some more bytes of the incoming stream are read. -/
def Network.consume (net : Network) (count : Nat) : Network :=
  { net with
    incoming := net.incoming.drop count
    consumed := net.consumed ++ net.incoming.take count }

/-- The `read` of the transport: its result, the bytes read and the connection. -/
def Network.read (net : Network) (len : Nat) :
    ReadOutcome → Int × List UInt8 × Network
  | .bytes count =>
      let got := net.incoming.take (min count len)
      (got.length, got, net.consume (min count len))
  | .fail => (-1, [], net)

/-- The `connect` of the transport. A new connection starts with the stream that
the broker will send; a failed attempt leaves nothing to read. -/
def Network.connect : Option (List UInt8) → Int × Network
  | some stream => (stateSuccess, ⟨stream, [], []⟩)
  | none => (-1, ⟨[], [], []⟩)

/-- The `disconnect` of the transport: what the old connection carried is over. -/
def Network.disconnect : Network := ⟨[], [], []⟩

/-- One turn of the writer's loop: the clock reading of its expiry test and the
outcome of its write. -/
structure WriteStep where
  now : UInt32
  outcome : WriteOutcome
  deriving DecidableEq

/-- The loop of `iotx_mc_send_packet`; the result is `sent`. Where the turns run
out, the timer is expired at the next test. -/
def iotxMcSendPacketLoop (buf : List UInt8) (time : UInt32) :
    List WriteStep → Nat → Network → Nat × Network
  | [], sent, net => (sent, net)
  | step :: steps, sent, net =>
      if sent < buf.length && !utilsTimeIsExpired step.now time then
        let (rc, net) := net.write (buf.drop sent) step.outcome
        if rc < 0 then (sent, net)
        else iotxMcSendPacketLoop buf time steps (sent + rc.toNat) net
      else (sent, net)

/-- `iotx_mc_send_packet` -/
def iotxMcSendPacket (net : Network) (buf : List UInt8) (time : UInt32)
    (steps : List WriteStep) : Int × Network :=
  let (sent, net) := iotxMcSendPacketLoop buf time steps 0 net
  if sent = buf.length then (stateSuccess, net) else (stateSysDependNwkClose, net)

/-! ## Reading -/

/-- The environment lets a read of the given length have all its bytes. -/
def ReadOutcome.Gives (len : Nat) : ReadOutcome → Prop
  | .bytes count => len ≤ count
  | .fail => False

instance (len : Nat) : DecidablePred (ReadOutcome.Gives len)
  | .bytes count => inferInstanceAs (Decidable (len ≤ count))
  | .fail => .isFalse id

@[simp]
theorem Network.consume_zero (net : Network) : net.consume 0 = net := by
  simp [Network.consume]

@[simp]
theorem Network.consume_consume (net : Network) (first second : Nat) :
    (net.consume first).consume second = net.consume (first + second) := by
  simp [Network.consume, List.take_add]

/-- A read that has all its bytes. -/
theorem Network.read_of_gives {net : Network} {len : Nat} {outcome : ReadOutcome}
    (hgives : outcome.Gives len) (hlength : len ≤ net.incoming.length) :
    net.read len outcome = ((len : Int), net.incoming.take len, net.consume len) := by
  cases outcome with
  | fail => exact hgives.elim
  | bytes count =>
      have hlen : len ≤ count := hgives
      simp [Network.read, Nat.min_eq_right hlen, Nat.min_eq_left hlength]

/-- A read that fails, or that falls short of its length. -/
theorem Network.read_of_not_gives {net : Network} {len : Nat} {outcome : ReadOutcome}
    (hshort : ¬ (outcome.Gives len ∧ len ≤ net.incoming.length)) :
    (outcome = .fail ∧ net.read len outcome = (-1, [], net)) ∨
      ∃ count, outcome = .bytes count ∧ min count net.incoming.length < len ∧
        net.read len outcome =
          (((min count net.incoming.length : Nat) : Int),
            net.incoming.take (min count net.incoming.length),
            net.consume (min count net.incoming.length)) := by
  cases outcome with
  | fail => exact Or.inl ⟨rfl, rfl⟩
  | bytes count =>
      have hless : min count net.incoming.length < len := by
        by_contra henough
        exact hshort ⟨by change len ≤ count; omega, by omega⟩
      refine Or.inr ⟨count, rfl, hless, ?_⟩
      have htake : net.incoming.take (min count len) =
          net.incoming.take (min count net.incoming.length) := by
        rw [List.take_eq_take_iff]
        omega
      have hdrop : net.incoming.drop (min count len) =
          net.incoming.drop (min count net.incoming.length) := by
        by_cases hall : count ≤ net.incoming.length
        · rw [Nat.min_eq_left (by omega), Nat.min_eq_left hall]
        · rw [List.drop_of_length_le (by omega), List.drop_of_length_le (by omega)]
      simp only [Network.read, Network.consume, htake, hdrop, List.length_take]
      rw [Nat.min_eq_left (Nat.min_le_right _ _)]

/-! ## How much of a packet is accepted -/

/-- The number of bytes that the turns accept of a packet of the given length,
before it is complete, the timer expires or a write fails. -/
def bytesAccepted (time : UInt32) : List WriteStep → Nat → Nat
  | [], _ => 0
  | step :: steps, length =>
      if length = 0 || utilsTimeIsExpired step.now time then 0
      else
        match step.outcome with
        | .fail => 0
        | .accept count => min count length + bytesAccepted time steps (length - min count length)

theorem bytesAccepted_le (time : UInt32) (steps : List WriteStep) (length : Nat) :
    bytesAccepted time steps length ≤ length := by
  induction steps generalizing length with
  | nil => exact Nat.zero_le length
  | cons step steps ih =>
      rw [bytesAccepted]
      split
      · exact Nat.zero_le length
      · cases step.outcome with
        | fail => exact Nat.zero_le length
        | accept count =>
            have := ih (length - min count length)
            simp only
            omega

/-- The loop advances by exactly the bytes that the turns accept, and these are the
next bytes of the packet. -/
theorem iotxMcSendPacketLoop_eq (buf : List UInt8) (time : UInt32) (steps : List WriteStep)
    {sent : Nat} (hsent : sent ≤ buf.length) (net : Network) :
    iotxMcSendPacketLoop buf time steps sent net =
      (sent + bytesAccepted time steps (buf.length - sent),
        { net with
          accepted := net.accepted ++
            (buf.drop sent).take (bytesAccepted time steps (buf.length - sent)) }) := by
  induction steps generalizing sent net with
  | nil => simp [iotxMcSendPacketLoop, bytesAccepted]
  | cons step steps ih =>
      by_cases hstop : buf.length - sent = 0 ∨ utilsTimeIsExpired step.now time = true
      · have hidle : ¬ (sent < buf.length ∧ utilsTimeIsExpired step.now time = false) := by
          rcases hstop with hdone | hexpired
          · omega
          · simp [hexpired]
        rw [iotxMcSendPacketLoop, bytesAccepted, if_neg (by simpa using hidle),
          if_pos (by simpa using hstop)]
        simp
      · rw [not_or] at hstop
        have hroom : sent < buf.length := by omega
        have hactive : utilsTimeIsExpired step.now time = false := by simpa using hstop.2
        rw [iotxMcSendPacketLoop, bytesAccepted, if_pos (by simp [hroom, hactive]),
          if_neg (by simp [hstop.1, hactive])]
        cases step.outcome with
        | fail => simp [Network.write]
        | accept count =>
            have hnonneg : ¬ ((min count (buf.length - sent) : Nat) : Int) < 0 := by omega
            simp only [Network.write, List.length_drop, hnonneg, if_false, Int.toNat_natCast]
            have htaken : (buf.drop sent).take count =
                (buf.drop sent).take (min count (buf.length - sent)) := by
              rw [← List.length_drop, List.take_eq_take_min]
            rw [ih (by omega), htaken, Nat.sub_add_eq]
            simp only [List.append_assoc, Nat.add_assoc, List.take_add, List.drop_drop]

/-- What the writer does: it hands over the accepted part of the packet, and
reports success exactly when that is the whole packet. -/
theorem iotxMcSendPacket_eq (net : Network) (buf : List UInt8) (time : UInt32)
    (steps : List WriteStep) :
    iotxMcSendPacket net buf time steps =
      (if bytesAccepted time steps buf.length = buf.length then stateSuccess
        else stateSysDependNwkClose,
        { net with
          accepted := net.accepted ++ buf.take (bytesAccepted time steps buf.length) }) := by
  rw [iotxMcSendPacket, iotxMcSendPacketLoop_eq buf time steps (Nat.zero_le _)]
  simp only [Nat.zero_add, Nat.sub_zero, List.drop_zero]
  split <;> rfl

end EnosDeviceSdk.Mqtt
