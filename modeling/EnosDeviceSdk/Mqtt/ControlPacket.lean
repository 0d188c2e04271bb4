/-
# Control packets as a server reads them

The packets that a client may send, with what they carry, and how a server reads them off the
bytes of a connection. Nothing here is taken from the client. The reader refuses what the protocol
does not allow: a length field of more than four bytes, other fixed flags than those of the type,
an unknown protocol level, a reserved flag, a QoS of 3, a packet id of zero, a password without a
user name, an empty topic, a subscription to nothing, and a body with something left over. The
characters of a text are not looked at.
-/

import EnosDeviceSdk.Library.StreamReader

namespace EnosDeviceSdk.Mqtt

open EnosDeviceSdk.Library

/-! ## What a packet carries -/

/-- What the server publishes when the client is gone. -/
structure Will where
  topic : List UInt8
  message : List UInt8
  qos : Nat
  retain : Bool
  deriving DecidableEq

/-- A packet that a client may send. -/
inductive ControlPacket
  | connect (level : Nat) (cleanSession : Bool) (keepAlive : Nat) (clientId : List UInt8)
      (will : Option Will) (userName password : Option (List UInt8))
  | publish (dup : Bool) (qos : Nat) (retain : Bool) (topic : List UInt8)
      (packetId : Option Nat) (payload : List UInt8)
  | puback (packetId : Nat)
  | subscribe (packetId : Nat) (requests : List (List UInt8 × Nat))
  | unsubscribe (packetId : Nat) (topicFilters : List (List UInt8))
  | pingreq
  | disconnect
  deriving DecidableEq

/-! ## The fields -/

/-- The first byte. -/
def takeByte : List UInt8 → Option (UInt8 × List UInt8)
  | [] => none
  | byte :: rest => some (byte, rest)

/-- An integer of two bytes, the high one first. -/
def takeInt : List UInt8 → Option (Nat × List UInt8)
  | first :: second :: rest => some (256 * first.toNat + second.toNat, rest)
  | _ => none

/-- A packet id, which is not zero. -/
def takeId (bytes : List UInt8) : Option (Nat × List UInt8) := do
  let (packetId, rest) ← takeInt bytes
  guard (packetId ≠ 0)
  some (packetId, rest)

/-- A text behind its length. -/
def takeText (bytes : List UInt8) : Option (List UInt8 × List UInt8) := do
  let (length, rest) ← takeInt bytes
  guard (length ≤ rest.length)
  some (rest.take length, rest.drop length)

/-- A topic name or filter, which is not empty. -/
def takeTopic (bytes : List UInt8) : Option (List UInt8 × List UInt8) := do
  let (topic, rest) ← takeText bytes
  guard (topic ≠ [])
  some (topic, rest)

/-- A text that a flag announces. -/
def takeTextIf (given : Bool) (bytes : List UInt8) : Option (Option (List UInt8) × List UInt8) :=
  if given then (takeText bytes).map fun (text, rest) => (some text, rest)
  else some (none, bytes)

/-! ## The bodies -/

/-- The flag is set. -/
def hasFlag (flags flag : UInt8) : Bool := flags &&& flag ≠ 0

/-- The QoS of the will in the flags of a CONNECT packet. -/
def willQos (flags : UInt8) : Nat := ((flags >>> 3) &&& 3).toNat

/-- The will, if the flags announce one; without it its QoS and its retain flag are zero. -/
def takeWill (flags : UInt8) (bytes : List UInt8) : Option (Option Will × List UInt8) :=
  if hasFlag flags 0x04 then do
    guard (willQos flags ≠ 3)
    let (topic, bytes) ← takeText bytes
    let (message, bytes) ← takeText bytes
    some (some ⟨topic, message, willQos flags, hasFlag flags 0x20⟩, bytes)
  else do
    guard (flags &&& 0x38 = 0)
    some (none, bytes)

/-- The names of the protocol with its levels: `MQIsdp` and `MQTT`. -/
def protocolLevels : List (List UInt8 × UInt8) :=
  [([77, 81, 73, 115, 100, 112], 3), ([77, 81, 84, 84], 4)]

/-- The body of a CONNECT packet. -/
def readConnect (body : List UInt8) : Option ControlPacket := do
  let (protocol, body) ← takeText body
  let (level, body) ← takeByte body
  guard ((protocol, level) ∈ protocolLevels)
  let (flags, body) ← takeByte body
  guard (hasFlag flags 0x01 = false)
  let (keepAlive, body) ← takeInt body
  let (clientId, body) ← takeText body
  let (will, body) ← takeWill flags body
  let (userName, body) ← takeTextIf (hasFlag flags 0x80) body
  let (password, body) ← takeTextIf (hasFlag flags 0x40) body
  guard (password.isSome → userName.isSome)
  guard (body = [])
  some (.connect level.toNat (hasFlag flags 0x02) keepAlive clientId will userName password)

/-- The body of a PUBLISH packet with the flags of its header. -/
def readPublish (flags : Nat) (body : List UInt8) : Option ControlPacket := do
  let dup := flags / 8 = 1
  let qos := flags / 2 % 4
  guard (qos ≠ 3)
  guard (qos = 0 → ¬dup)
  let (topic, body) ← takeTopic body
  if qos = 0 then some (.publish dup qos (flags % 2 = 1) topic none body)
  else do
    let (packetId, body) ← takeId body
    some (.publish dup qos (flags % 2 = 1) topic (some packetId) body)

/-- The body of a PUBACK packet. -/
def readPuback (body : List UInt8) : Option ControlPacket := do
  let (packetId, body) ← takeId body
  guard (body = [])
  some (.puback packetId)

/-- A topic filter with the requested QoS. -/
def takeRequest (bytes : List UInt8) : Option ((List UInt8 × Nat) × List UInt8) := do
  let (topicFilter, bytes) ← takeTopic bytes
  let (qos, bytes) ← takeByte bytes
  guard (qos ≤ 2)
  some ((topicFilter, qos.toNat), bytes)

/-- The body of a SUBSCRIBE packet. -/
def readSubscribe (body : List UInt8) : Option ControlPacket := do
  let (packetId, body) ← takeId body
  let requests ← readItems takeRequest body.length body
  guard (requests ≠ [])
  some (.subscribe packetId requests)

/-- The body of an UNSUBSCRIBE packet. -/
def readUnsubscribe (body : List UInt8) : Option ControlPacket := do
  let (packetId, body) ← takeId body
  let topicFilters ← readItems takeTopic body.length body
  guard (topicFilters ≠ [])
  some (.unsubscribe packetId topicFilters)

/-- The body of a packet with the given header: type in the high four bits, flags in the others. -/
def readBody (header : UInt8) (body : List UInt8) : Option ControlPacket :=
  match header.toNat / 16, header.toNat % 16 with
  | 1, 0 => readConnect body
  | 3, flags => readPublish flags body
  | 4, 0 => readPuback body
  | 8, 2 => readSubscribe body
  | 10, 2 => readUnsubscribe body
  | 12, 0 => if body = [] then some .pingreq else none
  | 14, 0 => if body = [] then some .disconnect else none
  | _, _ => none

/-! ## The front of a stream -/

/-- A length of at most so many bytes, the low digit first. -/
def takeLength : Nat → List UInt8 → Front UInt8 Nat
  | 0, _ => .malformed
  | _ + 1, [] => .started
  | digits + 1, byte :: rest =>
      if byte < 128 then .whole byte.toNat rest
      else
        match takeLength digits rest with
        | .whole high rest => .whole (byte.toNat - 128 + 128 * high) rest
        | .started => .started
        | .malformed => .malformed

/-- What a server finds at the front of what it has received. -/
def frontPacket : List UInt8 → Front UInt8 ControlPacket
  | [] => .started
  | header :: rest =>
      match takeLength 4 rest with
      | .started => .started
      | .malformed => .malformed
      | .whole length rest =>
          if rest.length < length then .started
          else
            match readBody header (rest.take length) with
            | some packet => .whole packet (rest.drop length)
            | none => .malformed

end EnosDeviceSdk.Mqtt
