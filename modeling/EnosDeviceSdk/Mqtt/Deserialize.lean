/-
# Deserializing received packets

The five deserializers of the client, each on the memory of its read buffer. An
output parameter that the code leaves unwritten is `none`, so that a caller
which goes on to read it visibly reads what was there before.

All five share one shape: the variable `rc` first carries the number of length
bytes and only later the verdict, and a failure exit between the two returns the
number of length bytes. A short packet has one length byte, so it is accepted.
The last section states for each acknowledgement deserializer exactly which
complete packets it treats as its callers expect.
-/

import EnosDeviceSdk.Mqtt.Packet
import Mathlib.Algebra.Order.Group.Int

namespace EnosDeviceSdk.Mqtt

open EnosDeviceSdk.Infra

/-- A `char` read into an `int`, on a platform whose `char` is signed. -/
def signedChar (byte : UInt8) : Int :=
  if byte < 128 then byte.toNat else (byte.toNat : Int) - 256

/-- Result and output parameters of `MQTTDeserialize_connack`. -/
structure ConnackResult where
  rc : Int
  sessionPresent : Option UInt8
  connackRc : Option UInt8
  deriving DecidableEq, Repr

/-- `MQTTDeserialize_connack`. The session-present bit field is the topmost bit
of the flags byte in the little-endian layout of `MQTTConnackFlags`. -/
def mqttDeserializeConnack (buf : Buf) : ConnackResult :=
  let (header, curdata) := readChar buf 0
  if mqttHeaderGetType header ≠ MsgType.connack.code then ⟨0, none, none⟩
  else
    let (rc, mylen) := mqttPacketDecodeBuf buf curdata
    let curdata := curdata + rc
    if mylen < 2 then ⟨rc, none, none⟩
    else
      let (flags, curdata) := readChar buf curdata
      let (connackRc, _) := readChar buf curdata
      ⟨1, some (flags >>> 7), some connackRc⟩

/-- Result and output parameters of `MQTTDeserialize_ack`. -/
structure AckResult where
  rc : Int
  packettype : UInt8
  dup : UInt8
  packetid : Option Nat
  deriving DecidableEq, Repr

/-- `MQTTDeserialize_ack` -/
def mqttDeserializeAck (buf : Buf) : AckResult :=
  let (header, curdata) := readChar buf 0
  let dup := mqttHeaderGetDup header
  let packettype := mqttHeaderGetType header
  let (rc, mylen) := mqttPacketDecodeBuf buf curdata
  let curdata := curdata + rc
  if mylen < 2 then ⟨rc, packettype, dup, none⟩
  else
    let (packetid, _) := readInt buf curdata
    ⟨1, packettype, dup, some packetid⟩

/-- Result and output parameters of `MQTTDeserialize_suback`. -/
structure SubackResult where
  rc : Int
  packetid : Option Nat
  count : Option Nat
  grantedQoSs : List Int
  deriving DecidableEq, Repr

/-- The loop of `MQTTDeserialize_suback` over the bytes up to `enddata`: `none`
when the array is full before the bytes are used up. -/
def mqttDeserializeSubackLoop (maxcount : Nat) : List UInt8 → List Int → Option (List Int)
  | [], granted => some granted
  | byte :: rest, granted =>
      if granted.length ≥ maxcount then none
      else mqttDeserializeSubackLoop maxcount rest (granted ++ [signedChar byte])

/-- `MQTTDeserialize_suback`. On overflow the array has already been filled with
the first `maxcount` codes. -/
def mqttDeserializeSuback (maxcount : Nat) (buf : Buf) : SubackResult :=
  let (header, curdata) := readChar buf 0
  if mqttHeaderGetType header ≠ MsgType.suback.code then ⟨0, none, none, []⟩
  else
    let (rc, mylen) := mqttPacketDecodeBuf buf curdata
    let curdata := curdata + rc
    let enddata := curdata + mylen
    if mylen < 2 then ⟨rc, none, none, []⟩
    else
      let (packetid, curdata) := readInt buf curdata
      let codes := buf.slice curdata (enddata - curdata)
      match mqttDeserializeSubackLoop maxcount codes [] with
      | some granted => ⟨1, some packetid, some granted.length, granted⟩
      | none =>
          ⟨-1, some packetid, some maxcount, (codes.take maxcount).map signedChar⟩

/-- Result and output parameter of `MQTTDeserialize_unsuback`. -/
structure UnsubackResult where
  rc : Int
  packetid : Option Nat
  deriving DecidableEq, Repr

/-- `MQTTDeserialize_unsuback`: a matching type overrides the verdict. -/
def mqttDeserializeUnsuback (buf : Buf) : UnsubackResult :=
  let ack := mqttDeserializeAck buf
  if ack.packettype = MsgType.unsuback.code then ⟨1, ack.packetid⟩
  else ⟨ack.rc, ack.packetid⟩

/-- Result and output parameters of `MQTTDeserialize_publish`. The payload is the
offset its pointer has in the buffer. -/
structure PublishResult where
  rc : Int
  dup : Option UInt8
  qos : Option UInt8
  retained : Option UInt8
  packetid : Option Nat
  topicName : MqttString
  payload : Option Nat
  payloadlen : Option Int
  deriving DecidableEq

/-- `MQTTDeserialize_publish`. The packet id of a QoS above 0 is read without a
test that two bytes are left. -/
def mqttDeserializePublish (topicName : MqttString) (buf : Buf) : PublishResult :=
  let (header, curdata) := readChar buf 0
  if mqttHeaderGetType header ≠ MsgType.publish.code then
    ⟨0, none, none, none, none, topicName, none, none⟩
  else
    let dup := mqttHeaderGetDup header
    let qos := mqttHeaderGetQos header
    let retained := mqttHeaderGetRetain header
    let (rc, mylen) := mqttPacketDecodeBuf buf curdata
    let curdata := curdata + rc
    let enddata := curdata + mylen
    let (ok, topicName, curdata) := readMqttLenString topicName buf curdata enddata
    if !ok || enddata < curdata then
      ⟨rc, some dup, some qos, some retained, none, topicName, none, none⟩
    else if qos > 0 then
      let (packetid, curdata) := readInt buf curdata
      ⟨1, some dup, some qos, some retained, some packetid, topicName, some curdata,
        some ((enddata : Int) - curdata)⟩
    else
      ⟨1, some dup, some qos, some retained, none, topicName, some curdata,
        some ((enddata : Int) - curdata)⟩

/-! ## Decoding a length field in memory -/

theorem toNat_and_127 (byte : UInt8) : (byte &&& 127).toNat = byte.toNat % 128 := by
  rw [UInt8.toNat_and]
  exact Nat.and_two_pow_sub_one_eq_mod byte.toNat 7

/-- The continuation test of the decoder, as a comparison. -/
theorem and_128_ne_zero_iff (byte : UInt8) : byte &&& 128 ≠ 0 ↔ ¬ byte < 128 := by
  obtain ⟨bits⟩ := byte
  revert bits
  decide

/-- Started on a length field of admissible size, the loop consumes exactly that
field and adds its value at the current scale. -/
theorem mqttPacketDecodeLoop_of_holds (buf : Buf) {field : List UInt8} {length : Nat}
    (hvalue : lengthValue field = some length)
    {left ptr multiplier value len : Nat} (hleft : field.length ≤ left)
    (hholds : buf.Holds ptr field) :
    mqttPacketDecodeLoop buf left ptr multiplier value len =
      (len + field.length, value + length * multiplier) := by
  induction field generalizing left ptr multiplier value len length with
  | nil => simp [lengthValue] at hvalue
  | cons byte rest ih =>
      obtain ⟨left, rfl⟩ : ∃ pred, left = pred + 1 :=
        ⟨left - 1, by simp only [List.length_cons] at hleft; omega⟩
      rw [Buf.holds_cons] at hholds
      obtain ⟨hbyte, hrest⟩ := hholds
      simp only [mqttPacketDecodeLoop, hbyte, toNat_and_127, and_128_ne_zero_iff]
      by_cases hlast : byte < 128
      · rw [lengthValue_cons_of_lt hlast] at hvalue
        have hsmall : byte.toNat < 128 := UInt8.lt_iff_toNat_lt.mp hlast
        split at hvalue
        · next hnil =>
            obtain rfl : byte.toNat = length := by simpa using hvalue
            simp [hlast, hnil, Nat.mod_eq_of_lt hsmall]
        · exact absurd hvalue (by simp)
      · rw [lengthValue_cons_of_ge hlast, Option.map_eq_some_iff] at hvalue
        obtain ⟨high, hhigh, rfl⟩ := hvalue
        have hlarge : 128 ≤ byte.toNat := by
          by_contra hsmall
          exact hlast (UInt8.lt_iff_toNat_lt.mpr (not_le.mp hsmall))
        have hdigit : byte.toNat % 128 = byte.toNat - 128 := by
          have := UInt8.toNat_lt byte
          omega
        simp only [hlast, not_false_eq_true, if_true]
        rw [ih hhigh (by simp only [List.length_cons] at hleft; omega) hrest, hdigit]
        simp only [List.length_cons, Prod.mk.injEq]
        refine ⟨by omega, ?_⟩
        rw [Nat.add_mul, Nat.add_assoc, Nat.mul_comm 128 high, Nat.mul_assoc,
          Nat.mul_comm 128 multiplier]

/-- A buffer that holds one complete packet: header byte, shortest length field
and a body of the announced length. What follows in memory is arbitrary. -/
structure CompletePacket (buf : Buf) (header : UInt8) (body : List UInt8) : Prop where
  encodable : body.length ≤ 268435455
  holds : buf.Holds 0 (header :: (mqttPacketEncode body.length ++ body))

namespace CompletePacket

variable {buf : Buf} {header : UInt8} {body : List UInt8}

/-- The packet that a list of bytes forms, for any memory behind it. -/
theorem ofBytes (header : UInt8) (body rest : List UInt8)
    (hencodable : body.length ≤ 268435455) :
    CompletePacket
      (Buf.ofBytes (header :: (mqttPacketEncode body.length ++ body) ++ rest)) header body :=
  ⟨hencodable, Buf.holds_ofBytes _ rest⟩

theorem header_eq (hpacket : CompletePacket buf header body) : buf 0 = header :=
  ((Buf.holds_cons buf 0 _ _).mp hpacket.holds).1

/-- The bytes behind the header byte and the length field are the body. -/
theorem body_holds (hpacket : CompletePacket buf header body) :
    buf.Holds (1 + (mqttPacketEncode body.length).length) body :=
  ((Buf.holds_append buf 1 _ _).mp ((Buf.holds_cons buf 0 _ _).mp hpacket.holds).2).2

/-- Decoding the length field finds its size and the body's length. -/
theorem decodeBuf_eq (hpacket : CompletePacket buf header body) :
    mqttPacketDecodeBuf buf 1 = ((mqttPacketEncode body.length).length, body.length) := by
  have hfield : buf.Holds 1 (mqttPacketEncode body.length) :=
    ((Buf.holds_append buf 1 _ _).mp ((Buf.holds_cons buf 0 _ _).mp hpacket.holds).2).1
  have hfour : (mqttPacketEncode body.length).length ≤ 4 :=
    length_mqttPacketEncode_le (by decide) (Nat.lt_succ_of_le hpacket.encodable)
  rw [mqttPacketDecodeBuf,
    mqttPacketDecodeLoop_of_holds buf (lengthValue_mqttPacketEncode _) hfour hfield]
  simp

/-- A body shorter than two bytes is announced by a single length byte. -/
theorem length_field_of_short (hshort : body.length < 2) :
    (mqttPacketEncode body.length).length = 1 := by
  rw [mqttPacketEncode_eq, if_pos (by omega)]
  rfl

end CompletePacket

/-! ## What the acknowledgement deserializers answer -/

section Acknowledgements

variable {buf : Buf} {header : UInt8} {body : List UInt8}

/-- The first two body bytes, where the body has them. -/
theorem body_prefix_of_two_le (hlong : 2 ≤ body.length) :
    ∃ first second rest, body = first :: second :: rest := by
  match body, hlong with
  | first :: second :: rest, _ => exact ⟨first, second, rest, rfl⟩

theorem mqttDeserializeConnack_other (hpacket : CompletePacket buf header body)
    (htype : mqttHeaderGetType header ≠ MsgType.connack.code) :
    mqttDeserializeConnack buf = ⟨0, none, none⟩ := by
  simp [mqttDeserializeConnack, readChar, hpacket.header_eq, htype]

theorem mqttDeserializeConnack_short (hpacket : CompletePacket buf header body)
    (htype : mqttHeaderGetType header = MsgType.connack.code) (hshort : body.length < 2) :
    mqttDeserializeConnack buf = ⟨1, none, none⟩ := by
  simp [mqttDeserializeConnack, readChar, hpacket.header_eq, htype, hpacket.decodeBuf_eq,
    hshort, CompletePacket.length_field_of_short hshort]

theorem mqttDeserializeConnack_long {first second : UInt8} {rest : List UInt8}
    (hpacket : CompletePacket buf header (first :: second :: rest))
    (htype : mqttHeaderGetType header = MsgType.connack.code) :
    mqttDeserializeConnack buf = ⟨1, some (first >>> 7), some second⟩ := by
  have hbody := hpacket.body_holds
  rw [Buf.holds_cons, Buf.holds_cons] at hbody
  obtain ⟨hfirst, hsecond, _⟩ := hbody
  have hlong : ¬ (first :: second :: rest).length < 2 := by simp
  simp only [mqttDeserializeConnack, readChar, hpacket.header_eq, htype,
    hpacket.decodeBuf_eq, hlong, hfirst, hsecond, ne_eq, not_true_eq_false, if_false]

theorem mqttDeserializeAck_short (hpacket : CompletePacket buf header body)
    (hshort : body.length < 2) :
    mqttDeserializeAck buf =
      ⟨1, mqttHeaderGetType header, mqttHeaderGetDup header, none⟩ := by
  simp [mqttDeserializeAck, readChar, hpacket.header_eq, hpacket.decodeBuf_eq, hshort,
    CompletePacket.length_field_of_short hshort]

theorem mqttDeserializeAck_long {first second : UInt8} {rest : List UInt8}
    (hpacket : CompletePacket buf header (first :: second :: rest)) :
    mqttDeserializeAck buf =
      ⟨1, mqttHeaderGetType header, mqttHeaderGetDup header,
        some (256 * first.toNat + second.toNat)⟩ := by
  have hbody := hpacket.body_holds
  rw [Buf.holds_cons, Buf.holds_cons] at hbody
  obtain ⟨hfirst, hsecond, _⟩ := hbody
  have hlong : ¬ (first :: second :: rest).length < 2 := by simp
  simp only [mqttDeserializeAck, readChar, readInt, hpacket.header_eq,
    hpacket.decodeBuf_eq, hlong, hfirst, hsecond, if_false]

/-- The loop copies every code when there is room for all of them and fails when
there is not. -/
theorem mqttDeserializeSubackLoop_eq (maxcount : Nat) (codes : List UInt8)
    (granted : List Int) (hroom : granted.length ≤ maxcount) :
    mqttDeserializeSubackLoop maxcount codes granted =
      if granted.length + codes.length ≤ maxcount then
        some (granted ++ codes.map signedChar)
      else none := by
  induction codes generalizing granted with
  | nil => simp [mqttDeserializeSubackLoop, hroom]
  | cons byte rest ih =>
      by_cases hfull : granted.length ≥ maxcount
      · have hover : ¬ granted.length + (byte :: rest).length ≤ maxcount := by
          simp only [List.length_cons]
          omega
        rw [mqttDeserializeSubackLoop, if_pos hfull, if_neg hover]
      · rw [mqttDeserializeSubackLoop, if_neg hfull, ih _ (by simp; omega)]
        have hsame : (granted ++ [signedChar byte]).length + rest.length =
            granted.length + (byte :: rest).length := by
          simp only [List.length_append, List.length_cons, List.length_nil]
          omega
        rw [hsame, List.map_cons, List.append_assoc, List.singleton_append]

theorem mqttDeserializeSuback_other (maxcount : Nat)
    (hpacket : CompletePacket buf header body)
    (htype : mqttHeaderGetType header ≠ MsgType.suback.code) :
    mqttDeserializeSuback maxcount buf = ⟨0, none, none, []⟩ := by
  simp [mqttDeserializeSuback, readChar, hpacket.header_eq, htype]

theorem mqttDeserializeSuback_short (maxcount : Nat)
    (hpacket : CompletePacket buf header body)
    (htype : mqttHeaderGetType header = MsgType.suback.code) (hshort : body.length < 2) :
    mqttDeserializeSuback maxcount buf = ⟨1, none, none, []⟩ := by
  simp [mqttDeserializeSuback, readChar, hpacket.header_eq, htype, hpacket.decodeBuf_eq,
    hshort, CompletePacket.length_field_of_short hshort]

theorem mqttDeserializeSuback_long (maxcount : Nat) {first second : UInt8}
    {rest : List UInt8} (hpacket : CompletePacket buf header (first :: second :: rest))
    (htype : mqttHeaderGetType header = MsgType.suback.code) :
    mqttDeserializeSuback maxcount buf =
      if rest.length ≤ maxcount then
        ⟨1, some (256 * first.toNat + second.toNat), some rest.length, rest.map signedChar⟩
      else
        ⟨-1, some (256 * first.toNat + second.toNat), some maxcount,
          (rest.take maxcount).map signedChar⟩ := by
  have hbody := hpacket.body_holds
  rw [Buf.holds_cons, Buf.holds_cons] at hbody
  obtain ⟨hfirst, hsecond, hrest⟩ := hbody
  have hlong : ¬ (first :: second :: rest).length < 2 := by simp
  have hcodes : ∀ ptr, buf.Holds (ptr + 1 + 1) rest →
      buf.slice (ptr + 2) (ptr + (first :: second :: rest).length - (ptr + 2)) = rest := by
    intro ptr hptr
    have hlength : ptr + (first :: second :: rest).length - (ptr + 2) = rest.length := by
      simp only [List.length_cons]
      omega
    rw [hlength]
    exact hptr
  simp only [mqttDeserializeSuback, readChar, readInt, hpacket.header_eq, htype,
    hpacket.decodeBuf_eq, hlong, hfirst, hsecond, hcodes _ hrest, ne_eq,
    not_true_eq_false, if_false]
  rw [mqttDeserializeSubackLoop_eq maxcount rest [] (Nat.zero_le _)]
  by_cases hroom : rest.length ≤ maxcount
  · simp [hroom]
  · simp [hroom]

theorem mqttDeserializeUnsuback_eq (buf : Buf) (hone : (mqttDeserializeAck buf).rc = 1) :
    mqttDeserializeUnsuback buf = ⟨1, (mqttDeserializeAck buf).packetid⟩ := by
  rw [mqttDeserializeUnsuback]
  split
  · rfl
  · rw [hone]

end Acknowledgements

/-! ## What the callers may rely on -/

/-- A deserializer and its caller treat a packet as they should: it answers 1
only for the expected type and a body that holds the two bytes of its fixed
fields, with its outputs then taken from the packet, and its caller sees a
failure for every packet of another type or with a shorter body. -/
structure Trustworthy (expected : MsgType) (header : UInt8) (body : List UInt8)
    (rc : Int) (fromBody reported : Prop) : Prop where
  accepted : rc = 1 →
    mqttHeaderGetType header = expected.code ∧ 2 ≤ body.length ∧ fromBody
  rejected : ¬ (mqttHeaderGetType header = expected.code ∧ 2 ≤ body.length) → reported

/-- The packet id that the first two body bytes spell. -/
def bodyPacketId (body : List UInt8) : Nat :=
  256 * (body.getD 0 0).toNat + (body.getD 1 0).toNat

/-- `MUTLI_SUBSCIRBE_MAX` -/
def mutliSubscirbeMax : Nat := 5

/-- `MQTTDeserialize_connack` with the `!= 1` test of its caller. -/
def ConnackTrustworthy (buf : Buf) (header : UInt8) (body : List UInt8) : Prop :=
  let result := mqttDeserializeConnack buf
  Trustworthy .connack header body result.rc
    (result.sessionPresent = some (body.getD 0 0 >>> 7) ∧
      result.connackRc = some (body.getD 1 0))
    (result.rc ≠ 1)

/-- `MQTTDeserialize_ack` as used for PUBACK, with the `!= 1` test of its caller. -/
def PubackTrustworthy (buf : Buf) (header : UInt8) (body : List UInt8) : Prop :=
  let result := mqttDeserializeAck buf
  Trustworthy .puback header body result.rc
    (result.packetid = some (bodyPacketId body)) (result.rc ≠ 1)

/-- `MQTTDeserialize_suback` with the `< 0` test of its caller. -/
def SubackTrustworthy (buf : Buf) (header : UInt8) (body : List UInt8) : Prop :=
  let result := mqttDeserializeSuback mutliSubscirbeMax buf
  Trustworthy .suback header body result.rc
    (result.packetid = some (bodyPacketId body) ∧
      result.count = some (body.length - 2) ∧
      result.grantedQoSs = (body.drop 2).map signedChar)
    (result.rc < 0)

/-- `MQTTDeserialize_unsuback` with the `!= 1` test of its caller. -/
def UnsubackTrustworthy (buf : Buf) (header : UInt8) (body : List UInt8) : Prop :=
  let result := mqttDeserializeUnsuback buf
  Trustworthy .unsuback header body result.rc
    (result.packetid = some (bodyPacketId body)) (result.rc ≠ 1)

section Trust

variable {buf : Buf} {header : UInt8} {body : List UInt8}

theorem connackTrustworthy_iff (hpacket : CompletePacket buf header body) :
    ConnackTrustworthy buf header body ↔
      mqttHeaderGetType header ≠ MsgType.connack.code ∨ 2 ≤ body.length := by
  by_cases htype : mqttHeaderGetType header = MsgType.connack.code
  · by_cases hlong : 2 ≤ body.length
    · obtain ⟨first, second, rest, rfl⟩ := body_prefix_of_two_le hlong
      refine iff_of_true ⟨fun _ => ⟨htype, hlong, ?_⟩, fun hbad => absurd ⟨htype, hlong⟩ hbad⟩
        (Or.inr hlong)
      simp [mqttDeserializeConnack_long hpacket htype]
    · have hshort := mqttDeserializeConnack_short hpacket htype (not_le.mp hlong)
      refine iff_of_false (fun htrust => hlong ?_) (by simp [htype, hlong])
      exact (htrust.accepted (by rw [hshort])).2.1
  · have hother := mqttDeserializeConnack_other hpacket htype
    refine iff_of_true ⟨fun hone => ?_, fun _ => ?_⟩ (Or.inl htype)
    · rw [hother] at hone
      exact absurd hone (by decide)
    · rw [hother]
      decide

/-- The plain acknowledgement deserializer answers 1 for every complete packet,
whatever its type and however short its body. -/
theorem mqttDeserializeAck_rc (hpacket : CompletePacket buf header body) :
    (mqttDeserializeAck buf).rc = 1 := by
  by_cases hlong : 2 ≤ body.length
  · obtain ⟨first, second, rest, rfl⟩ := body_prefix_of_two_le hlong
    rw [mqttDeserializeAck_long hpacket]
  · rw [mqttDeserializeAck_short hpacket (not_le.mp hlong)]

theorem mqttDeserializeAck_packetid (hpacket : CompletePacket buf header body)
    (hlong : 2 ≤ body.length) :
    (mqttDeserializeAck buf).packetid = some (bodyPacketId body) := by
  obtain ⟨first, second, rest, rfl⟩ := body_prefix_of_two_le hlong
  rw [mqttDeserializeAck_long hpacket]
  rfl

/-- A verdict that is always 1 is right exactly for the packets it should accept. -/
theorem trustworthy_iff_of_one {expected : MsgType} {rc : Int} {fromBody : Prop}
    (hone : rc = 1) (hbody : 2 ≤ body.length → fromBody) :
    Trustworthy expected header body rc fromBody (rc ≠ 1) ↔
      mqttHeaderGetType header = expected.code ∧ 2 ≤ body.length := by
  constructor
  · intro htrust
    have haccepted := htrust.accepted hone
    exact ⟨haccepted.1, haccepted.2.1⟩
  · rintro ⟨htype, hlong⟩
    exact ⟨fun _ => ⟨htype, hlong, hbody hlong⟩, fun hbad => absurd ⟨htype, hlong⟩ hbad⟩

theorem pubackTrustworthy_iff (hpacket : CompletePacket buf header body) :
    PubackTrustworthy buf header body ↔
      mqttHeaderGetType header = MsgType.puback.code ∧ 2 ≤ body.length :=
  trustworthy_iff_of_one (mqttDeserializeAck_rc hpacket) (mqttDeserializeAck_packetid hpacket)

theorem unsubackTrustworthy_iff (hpacket : CompletePacket buf header body) :
    UnsubackTrustworthy buf header body ↔
      mqttHeaderGetType header = MsgType.unsuback.code ∧ 2 ≤ body.length := by
  have hunsuback := mqttDeserializeUnsuback_eq buf (mqttDeserializeAck_rc hpacket)
  rw [UnsubackTrustworthy, hunsuback]
  exact trustworthy_iff_of_one rfl (mqttDeserializeAck_packetid hpacket)

theorem subackTrustworthy_iff (hpacket : CompletePacket buf header body) :
    SubackTrustworthy buf header body ↔
      mqttHeaderGetType header = MsgType.suback.code ∧ 2 ≤ body.length := by
  by_cases htype : mqttHeaderGetType header = MsgType.suback.code
  · by_cases hlong : 2 ≤ body.length
    · obtain ⟨first, second, rest, rfl⟩ := body_prefix_of_two_le hlong
      refine iff_of_true ⟨fun hone => ⟨htype, hlong, ?_⟩, fun hbad => absurd ⟨htype, hlong⟩ hbad⟩
        ⟨htype, hlong⟩
      rw [mqttDeserializeSuback_long _ hpacket htype] at hone ⊢
      split at hone
      · next hroom => simp [hroom, bodyPacketId]
      · exact absurd hone (by simp)
    · have hshort := mqttDeserializeSuback_short mutliSubscirbeMax hpacket htype
        (not_le.mp hlong)
      refine iff_of_false (fun htrust => hlong ?_) fun h => hlong h.2
      exact (htrust.accepted (by rw [hshort])).2.1
  · have hother := mqttDeserializeSuback_other mutliSubscirbeMax hpacket htype
    refine iff_of_false (fun htrust => ?_) fun h => htype h.1
    have hreported := htrust.rejected fun h => htype h.1
    rw [hother] at hreported
    exact absurd hreported (by decide)

end Trust

/-- For every complete packet: the CONNACK deserializer is right unless a CONNACK
has a body shorter than two bytes, and each of the other three is right exactly
for packets of its own type whose body has two bytes. -/
theorem deserializers_trustworthy_iff (buf : Buf) (header : UInt8) (body : List UInt8)
    (hpacket : CompletePacket buf header body) :
    (ConnackTrustworthy buf header body ↔
        mqttHeaderGetType header ≠ MsgType.connack.code ∨ 2 ≤ body.length) ∧
      (PubackTrustworthy buf header body ↔
        mqttHeaderGetType header = MsgType.puback.code ∧ 2 ≤ body.length) ∧
      (SubackTrustworthy buf header body ↔
        mqttHeaderGetType header = MsgType.suback.code ∧ 2 ≤ body.length) ∧
      (UnsubackTrustworthy buf header body ↔
        mqttHeaderGetType header = MsgType.unsuback.code ∧ 2 ≤ body.length) :=
  ⟨connackTrustworthy_iff hpacket, pubackTrustworthy_iff hpacket,
    subackTrustworthy_iff hpacket, unsubackTrustworthy_iff hpacket⟩

/-- The PUBACK `40 02 00 07` is such a packet, and it is read as packet id 7. -/
theorem deserializers_trustworthy_puback :
    PubackTrustworthy (Buf.ofBytes (0x40 :: (mqttPacketEncode 2 ++ [0, 7]))) 0x40 [0, 7] := by
  have hpacket : CompletePacket (Buf.ofBytes (0x40 :: (mqttPacketEncode 2 ++ [0, 7])))
      0x40 [0, 7] := CompletePacket.ofBytes 0x40 [0, 7] [] (by decide)
  exact (deserializers_trustworthy_iff _ 0x40 [0, 7] hpacket).2.1.mpr (by decide)

/-- The PUBACK `40 00` carries no packet id and is accepted all the same. -/
theorem puback_without_body_accepted :
    CompletePacket (Buf.ofBytes [0x40, 0x00]) 0x40 [] ∧
      ¬ PubackTrustworthy (Buf.ofBytes [0x40, 0x00]) 0x40 [] := by
  have hpacket : CompletePacket (Buf.ofBytes [0x40, 0x00]) 0x40 [] :=
    CompletePacket.ofBytes 0x40 [] [] (by decide)
  refine ⟨hpacket, fun htrust => ?_⟩
  have hrc : (mqttDeserializeAck (Buf.ofBytes [0x40, 0x00])).rc = 1 := by decide
  exact absurd (htrust.accepted hrc).2.1 (by decide)

end EnosDeviceSdk.Mqtt
