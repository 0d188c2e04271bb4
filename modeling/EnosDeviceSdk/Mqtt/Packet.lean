/-
# The building blocks of an MQTT packet

`MQTTPacket.c` and `MQTTPacket.h`: the fixed header byte, the variable-length
remaining-length field, big-endian 16-bit integers and length-prefixed strings.
Writers are modelled by the bytes they append; readers walk a buffer with an
offset, exactly as the source walks it with a pointer.

The wire format itself is stated independently of the code: a length field is a
little-endian base-128 numeral, and a whole packet is a header byte, a length
field and a body of the announced length. The format is self-delimiting, which
is what makes "a whole number of packets" a meaningful property of a stream.
-/

import EnosDeviceSdk.Library.Framing
import EnosDeviceSdk.Infra.Memory
import Mathlib.Algebra.Order.Group.Nat

namespace EnosDeviceSdk.Mqtt

open EnosDeviceSdk.Infra EnosDeviceSdk.Library

/-- `MQTTPACKET_BUFFER_TOO_SHORT` -/
def mqttpacketBufferTooShort : Int := -2

/-- `MQTTPACKET_READ_ERROR` -/
def mqttpacketReadError : Int := -1

/-- `enum msgTypes`, the control packet types. -/
inductive MsgType
  | mqttCptReserved | connect | connack | publish | puback | pubrec | pubrel
  | pubcomp | subscribe | suback | unsubscribe | unsuback
  | pingreq | pingresp | disconnect
  deriving DecidableEq, Repr

/-- The enumerator's value, as it stands in the upper nibble of a header byte. -/
def MsgType.code : MsgType → UInt8
  | .mqttCptReserved => 0
  | .connect => 1
  | .connack => 2
  | .publish => 3
  | .puback => 4
  | .pubrec => 5
  | .pubrel => 6
  | .pubcomp => 7
  | .subscribe => 8
  | .suback => 9
  | .unsubscribe => 10
  | .unsuback => 11
  | .pingreq => 12
  | .pingresp => 13
  | .disconnect => 14

/-! ## The header byte -/

/-- `MQTT_HEADER_GET_TYPE` -/
def mqttHeaderGetType (head : UInt8) : UInt8 := (head &&& 0xF0) >>> 4

/-- `MQTT_HEADER_GET_DUP` -/
def mqttHeaderGetDup (head : UInt8) : UInt8 := (head &&& 0x08) >>> 3

/-- `MQTT_HEADER_GET_QOS` -/
def mqttHeaderGetQos (head : UInt8) : UInt8 := (head &&& 0x06) >>> 1

/-- `MQTT_HEADER_GET_RETAIN` -/
def mqttHeaderGetRetain (head : UInt8) : UInt8 := head &&& 0x01

/-- `MQTT_HEADER_SET_TYPE` -/
def mqttHeaderSetType (head type : UInt8) : UInt8 := head ||| ((type <<< 4) &&& 0xF0)

/-- `MQTT_HEADER_SET_DUP` -/
def mqttHeaderSetDup (head dup : UInt8) : UInt8 := head ||| ((dup <<< 3) &&& 0x08)

/-- `MQTT_HEADER_SET_QOS` -/
def mqttHeaderSetQos (head qos : UInt8) : UInt8 := head ||| ((qos <<< 1) &&& 0x06)

/-- `MQTT_HEADER_SET_RETAIN` -/
def mqttHeaderSetRetain (head retain : UInt8) : UInt8 := head ||| (retain &&& 0x01)

/-! ## The remaining-length field -/

/-- The digits that `MQTTPacket_encode` writes; the fuel bounds the loop. -/
def mqttPacketEncodeLoop : Nat → Nat → List UInt8
  | 0, _ => []
  | fuel + 1, length =>
      let d := UInt8.ofNat (length % 128)
      if length / 128 > 0 then (d ||| 0x80) :: mqttPacketEncodeLoop fuel (length / 128)
      else [d]

/-- `MQTTPacket_encode`: the bytes written for a length. -/
def mqttPacketEncode (length : Nat) : List UInt8 := mqttPacketEncodeLoop (length + 1) length

/-- The loop of `MQTTPacket_decode` on a buffer. `left` counts the length bytes
that may still come before `++len` passes the limit of four; `len` is the
function's result and `value` its output parameter. -/
def mqttPacketDecodeLoop (buf : Buf) : Nat → Nat → Nat → Nat → Nat → Nat × Nat
  | 0, _, _, value, len => (len + 1, value)
  | left + 1, ptr, multiplier, value, len =>
      let c := buf ptr
      let value := value + (c &&& 127).toNat * multiplier
      if c &&& 128 ≠ 0 then
        mqttPacketDecodeLoop buf left (ptr + 1) (multiplier * 128) value (len + 1)
      else (len + 1, value)

/-- `MQTTPacket_decodeBuf`: the number of length bytes and the decoded length. -/
def mqttPacketDecodeBuf (buf : Buf) (ptr : Nat) : Nat × Nat :=
  mqttPacketDecodeLoop buf 4 ptr 1 0 0

/-- `MQTTPacket_len`: the size of a packet with the given remaining length. -/
def mqttPacketLen (remLen : Nat) : Nat :=
  let remLen := remLen + 1
  if remLen < 128 then remLen + 1
  else if remLen < 16384 then remLen + 2
  else if remLen < 2097151 then remLen + 3
  else remLen + 4

/-! ## Integers and strings -/

/-- `readChar` -/
def readChar (buf : Buf) (ptr : Nat) : UInt8 × Nat := (buf ptr, ptr + 1)

/-- `readInt`: a big-endian 16-bit integer. -/
def readInt (buf : Buf) (ptr : Nat) : Nat × Nat :=
  (256 * (buf ptr).toNat + (buf (ptr + 1)).toNat, ptr + 2)

/-- `writeInt`: the two bytes written for an integer. -/
def writeInt (anInt : Nat) : List UInt8 :=
  [UInt8.ofNat (anInt / 256), UInt8.ofNat (anInt % 256)]

/-- `writeCString` -/
def writeCString (string : CString) : List UInt8 := writeInt string.strlen ++ string.bytes

/-- `MQTTLenString`. `data` is the memory the pointer refers to, `none` for a
null pointer. -/
structure MqttLenString where
  len : Nat
  data : Option (List UInt8)
  deriving DecidableEq

/-- `MQTTString`: a C string or a pointer with a length. -/
structure MqttString where
  cstring : Option CString
  lenstring : MqttLenString
  deriving DecidableEq

/-- `MQTTString_initializer` -/
def mqttStringInitializer : MqttString := ⟨none, ⟨0, none⟩⟩

/-- The string that callers build from a C string. -/
def MqttString.ofCString (string : CString) : MqttString :=
  { mqttStringInitializer with cstring := some string }

/-- The `len` bytes behind the pointer of a length-delimited string. -/
def MqttLenString.bytes (string : MqttLenString) : List UInt8 :=
  (string.data.getD []).take string.len

/-- `MQTTstrlen` -/
def mqttStrlen (mqttstring : MqttString) : Nat :=
  match mqttstring.cstring with
  | some string => string.strlen
  | none => mqttstring.lenstring.len

/-- `writeMQTTString` -/
def writeMqttString (mqttstring : MqttString) : List UInt8 :=
  if mqttstring.lenstring.len > 0 then
    writeInt mqttstring.lenstring.len ++ mqttstring.lenstring.bytes
  else
    match mqttstring.cstring with
    | some string => writeCString string
    | none => writeInt 0

/-- `readMQTTLenString`: the result code, the string and the advanced pointer.
A string that does not fit leaves `data` null and its announced length set. -/
def readMqttLenString (mqttstring : MqttString) (buf : Buf) (ptr enddata : Nat) :
    Bool × MqttString × Nat :=
  if enddata > ptr + 1 then
    let (len, ptr) := readInt buf ptr
    if ptr + len ≤ enddata then
      (true, ⟨none, ⟨len, some (buf.slice ptr len)⟩⟩, ptr + len)
    else (false, ⟨none, ⟨len, mqttstring.lenstring.data⟩⟩, ptr)
  else (false, { mqttstring with cstring := none }, ptr)

/-- `MQTTPacket_equals`: an `MQTTString` against a C string. -/
def mqttPacketEquals (a : MqttString) (b : CString) : Bool :=
  let (aptr, alen) :=
    match a.cstring with
    | some string => (string.bytes, string.strlen)
    | none => (a.lenstring.bytes, a.lenstring.len)
  alen == b.strlen && aptr == b.bytes

/-! ## The wire format -/

/-- The value of a length field: base 128, least significant digit first, with
the top bit set on every byte but the last. -/
def lengthValue : List UInt8 → Option Nat
  | [] => none
  | byte :: rest =>
      if byte < 128 then
        if rest = [] then some byte.toNat else none
      else (lengthValue rest).map fun high => (byte.toNat - 128) + 128 * high

/-- A header byte, a length field and a body of exactly the announced length. -/
def PacketOf (header : UInt8) (lengthField body : List UInt8) (bytes : List UInt8) : Prop :=
  lengthValue lengthField = some body.length ∧ bytes = header :: (lengthField ++ body)

/-- One complete MQTT packet: its length field has at most four bytes. -/
def WholePacket (bytes : List UInt8) : Prop :=
  ∃ header lengthField body, lengthField.length ≤ 4 ∧ PacketOf header lengthField body bytes

/-- One complete packet as this client writes it, with the shortest length field. -/
def SerializedPacket (bytes : List UInt8) : Prop :=
  ∃ header body, bytes = header :: (mqttPacketEncode body.length ++ body)

theorem lengthValue_cons_of_lt {byte : UInt8} (hlast : byte < 128) (rest : List UInt8) :
    lengthValue (byte :: rest) = if rest = [] then some byte.toNat else none := by
  simp [lengthValue, hlast]

theorem lengthValue_cons_of_ge {byte : UInt8} (hmore : ¬ byte < 128) (rest : List UInt8) :
    lengthValue (byte :: rest) =
      (lengthValue rest).map fun high => (byte.toNat - 128) + 128 * high := by
  simp [lengthValue, hmore]

/-- The value of a length field has no more digits than the field has bytes. -/
theorem lengthValue_lt {field : List UInt8} {length : Nat}
    (hvalue : lengthValue field = some length) : length < 128 ^ field.length := by
  induction field generalizing length with
  | nil => simp [lengthValue] at hvalue
  | cons byte rest ih =>
      rw [List.length_cons, Nat.pow_succ]
      by_cases hlast : byte < 128
      · rw [lengthValue_cons_of_lt hlast] at hvalue
        split at hvalue
        · have hsmall : byte.toNat < 128 := UInt8.lt_iff_toNat_lt.mp hlast
          have hpositive : 0 < 128 ^ rest.length := Nat.pow_pos (by decide)
          simp only [Option.some.injEq] at hvalue
          omega
        · exact absurd hvalue (by simp)
      · rw [lengthValue_cons_of_ge hlast, Option.map_eq_some_iff] at hvalue
        obtain ⟨high, hhigh, rfl⟩ := hvalue
        have hbyte := byte.toNat_lt
        have hhighLt := ih hhigh
        omega

/-- A length field ends at its first byte below 128, so no length field is a
proper prefix of another. -/
theorem lengthField_unique {first second restFirst restSecond : List UInt8}
    {valueFirst valueSecond : Nat} (hfirst : lengthValue first = some valueFirst)
    (hsecond : lengthValue second = some valueSecond)
    (hsame : first ++ restFirst = second ++ restSecond) : first = second := by
  induction first generalizing second valueFirst valueSecond with
  | nil => simp [lengthValue] at hfirst
  | cons byte left ih =>
      cases second with
      | nil => simp [lengthValue] at hsecond
      | cons other right =>
          simp only [List.cons_append, List.cons.injEq] at hsame
          obtain ⟨rfl, hrest⟩ := hsame
          by_cases hlast : byte < 128
          · rw [lengthValue_cons_of_lt hlast] at hfirst hsecond
            split at hfirst
            · split at hsecond
              · simp_all
              · exact absurd hsecond (by simp)
            · exact absurd hfirst (by simp)
          · rw [lengthValue_cons_of_ge hlast, Option.map_eq_some_iff] at hfirst hsecond
            obtain ⟨_, hleft, _⟩ := hfirst
            obtain ⟨_, hright, _⟩ := hsecond
            rw [ih hleft hright hrest]

/-- Header, length field and body of a packet are determined by any stream that
starts with it. -/
theorem packetOf_unique {headerA headerB : UInt8}
    {lengthA bodyA lengthB bodyB bytesA bytesB restA restB : List UInt8}
    (hA : PacketOf headerA lengthA bodyA bytesA)
    (hB : PacketOf headerB lengthB bodyB bytesB)
    (hsame : bytesA ++ restA = bytesB ++ restB) :
    bytesA = bytesB := by
  obtain ⟨hvalueA, rfl⟩ := hA
  obtain ⟨hvalueB, rfl⟩ := hB
  simp only [List.cons_append, List.append_assoc, List.cons.injEq] at hsame
  obtain ⟨rfl, hsame⟩ := hsame
  have hfield : lengthA = lengthB := lengthField_unique hvalueA hvalueB hsame
  subst hfield
  have hlength : bodyA.length = bodyB.length := by
    rw [hvalueA, Option.some.injEq] at hvalueB
    exact hvalueB
  have hbody := (List.append_inj (List.append_cancel_left hsame) hlength).1
  rw [hbody]

/-- Whole packets delimit themselves. -/
theorem wholePacket_selfDelimiting : SelfDelimiting WholePacket where
  nonempty := by
    rintro _ ⟨_, _, _, _, _, rfl⟩
    simp
  unique := by
    rintro first second restFirst restSecond ⟨_, _, _, _, hfirst⟩ ⟨_, _, _, _, hsecond⟩ hsame
    exact packetOf_unique hfirst hsecond hsame

/-! ## Encoding a length -/

theorem mqttPacketEncodeLoop_fuel {fuel more length : Nat} (hfuel : length < fuel)
    (hmore : length < more) :
    mqttPacketEncodeLoop fuel length = mqttPacketEncodeLoop more length := by
  induction fuel generalizing more length with
  | zero => omega
  | succ fuel ih =>
      obtain ⟨more, rfl⟩ : ∃ pred, more = pred + 1 := ⟨more - 1, by omega⟩
      simp only [mqttPacketEncodeLoop]
      split
      · rw [@ih more (length / 128) (by omega) (by omega)]
      · rfl

/-- The encoder's loop, one digit at a time. -/
theorem mqttPacketEncode_eq (length : Nat) :
    mqttPacketEncode length =
      if length < 128 then [UInt8.ofNat length]
      else (UInt8.ofNat (length % 128) ||| 0x80) :: mqttPacketEncode (length / 128) := by
  rw [mqttPacketEncode, mqttPacketEncodeLoop]
  by_cases hsmall : length < 128
  · have hzero : ¬ length / 128 > 0 := by omega
    simp only [hsmall, hzero, if_true, if_false, Nat.mod_eq_of_lt hsmall]
  · have hpositive : length / 128 > 0 := by omega
    simp only [hsmall, hpositive, if_true, if_false, mqttPacketEncode]
    have hfuel : length / 128 < length := by omega
    rw [mqttPacketEncodeLoop_fuel hfuel (Nat.lt_succ_self _)]

/-- A digit with the continuation bit set. -/
theorem toNat_continued_digit (digit : Nat) (hdigit : digit < 128) :
    (UInt8.ofNat digit ||| 0x80).toNat = digit + 128 := by
  have hor := Nat.two_pow_add_eq_or_of_lt (i := 7) hdigit 1
  rw [UInt8.toNat_or, UInt8.toNat_ofNat', Nat.mod_eq_of_lt (by omega : digit < 2 ^ 8)]
  have hbit : (0x80 : UInt8).toNat = 2 ^ 7 * 1 := by decide
  rw [hbit, Nat.or_comm, ← hor]
  omega

/-- The encoder writes a length field that denotes the length. -/
theorem lengthValue_mqttPacketEncode (length : Nat) :
    lengthValue (mqttPacketEncode length) = some length := by
  induction length using Nat.strongRecOn with
  | ind length ih =>
      rw [mqttPacketEncode_eq]
      by_cases hsmall : length < 128
      · have hbyte : UInt8.ofNat length < 128 := by
          rw [UInt8.lt_iff_toNat_lt, UInt8.toNat_ofNat', Nat.mod_eq_of_lt (by omega)]
          exact hsmall
        simp [hsmall, lengthValue_cons_of_lt hbyte, Nat.mod_eq_of_lt (by omega : length < 256)]
      · have hdigit := toNat_continued_digit (length % 128) (Nat.mod_lt _ (by decide))
        have hbyte : ¬ (UInt8.ofNat (length % 128) ||| 0x80) < 128 := by
          rw [UInt8.lt_iff_toNat_lt, hdigit]
          have hlimit : (128 : UInt8).toNat = 128 := by decide
          omega
        rw [if_neg hsmall, lengthValue_cons_of_ge hbyte, ih _ (by omega), hdigit]
        simp only [Option.map_some, Option.some.injEq]
        omega

/-- The encoder writes at most four bytes for every length that four digits hold. -/
theorem length_mqttPacketEncode_le {digits length : Nat} (hpositive : 0 < digits)
    (hlength : length < 128 ^ digits) : (mqttPacketEncode length).length ≤ digits := by
  induction digits generalizing length with
  | zero => omega
  | succ digits ih =>
      rw [mqttPacketEncode_eq]
      by_cases hsmall : length < 128
      · simp [hsmall]
      · simp only [hsmall, if_false, List.length_cons]
        have hdigits : 0 < digits := by
          by_contra hzero
          have hnone : digits = 0 := by omega
          subst hnone
          simp only [Nat.zero_add, Nat.pow_one] at hlength
          omega
        have hhigh : length / 128 < 128 ^ digits := by
          rw [Nat.div_lt_iff_lt_mul (by decide)]
          rwa [Nat.pow_succ] at hlength
        have := ih hdigits hhigh
        omega

theorem serializedPacket_selfDelimiting : SelfDelimiting SerializedPacket where
  nonempty := by
    rintro _ ⟨_, _, rfl⟩
    simp
  unique := by
    rintro first second restFirst restSecond ⟨headerA, bodyA, hfirst⟩
      ⟨headerB, bodyB, hsecond⟩ hsame
    exact packetOf_unique ⟨lengthValue_mqttPacketEncode bodyA.length, hfirst⟩
      ⟨lengthValue_mqttPacketEncode bodyB.length, hsecond⟩ hsame

/-- The topic `/a`. -/
def plainTopic : CString := ⟨[47, 97], by decide⟩

end EnosDeviceSdk.Mqtt
