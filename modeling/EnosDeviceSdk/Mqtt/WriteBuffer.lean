/-
# Serializing into a buffer

The serializers once more, with the memory they write and the pointer they advance.
Each step of the writer stores its bytes at the pointer and moves it behind them, so a
serializer stores one list of bytes from the start of the buffer: the list that its
model in `Serialize` returns. What a serializer promises about the buffer follows from
that list being one complete packet.
-/

import EnosDeviceSdk.Mqtt.Deserialize
import EnosDeviceSdk.Mqtt.Serialize

namespace EnosDeviceSdk.Mqtt

open EnosDeviceSdk.Infra

/-- The output buffer and the write pointer, as an offset into it. -/
structure Writer where
  buf : Buf
  ptr : Nat

namespace Writer

/-- `memcpy` to the pointer, and the pointer moved behind it. -/
def memcpy (w : Writer) (bytes : List UInt8) (len : Nat) : Writer :=
  ⟨w.buf.write w.ptr bytes, w.ptr + len⟩

/-- `writeChar` -/
def writeChar (w : Writer) (c : UInt8) : Writer := ⟨Function.update w.buf w.ptr c, w.ptr + 1⟩

/-- `writeInt` -/
def writeInt (w : Writer) (anInt : Nat) : Writer :=
  (w.writeChar (UInt8.ofNat (anInt / 256))).writeChar (UInt8.ofNat (anInt % 256))

/-- `writeCString` -/
def writeCString (w : Writer) (string : CString) : Writer :=
  (w.writeInt string.strlen).memcpy string.bytes string.strlen

/-- `writeMQTTString` -/
def writeMqttString (w : Writer) (mqttstring : MqttString) : Writer :=
  if mqttstring.lenstring.len > 0 then
    (w.writeInt mqttstring.lenstring.len).memcpy mqttstring.lenstring.bytes
      mqttstring.lenstring.len
  else
    match mqttstring.cstring with
    | some string => w.writeCString string
    | none => w.writeInt 0

/-- The loop of `MQTTPacket_encode` at the pointer; the fuel bounds it. -/
def mqttPacketEncodeLoop : Nat → Nat → Writer → Writer
  | 0, _, w => w
  | fuel + 1, length, w =>
      let d := UInt8.ofNat (length % 128)
      if length / 128 > 0 then mqttPacketEncodeLoop fuel (length / 128) (w.writeChar (d ||| 0x80))
      else w.writeChar d

/-- `ptr += MQTTPacket_encode(ptr, length)` -/
def mqttPacketEncode (w : Writer) (length : Nat) : Writer :=
  mqttPacketEncodeLoop (length + 1) length w

/-- `rc = ptr - buf` -/
def result (w : Writer) : Int × Buf := (w.ptr, w.buf)

end Writer

/-- `MQTTSerialize_connect` -/
def mqttSerializeConnectInto (buf : Buf) (buflen : Nat) (options : ConnectData) : Int × Buf :=
  let len := mqttSerializeConnectLength options
  if mqttPacketLen len > buflen then (mqttpacketBufferTooShort, buf)
  else
    let w := (Writer.mk buf 0).writeChar (mqttHeaderSetType 0 MsgType.connect.code)
    let w := w.mqttPacketEncode len
    let w :=
      if options.mqttVersion = 4 then (w.writeCString protocolMqtt).writeChar 4
      else (w.writeCString protocolMqisdp).writeChar 3
    let w := w.writeChar (connectFlags options)
    let w := w.writeInt options.keepAliveInterval.toNat
    let w := w.writeMqttString options.clientId
    let w :=
      if options.willFlag then
        (w.writeMqttString options.will.topicName).writeMqttString options.will.message
      else w
    let w := if options.username.isGiven then w.writeMqttString options.username else w
    let w := if options.password.isGiven then w.writeMqttString options.password else w
    w.result

/-- `MQTTSerialize_publish` -/
def mqttSerializePublishInto (buf : Buf) (buflen : Nat) (dup qos retained : UInt8)
    (packetid : Nat) (topicName : MqttString) (payload : List UInt8) : Int × Buf :=
  let remLen := mqttSerializePublishLength qos topicName payload.length
  if mqttPacketLen remLen > buflen then (mqttpacketBufferTooShort, buf)
  else
    let header := mqttHeaderSetType 0 MsgType.publish.code
    let header := mqttHeaderSetDup header dup
    let header := mqttHeaderSetQos header qos
    let header := mqttHeaderSetRetain header retained
    let w := (Writer.mk buf 0).writeChar header
    let w := w.mqttPacketEncode remLen
    let w := w.writeMqttString topicName
    let w := if qos > 0 then w.writeInt packetid else w
    let w := w.memcpy payload payload.length
    w.result

/-- `MQTTSerialize_subscribe` -/
def mqttSerializeSubscribeInto (buf : Buf) (buflen : Nat) (dup : UInt8) (packetid : Nat)
    (topicFilters : List (MqttString × UInt8)) : Int × Buf :=
  let remLen := mqttSerializeSubscribeLength topicFilters
  if mqttPacketLen remLen > buflen then (mqttpacketBufferTooShort, buf)
  else
    let header := mqttHeaderSetType 0 MsgType.subscribe.code
    let header := mqttHeaderSetDup header dup
    let header := mqttHeaderSetQos header 1
    let w := (Writer.mk buf 0).writeChar header
    let w := w.mqttPacketEncode remLen
    let w := w.writeInt packetid
    let w := topicFilters.foldl (fun w entry => (w.writeMqttString entry.1).writeChar entry.2) w
    w.result

/-- `MQTTSerialize_unsubscribe` -/
def mqttSerializeUnsubscribeInto (buf : Buf) (buflen : Nat) (dup : UInt8) (packetid : Nat)
    (topicFilters : List MqttString) : Int × Buf :=
  let remLen := mqttSerializeUnsubscribeLength topicFilters
  if mqttPacketLen remLen > buflen then (mqttpacketBufferTooShort, buf)
  else
    let header := mqttHeaderSetType 0 MsgType.unsubscribe.code
    let header := mqttHeaderSetDup header dup
    let header := mqttHeaderSetQos header 1
    let w := (Writer.mk buf 0).writeChar header
    let w := w.mqttPacketEncode remLen
    let w := w.writeInt packetid
    let w := topicFilters.foldl Writer.writeMqttString w
    w.result

/-! ## What the writer stores -/

namespace Writer

/-- The writer after it has stored some bytes. -/
def put (w : Writer) (bytes : List UInt8) : Writer := w.memcpy bytes bytes.length

@[simp]
theorem put_nil (w : Writer) : w.put [] = w := rfl

@[simp]
theorem put_put (w : Writer) (first second : List UInt8) :
    (w.put first).put second = w.put (first ++ second) := by
  simp only [put, memcpy, Buf.write_append, List.length_append, Nat.add_assoc]

theorem writeChar_eq (w : Writer) (c : UInt8) : w.writeChar c = w.put [c] := rfl

theorem writeInt_eq (w : Writer) (anInt : Nat) :
    w.writeInt anInt = w.put (Mqtt.writeInt anInt) := rfl

theorem writeCString_eq (w : Writer) (string : CString) :
    w.writeCString string = w.put (Mqtt.writeCString string) := by
  rw [Mqtt.writeCString, ← put_put]
  rfl

theorem writeMqttString_eq (w : Writer) {mqttstring : MqttString} (hform : mqttstring.OneForm) :
    w.writeMqttString mqttstring = w.put (Mqtt.writeMqttString mqttstring) := by
  rw [writeMqttString, Mqtt.writeMqttString]
  split
  · next hlen =>
      cases hcstring : mqttstring.cstring with
      | some string =>
          rw [MqttString.OneForm, hcstring] at hform
          exact absurd hlen (Nat.not_lt.mpr (Nat.le_of_eq hform))
      | none =>
          rw [MqttString.OneForm, hcstring] at hform
          rw [writeInt_eq, ← put_put, put, put, hform]
  · cases mqttstring.cstring with
    | some string => exact writeCString_eq w string
    | none => rfl

theorem mqttPacketEncodeLoop_eq (fuel length : Nat) (w : Writer) :
    mqttPacketEncodeLoop fuel length w = w.put (Mqtt.mqttPacketEncodeLoop fuel length) := by
  induction fuel generalizing length w with
  | zero => rfl
  | succ fuel ih =>
      rw [mqttPacketEncodeLoop, Mqtt.mqttPacketEncodeLoop]
      split
      · rw [ih, writeChar_eq, put_put]
        rfl
      · rfl

theorem mqttPacketEncode_eq (w : Writer) (length : Nat) :
    w.mqttPacketEncode length = w.put (Mqtt.mqttPacketEncode length) :=
  mqttPacketEncodeLoop_eq (length + 1) length w

/-- Strings that are stored one after the other, each with something behind it. -/
theorem foldl_put {α : Type} (w : Writer) (entries : List α) (store : Writer → α → Writer)
    (bytes : α → List UInt8)
    (hstore : ∀ w, ∀ entry ∈ entries, store w entry = w.put (bytes entry)) :
    entries.foldl store w = w.put (entries.flatMap bytes) := by
  induction entries generalizing w with
  | nil => rfl
  | cons entry rest ih =>
      rw [List.foldl_cons, hstore w entry (by simp), List.flatMap_cons, ← put_put]
      exact ih _ fun w later hlater => hstore w later (by simp [hlater])

end Writer

/-! ## What a serializer stores -/

/-- The bytes that are listed are stored from the start of the buffer and counted, or the
error is reported and the buffer left alone. -/
def Stores (buf : Buf) (listed : Except Int (List UInt8)) (result : Int × Buf) : Prop :=
  match listed with
  | .ok bytes => result = ((bytes.length : Int), buf.write 0 bytes)
  | .error code => result = (code, buf)

/-- The common frame of the serializers: where the packet fits, the writer stores its
header, its length field and its body. -/
theorem stores_of_put {buf : Buf} {buflen remLen : Nat} {header : UInt8} {body : List UInt8}
    {w : Writer} (hput : w = (Writer.mk buf 0).put (header :: (mqttPacketEncode remLen ++ body))) :
    Stores buf (serializePacket buflen header remLen body)
      (if mqttPacketLen remLen > buflen then (mqttpacketBufferTooShort, buf) else w.result) := by
  rw [serializePacket]
  split
  · rfl
  · rw [hput]
    simp only [Stores, Writer.result, Writer.put, Writer.memcpy, Nat.zero_add]

theorem stores_publish (buf : Buf) (buflen : Nat) (dup qos retained : UInt8) (packetid : Nat)
    {topicName : MqttString} (htopic : topicName.OneForm) (payload : List UInt8) :
    Stores buf (mqttSerializePublish buflen dup qos retained packetid topicName payload)
      (mqttSerializePublishInto buf buflen dup qos retained packetid topicName payload) := by
  refine stores_of_put ?_
  rw [Writer.writeChar_eq, Writer.mqttPacketEncode_eq, Writer.writeMqttString_eq _ htopic]
  by_cases hqos : qos > 0
  · simp only [hqos, if_true]
    rw [Writer.writeInt_eq, ← Writer.put]
    simp
  · simp only [hqos, if_false]
    rw [← Writer.put]
    simp

theorem stores_subscribe (buf : Buf) (buflen : Nat) (dup : UInt8) (packetid : Nat)
    {topicFilters : List (MqttString × UInt8)}
    (hfilters : ∀ entry ∈ topicFilters, entry.1.OneForm) :
    Stores buf (mqttSerializeSubscribe buflen dup packetid topicFilters)
      (mqttSerializeSubscribeInto buf buflen dup packetid topicFilters) := by
  refine stores_of_put ?_
  rw [Writer.writeChar_eq, Writer.mqttPacketEncode_eq, Writer.writeInt_eq,
    Writer.foldl_put _ _ _ fun entry => writeMqttString entry.1 ++ [entry.2]]
  · simp
  · intro w entry hentry
    rw [Writer.writeMqttString_eq _ (hfilters entry hentry), Writer.writeChar_eq, Writer.put_put]

theorem stores_unsubscribe (buf : Buf) (buflen : Nat) (dup : UInt8) (packetid : Nat)
    {topicFilters : List MqttString}
    (hfilters : ∀ topicFilter ∈ topicFilters, topicFilter.OneForm) :
    Stores buf (mqttSerializeUnsubscribe buflen dup packetid topicFilters)
      (mqttSerializeUnsubscribeInto buf buflen dup packetid topicFilters) := by
  refine stores_of_put ?_
  rw [Writer.writeChar_eq, Writer.mqttPacketEncode_eq, Writer.writeInt_eq,
    Writer.foldl_put _ _ _ writeMqttString]
  · simp
  · exact fun w topicFilter hfilter => Writer.writeMqttString_eq w (hfilters topicFilter hfilter)

/-- A part of a packet that is only written where it is given. -/
theorem Writer.put_optional (w : Writer) (given : Bool) (bytes : List UInt8) {stored : Writer}
    (hstored : stored = w.put bytes) :
    (if given then stored else w) = w.put (if given then bytes else []) := by
  cases given with
  | false => rfl
  | true => exact hstored

theorem stores_connect (buf : Buf) (buflen : Nat) {options : ConnectData}
    (hoptions : options.WellFormed) :
    Stores buf (mqttSerializeConnect buflen options)
      (mqttSerializeConnectInto buf buflen options) := by
  refine stores_of_put ?_
  have hprotocol (w : Writer) :
      (if options.mqttVersion = 4 then (w.writeCString protocolMqtt).writeChar 4
        else (w.writeCString protocolMqisdp).writeChar 3) =
          w.put (if options.mqttVersion = 4 then writeCString protocolMqtt ++ [4]
            else writeCString protocolMqisdp ++ [3]) := by
    split
    · rw [Writer.writeCString_eq, Writer.writeChar_eq, Writer.put_put]
    · rw [Writer.writeCString_eq, Writer.writeChar_eq, Writer.put_put]
  have hwill (w : Writer) :
      (w.writeMqttString options.will.topicName).writeMqttString options.will.message =
        w.put (writeMqttString options.will.topicName ++ writeMqttString options.will.message) := by
    rw [Writer.writeMqttString_eq _ hoptions.willTopic,
      Writer.writeMqttString_eq _ hoptions.willMessage, Writer.put_put]
  rw [Writer.put_optional _ _ _ (Writer.writeMqttString_eq _ hoptions.password),
    Writer.put_optional _ _ _ (Writer.writeMqttString_eq _ hoptions.username),
    Writer.put_optional _ _ _ (hwill _), Writer.writeMqttString_eq _ hoptions.clientId,
    Writer.writeInt_eq, Writer.writeChar_eq, hprotocol, Writer.mqttPacketEncode_eq,
    Writer.writeChar_eq]
  simp only [Writer.put_put, connectBody, List.append_assoc, List.cons_append, List.nil_append]

/-! ## One packet and nothing else -/

/-- What a serializer does to the buffer when its result is positive: the result is the
size of one packet that fits the buffer, all of its bytes are written, none behind it is,
and its length field is read back as the number of bytes that follow it. -/
structure WritesOnePacket (buflen : Nat) (serialize : Buf → Int × Buf) : Prop where
  fits : ∀ buf, 0 < (serialize buf).1 → (serialize buf).1 ≤ buflen
  written : ∀ buf other offset, 0 < (serialize buf).1 → (offset : Nat) < (serialize buf).1 →
    (serialize buf).2 offset = (serialize other).2 offset
  untouched : ∀ buf offset, 0 < (serialize buf).1 → (serialize buf).1 ≤ (offset : Nat) →
    (serialize buf).2 offset = buf offset
  framed : ∀ buf, 0 < (serialize buf).1 →
    ((1 + (mqttPacketDecodeBuf (serialize buf).2 1).1 +
      (mqttPacketDecodeBuf (serialize buf).2 1).2 : Nat) : Int) = (serialize buf).1

/-- The size that a packet is tested for is enough for it. -/
theorem length_packet_le {remLen : Nat} (hremLen : remLen ≤ 268435455) :
    1 + (mqttPacketEncode remLen).length + remLen ≤ mqttPacketLen remLen := by
  have hdigits (digits : Nat) (hpositive : 0 < digits) (hless : remLen < 128 ^ digits) :
      (mqttPacketEncode remLen).length ≤ digits := length_mqttPacketEncode_le hpositive hless
  have hone := hdigits 1 (by decide)
  have htwo := hdigits 2 (by decide)
  have hthree := hdigits 3 (by decide)
  have hfour := hdigits 4 (by decide)
  simp only [mqttPacketLen]
  split
  · omega
  · split
    · omega
    · split
      · omega
      · omega

/-- A serializer that stores a header, the length of its body and the body writes one
packet. -/
theorem writesOnePacket_of_stores {buflen remLen : Nat} {header : UInt8} {body : List UInt8}
    {serialize : Buf → Int × Buf} (hlength : body.length = remLen)
    (hremLen : remLen ≤ 268435455)
    (hstores : ∀ buf, Stores buf (serializePacket buflen header remLen body) (serialize buf)) :
    WritesOnePacket buflen serialize := by
  by_cases hroom : mqttPacketLen remLen > buflen
  · have hnever (buf : Buf) : ¬ 0 < (serialize buf).1 := by
      have hstored := hstores buf
      rw [serializePacket, if_pos hroom] at hstored
      have herror : ¬ 0 < mqttpacketBufferTooShort := by decide
      rwa [show serialize buf = (mqttpacketBufferTooShort, buf) from hstored]
    exact ⟨fun buf hpositive => absurd hpositive (hnever buf),
      fun buf _ _ hpositive => absurd hpositive (hnever buf),
      fun buf _ hpositive => absurd hpositive (hnever buf),
      fun buf hpositive => absurd hpositive (hnever buf)⟩
  · generalize hbytes : header :: (mqttPacketEncode remLen ++ body) = bytes
    have hresult (buf : Buf) : serialize buf = ((bytes.length : Int), buf.write 0 bytes) := by
      have hstored := hstores buf
      rw [serializePacket, if_neg hroom, hbytes] at hstored
      exact hstored
    have hsize : bytes.length = 1 + (mqttPacketEncode remLen).length + remLen := by
      rw [← hbytes, List.length_cons, List.length_append, hlength]
      omega
    have hle := length_packet_le hremLen
    constructor
    · intro buf _
      rw [hresult]
      exact Int.ofNat_le.mpr (by omega)
    · intro buf other offset _ hinside
      rw [hresult] at hinside ⊢
      rw [hresult]
      have hagree := (buf.holds_write 0 bytes).agree (other.holds_write 0 bytes)
        (Int.ofNat_lt.mp hinside)
      rwa [Nat.zero_add] at hagree
    · intro buf offset _ houtside
      rw [hresult] at houtside ⊢
      exact buf.write_outside 0 bytes (Or.inr (by have := Int.ofNat_le.mp houtside; omega))
    · intro buf _
      have hpacket : CompletePacket (buf.write 0 bytes) header body := by
        constructor
        · rwa [hlength]
        · rw [hlength, hbytes]
          exact buf.holds_write 0 bytes
      rw [hresult, hpacket.decodeBuf_eq, hlength, hsize]

/-- For every input of the four serializers whose strings are given in one representation
and whose remaining length can be encoded: a positive result means that one packet is
written. -/
theorem serializers_write_one_packet (buflen : Nat) :
    (∀ options : ConnectData, options.WellFormed →
        mqttSerializeConnectLength options ≤ 268435455 →
          WritesOnePacket buflen (mqttSerializeConnectInto · buflen options)) ∧
      (∀ dup qos retained packetid topicName payload, MqttString.OneForm topicName →
        mqttSerializePublishLength qos topicName payload.length ≤ 268435455 →
          WritesOnePacket buflen
            (mqttSerializePublishInto · buflen dup qos retained packetid topicName payload)) ∧
      (∀ dup packetid topicFilters, (∀ entry ∈ topicFilters, MqttString.OneForm entry.1) →
        mqttSerializeSubscribeLength topicFilters ≤ 268435455 →
          WritesOnePacket buflen
            (mqttSerializeSubscribeInto · buflen dup packetid topicFilters)) ∧
      ∀ dup packetid topicFilters, (∀ topicFilter ∈ topicFilters, MqttString.OneForm topicFilter) →
        mqttSerializeUnsubscribeLength topicFilters ≤ 268435455 →
          WritesOnePacket buflen
            (mqttSerializeUnsubscribeInto · buflen dup packetid topicFilters) := by
  refine ⟨?_, ?_, ?_, ?_⟩
  · intro options hoptions hremLen
    exact writesOnePacket_of_stores (length_connectBody hoptions) hremLen
      fun buf => stores_connect buf buflen hoptions
  · intro dup qos retained packetid topicName payload htopic hremLen
    exact writesOnePacket_of_stores (length_publishBody htopic qos packetid payload) hremLen
      fun buf => stores_publish buf buflen dup qos retained packetid htopic payload
  · intro dup packetid topicFilters hfilters hremLen
    exact writesOnePacket_of_stores (length_subscribeBody packetid hfilters) hremLen
      fun buf => stores_subscribe buf buflen dup packetid hfilters
  · intro dup packetid topicFilters hfilters hremLen
    exact writesOnePacket_of_stores (length_unsubscribeBody packetid hfilters) hremLen
      fun buf => stores_unsubscribe buf buflen dup packetid hfilters

/-- The SUBSCRIBE packet for the filters `/a` and `/+` in a buffer of 64 bytes, which it has room
in: it takes 14 of them. -/
theorem serializers_write_subscribe :
    (mqttSerializeSubscribeInto (fun _ => 0) 64 0 7
        [(.ofCString ⟨[47, 97], by decide⟩, 1), (.ofCString ⟨[47, 43], by decide⟩, 0)]).1 = 14 ∧
      WritesOnePacket 64
        (mqttSerializeSubscribeInto · 64 0 7
          [(.ofCString ⟨[47, 97], by decide⟩, 1), (.ofCString ⟨[47, 43], by decide⟩, 0)]) :=
  ⟨by decide +kernel, (serializers_write_one_packet 64).2.2.1 0 7 _
    (by simp [MqttString.oneForm_ofCString]) (by decide)⟩

end EnosDeviceSdk.Mqtt
