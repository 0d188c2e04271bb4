/-
# The size estimate of a packet and its encoder

`MQTTPacket_len` and `MQTTPacket_encode` know the base-128 thresholds of the length
field independently. The estimate compares them after it has added the header byte,
so it takes a packet whose remaining length stands right below a threshold for one
byte longer than it is; its third threshold is off by one besides.

The four serializers with a variable body ask the estimate whether the packet fits.
They are taken together here as one type of calls.
-/

import EnosDeviceSdk.Mqtt.Serialize

namespace EnosDeviceSdk.Mqtt

open EnosDeviceSdk.Infra

/-- The largest remaining length that four length bytes hold. -/
def maxRemainingLength : Nat := 268435455

/-- The remaining lengths at which the estimate and the encoder disagree. -/
def misjudgedLengths : List Nat := [127, 16383, 2097150, 2097151]

/-- The encoder writes one byte for each digit. -/
theorem length_mqttPacketEncode (length : Nat) :
    (mqttPacketEncode length).length =
      if length < 128 then 1 else (mqttPacketEncode (length / 128)).length + 1 := by
  rw [mqttPacketEncode_eq]
  split <;> rfl

/-- The thresholds of the encoder are the powers of 128. -/
theorem length_mqttPacketEncode_thresholds {length : Nat} (hmax : length ≤ maxRemainingLength) :
    (mqttPacketEncode length).length =
      if length < 128 then 1 else if length < 16384 then 2 else if length < 2097152 then 3
      else 4 := by
  have hfour : length / 128 / 128 / 128 < 128 := by
    rw [maxRemainingLength] at hmax
    omega
  rw [length_mqttPacketEncode, length_mqttPacketEncode (length / 128),
    length_mqttPacketEncode (length / 128 / 128),
    length_mqttPacketEncode (length / 128 / 128 / 128), if_pos hfour]
  have hsecond : length / 128 < 128 ↔ length < 16384 := by omega
  have hthird : length / 128 / 128 < 128 ↔ length < 2097152 := by omega
  simp only [hsecond, hthird]
  split_ifs <;> rfl

/-- The estimate is exact but for the misjudged lengths, which it takes for one byte
more than they need. -/
theorem mqttPacketLen_eq {remLen : Nat} (hmax : remLen ≤ maxRemainingLength) :
    mqttPacketLen remLen =
      1 + (mqttPacketEncode remLen).length + remLen +
        if remLen ∈ misjudgedLengths then 1 else 0 := by
  rw [length_mqttPacketEncode_thresholds hmax]
  simp only [mqttPacketLen, misjudgedLengths, List.mem_cons, List.not_mem_nil, or_false]
  split_ifs <;> omega

/-! ## The serializers that ask the estimate -/

/-- A call of one of the serializers with a variable body, without its buffer. -/
inductive SerializeCall
  | connect (options : ConnectData)
  | publish (dup qos retained : UInt8) (packetid : Nat) (topicName : MqttString)
      (payload : List UInt8)
  | subscribe (dup : UInt8) (packetid : Nat) (topicFilters : List (MqttString × UInt8))
  | unsubscribe (dup : UInt8) (packetid : Nat) (topicFilters : List MqttString)

namespace SerializeCall

/-- The call with a buffer of the given size. -/
def serialize (buflen : Nat) : SerializeCall → Except Int (List UInt8)
  | connect options => mqttSerializeConnect buflen options
  | publish dup qos retained packetid topicName payload =>
      mqttSerializePublish buflen dup qos retained packetid topicName payload
  | subscribe dup packetid topicFilters =>
      mqttSerializeSubscribe buflen dup packetid topicFilters
  | unsubscribe dup packetid topicFilters =>
      mqttSerializeUnsubscribe buflen dup packetid topicFilters

/-- The remaining length that the call computes. -/
def remLen : SerializeCall → Nat
  | connect options => mqttSerializeConnectLength options
  | publish _ qos _ _ topicName payload =>
      mqttSerializePublishLength qos topicName payload.length
  | subscribe _ _ topicFilters => mqttSerializeSubscribeLength topicFilters
  | unsubscribe _ _ topicFilters => mqttSerializeUnsubscribeLength topicFilters

/-- Every string has one representation, and a CONNECT has a known version. -/
def WellFormed : SerializeCall → Prop
  | connect options => options.WellFormed
  | publish _ _ _ _ topicName _ => topicName.OneForm
  | subscribe _ _ topicFilters => ∀ entry ∈ topicFilters, entry.1.OneForm
  | unsubscribe _ _ topicFilters => ∀ topicFilter ∈ topicFilters, topicFilter.OneForm

/-- The packet that the call writes into a buffer that it takes for large enough. -/
def Writes (call : SerializeCall) (packet : List UInt8) : Prop :=
  ∃ buflen, call.serialize buflen = .ok packet

/-- The call reports a short buffer exactly when the packet does not fit into it. -/
def JudgesBuffer (call : SerializeCall) (packet : List UInt8) (buflen : Nat) : Prop :=
  call.serialize buflen = .error mqttpacketBufferTooShort ↔ buflen < packet.length

/-- Each call is the shared scheme with a body of the computed length. -/
theorem serialize_eq {call : SerializeCall} (hformed : call.WellFormed) :
    ∃ header body, body.length = call.remLen ∧
      ∀ buflen, call.serialize buflen = serializePacket buflen header call.remLen body := by
  cases call with
  | connect options => exact ⟨_, _, length_connectBody hformed, fun _ => rfl⟩
  | publish dup qos retained packetid topicName payload =>
      exact ⟨_, _, length_publishBody hformed qos packetid payload, fun _ => rfl⟩
  | subscribe dup packetid topicFilters =>
      exact ⟨_, _, length_subscribeBody packetid hformed, fun _ => rfl⟩
  | unsubscribe dup packetid topicFilters =>
      exact ⟨_, _, length_unsubscribeBody packetid hformed, fun _ => rfl⟩

/-- Apart from the estimate, a call depends on its packet's size only. -/
theorem serialize_error_iff {call : SerializeCall} {packet : List UInt8}
    (hformed : call.WellFormed) (hpacket : call.Writes packet) (buflen : Nat) :
    packet.length = 1 + (mqttPacketEncode call.remLen).length + call.remLen ∧
      (call.serialize buflen = .error mqttpacketBufferTooShort ↔
        buflen < mqttPacketLen call.remLen) := by
  obtain ⟨header, body, hbody, hserialize⟩ := serialize_eq hformed
  obtain ⟨size, hsize⟩ := hpacket
  rw [hserialize, serializePacket] at hsize
  rw [hserialize, serializePacket]
  constructor
  · split at hsize
    · exact absurd hsize (by simp)
    · simp only [Except.ok.injEq] at hsize
      simp only [← hsize, List.length_cons, List.length_append, hbody]
      omega
  · split <;> simp_all

end SerializeCall

/-- The estimate is right, and a serializer judges its buffer rightly, but for the
misjudged lengths; with one of these, exactly the buffer into which the packet just
fits is refused. -/
theorem mqttPacketLen_exact_iff (n : Nat) (hmax : n ≤ maxRemainingLength) :
    (mqttPacketLen n = 1 + (mqttPacketEncode n).length + n ↔ n ∉ misjudgedLengths) ∧
    ∀ (call : SerializeCall) (packet : List UInt8), call.WellFormed → call.Writes packet →
      call.remLen = n → ∀ buflen,
        (call.JudgesBuffer packet buflen ↔ n ∉ misjudgedLengths ∨ buflen ≠ packet.length) := by
  constructor
  · rw [mqttPacketLen_eq hmax]
    split <;> simp_all
  · rintro call packet hformed hpacket rfl buflen
    obtain ⟨hlength, herror⟩ := SerializeCall.serialize_error_iff hformed hpacket buflen
    rw [SerializeCall.JudgesBuffer, herror, mqttPacketLen_eq hmax, ← hlength]
    by_cases hmisjudged : call.remLen ∈ misjudgedLengths
    · simp only [hmisjudged, if_true, not_true, false_or]
      omega
    · simp [hmisjudged]

/-- A PUBLISH with QoS 0 on topic `/a` whose payload is that many zero bytes. -/
def zerosPublish (payloadlen : Nat) : SerializeCall :=
  .publish 0 0 0 0 (.ofCString plainTopic) (List.replicate payloadlen 0)

set_option maxRecDepth 4000 in
/-- A payload of 122 bytes: the packet of 128 bytes is only refused where it does not
fit. -/
theorem mqttPacketLen_exact_126 :
    mqttPacketLen 126 = 1 + (mqttPacketEncode 126).length + 126 ∧
      (zerosPublish 122).JudgesBuffer
        (48 :: 126 :: 0 :: 2 :: 47 :: 97 :: List.replicate 122 0) 127 :=
  ⟨(mqttPacketLen_exact_iff 126 (by decide)).1.mpr (by decide),
    ((mqttPacketLen_exact_iff 126 (by decide)).2 (zerosPublish 122) _ rfl ⟨128, by decide⟩
      (by decide) 127).mpr (Or.inl (by decide))⟩

set_option maxRecDepth 4000 in
/-- A payload of 123 bytes: the estimate says 130 bytes for a packet of 129, which is
refused although the buffer holds 129 bytes. -/
theorem mqttPacketLen_one_more :
    mqttPacketLen 127 ≠ 1 + (mqttPacketEncode 127).length + 127 ∧
      (zerosPublish 123).Writes (48 :: 127 :: 0 :: 2 :: 47 :: 97 :: List.replicate 123 0) ∧
      (zerosPublish 123).serialize 129 = .error mqttpacketBufferTooShort :=
  ⟨by decide, ⟨130, by decide⟩, by decide⟩

end EnosDeviceSdk.Mqtt
