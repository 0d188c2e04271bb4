/-
# A PUBLISH is read back as it was written

`MQTTDeserialize_publish` on the bytes of `MQTTSerialize_publish`: the header byte keeps
type, flags and QoS apart, the length field is decoded to the length of the body, and
topic, packet id and payload follow each other as they were written.
-/

import EnosDeviceSdk.Mqtt.RecvPublish
import EnosDeviceSdk.Mqtt.WriteBuffer

namespace EnosDeviceSdk.Mqtt

open EnosDeviceSdk.Infra

/-- The bytes of a string in either representation. -/
def MqttString.text (mqttstring : MqttString) : List UInt8 :=
  match mqttstring.cstring with
  | some string => string.bytes
  | none => mqttstring.lenstring.bytes

/-- A string is written as its length and its bytes. -/
theorem writeMqttString_eq_text {mqttstring : MqttString} (hform : mqttstring.OneForm) :
    writeMqttString mqttstring = writeInt mqttstring.text.length ++ mqttstring.text := by
  rw [writeMqttString, MqttString.text]
  cases hcstring : mqttstring.cstring with
  | some string =>
      have hlen : mqttstring.lenstring.len = 0 := by rwa [MqttString.OneForm, hcstring] at hform
      rw [if_neg (by simp [hlen])]
      rfl
  | none =>
      have hbytes : mqttstring.lenstring.bytes.length = mqttstring.lenstring.len := by
        rwa [MqttString.OneForm, hcstring] at hform
      dsimp only
      rw [hbytes]
      split
      · rfl
      · next hempty =>
          have hnil : mqttstring.lenstring.bytes = [] := by
            rw [List.eq_nil_iff_length_eq_zero, hbytes]
            exact Nat.eq_zero_of_not_pos hempty
          rw [hnil, Nat.eq_zero_of_not_pos hempty, List.append_nil]

/-- The two bytes of an integer below 65536 spell it. -/
theorem writeInt_spells {anInt : Nat} (hsmall : anInt < 65536) :
    256 * (UInt8.ofNat (anInt / 256)).toNat + (UInt8.ofNat (anInt % 256)).toNat = anInt := by
  rw [UInt8.toNat_ofNat', UInt8.toNat_ofNat']
  omega

/-- An integer below 65536 is read back as it was written. -/
theorem readInt_of_holds {buf : Buf} {ptr anInt : Nat} (hholds : buf.Holds ptr (writeInt anInt))
    (hsmall : anInt < 65536) : (readInt buf ptr).1 = anInt := by
  rw [writeInt, Buf.holds_cons, Buf.holds_cons] at hholds
  rw [readInt, hholds.1, hholds.2.1]
  exact writeInt_spells hsmall

/-- A flag is 0 or 1. -/
theorem flag_cases {flag : UInt8} (hflag : flag ≤ 1) : flag = 0 ∨ flag = 1 := by
  have hnat : flag.toNat ≤ 1 := UInt8.le_iff_toNat_le.mp hflag
  rcases Nat.le_one_iff_eq_zero_or_eq_one.mp hnat with hzero | hone
  · exact Or.inl (UInt8.toNat_inj.mp hzero)
  · exact Or.inr (UInt8.toNat_inj.mp hone)

/-- The header byte of a PUBLISH. -/
def publishHeader (dup qos retained : UInt8) : UInt8 :=
  mqttHeaderSetRetain
    (mqttHeaderSetQos (mqttHeaderSetDup (mqttHeaderSetType 0 MsgType.publish.code) dup) qos)
    retained

/-- The parts of the header byte do not disturb each other. -/
theorem publishHeader_parts {dup qos retained : UInt8} (hdup : dup ≤ 1) (hqos : qos ≤ 2)
    (hretained : retained ≤ 1) :
    mqttHeaderGetType (publishHeader dup qos retained) = MsgType.publish.code ∧
      mqttHeaderGetDup (publishHeader dup qos retained) = dup ∧
      mqttHeaderGetQos (publishHeader dup qos retained) = qos ∧
      mqttHeaderGetRetain (publishHeader dup qos retained) = retained := by
  have hcases : qos = 0 ∨ qos = 1 ∨ qos = 2 := by
    have hnat : qos.toNat ≤ 2 := UInt8.le_iff_toNat_le.mp hqos
    have hvalues : qos.toNat = 0 ∨ qos.toNat = 1 ∨ qos.toNat = 2 := by omega
    rcases hvalues with hzero | hone | htwo
    · exact Or.inl (UInt8.toNat_inj.mp hzero)
    · exact Or.inr (Or.inl (UInt8.toNat_inj.mp hone))
    · exact Or.inr (Or.inr (UInt8.toNat_inj.mp htwo))
  rcases flag_cases hdup with rfl | rfl <;> rcases hcases with rfl | rfl | rfl <;>
    rcases flag_cases hretained with rfl | rfl <;> decide

/-- The body of a PUBLISH whose strings are given in one representation. -/
def publishBody (qos : UInt8) (packetid : Nat) (topic payload : List UInt8) : List UInt8 :=
  writeInt topic.length ++ (topic ++ ((if qos > 0 then writeInt packetid else []) ++ payload))

/-- The length prefix of the body announces the topic. -/
theorem announcedTopicLength_publishBody (qos : UInt8) (packetid : Nat)
    {topic : List UInt8} (htopic : topic.length ≤ 65535) (payload : List UInt8) :
    announcedTopicLength (publishBody qos packetid topic payload) = topic.length :=
  writeInt_spells (Nat.lt_succ_of_le htopic)

/-- The announced topic is there. -/
theorem topicFits_publishBody (qos : UInt8) (packetid : Nat)
    {topic : List UInt8} (htopic : topic.length ≤ 65535) (payload : List UInt8) :
    TopicFits (publishBody qos packetid topic payload) := by
  rw [TopicFits, announcedTopicLength_publishBody qos packetid htopic]
  simp only [publishBody, writeInt, List.length_append, List.length_cons, List.length_nil]
  omega

/-- The announced topic is the one that was written. -/
theorem topic_publishBody (qos : UInt8) (packetid : Nat) (topic payload : List UInt8) :
    ((publishBody qos packetid topic payload).drop 2).take topic.length = topic := by
  have htail : (publishBody qos packetid topic payload).drop 2 =
      topic ++ ((if qos > 0 then writeInt packetid else []) ++ payload) := rfl
  rw [htail, List.take_left]

/-- A successful `MQTTSerialize_publish` leaves one complete packet in the buffer. -/
theorem completePacket_of_serializePublish {buf : Buf} {buflen : Nat}
    {dup qos retained : UInt8} {packetid : Nat} {topicName : MqttString}
    {payload : List UInt8} (htopic : topicName.OneForm)
    (hremLen : mqttSerializePublishLength qos topicName payload.length ≤ 268435455)
    (hok : 0 <
      (mqttSerializePublishInto buf buflen dup qos retained packetid topicName payload).1) :
    CompletePacket
      (mqttSerializePublishInto buf buflen dup qos retained packetid topicName payload).2
      (publishHeader dup qos retained) (publishBody qos packetid topicName.text payload) := by
  have hbody : publishBody qos packetid topicName.text payload =
      writeMqttString topicName ++ (if qos > 0 then writeInt packetid else []) ++ payload := by
    rw [writeMqttString_eq_text htopic, publishBody, List.append_assoc, List.append_assoc]
  have hlength : (publishBody qos packetid topicName.text payload).length =
      mqttSerializePublishLength qos topicName payload.length := by
    rw [hbody, length_publishBody htopic]
  have hstored := stores_publish buf buflen dup qos retained packetid htopic payload
  rw [mqttSerializePublish, serializePacket] at hstored
  split at hstored
  · rw [Stores] at hstored
    rw [hstored] at hok
    have herror : ¬ 0 < mqttpacketBufferTooShort := by decide
    exact absurd hok herror
  · rw [Stores] at hstored
    constructor
    · rwa [hlength]
    · rw [hstored, hlength, hbody]
      apply Buf.holds_write

/-- What a deserialized PUBLISH has in common with what was serialized. -/
structure ReadsBack (dup qos retained : UInt8) (packetid : Nat) (topic payload : List UInt8)
    (buf : Buf) (result : PublishResult) : Prop where
  rc_eq : result.rc = 1
  dup_eq : result.dup = some dup
  qos_eq : result.qos = some qos
  retained_eq : result.retained = some retained
  topicName_eq : result.topicName.cstring = none ∧ result.topicName.lenstring.bytes = topic
  packetid_eq : qos > 0 → result.packetid = some packetid
  payload_eq : ∃ start, result.payload = some start ∧
    result.payloadlen = some (payload.length : Int) ∧ buf.slice start payload.length = payload

/-- Deserializing the buffer that a successful serialization has filled gives everything
back, whatever buffer and topic variable held before. -/
theorem deserialize_serialize_publish (buf : Buf) (buflen : Nat) (dup qos retained : UInt8)
    (hdup : dup ≤ 1) (hqos : qos ≤ 2) (hretained : retained ≤ 1)
    (packetid : Nat) (hpacketid : packetid < 65536)
    (topicName : MqttString) (htopic : topicName.OneForm)
    (htext : topicName.text.length ≤ 65535) (payload : List UInt8)
    (hremLen : mqttSerializePublishLength qos topicName payload.length ≤ 268435455)
    (hok : 0 <
      (mqttSerializePublishInto buf buflen dup qos retained packetid topicName payload).1)
    (read : MqttString) :
    ReadsBack dup qos retained packetid topicName.text payload
      (mqttSerializePublishInto buf buflen dup qos retained packetid topicName payload).2
      (mqttDeserializePublish read
        (mqttSerializePublishInto buf buflen dup qos retained packetid topicName payload).2) := by
  have hpacket := completePacket_of_serializePublish htopic hremLen hok
  generalize (mqttSerializePublishInto buf buflen dup qos retained packetid topicName payload).2 =
    out at hpacket
  obtain ⟨htype, hgetDup, hgetQos, hgetRetain⟩ := publishHeader_parts hdup hqos hretained
  have hannounced := announcedTopicLength_publishBody qos packetid htext payload
  rw [mqttDeserializePublish_fits hpacket htype (topicFits_publishBody qos packetid htext payload),
    hgetDup, hgetQos, hgetRetain, hannounced, topic_publishBody]
  have hrest := hpacket.body_holds
  rw [← bodyStart] at hrest
  have hstart : payloadStart (publishHeader dup qos retained)
      (publishBody qos packetid topicName.text payload) =
        bodyStart (publishBody qos packetid topicName.text payload) + 2 + topicName.text.length +
          (if qos > 0 then writeInt packetid else []).length := by
    rw [payloadStart, hannounced, hgetQos]
    by_cases hpositive : qos > 0
    · rw [if_pos hpositive, if_pos hpositive]
      rfl
    · rw [if_neg hpositive, if_neg hpositive]
      rfl
  rw [hstart]
  simp only [packetIdAt, hannounced]
  generalize bodyStart (publishBody qos packetid topicName.text payload) = start at hrest
  rw [publishBody, Buf.holds_append, Buf.holds_append, Buf.holds_append] at hrest
  obtain ⟨_, _, hid, hpayload⟩ := hrest
  have hlengthField : (writeInt topicName.text.length).length = 2 := rfl
  rw [hlengthField] at hid hpayload
  constructor
  · rfl
  · rfl
  · rfl
  · rfl
  · exact ⟨rfl, List.take_of_length_le (Nat.le_refl _)⟩
  · intro hpositive
    rw [if_pos hpositive] at hid
    dsimp only
    rw [if_pos hpositive, readInt_of_holds hid hpacketid]
  · refine ⟨_, rfl, ?_, hpayload⟩
    simp only [publishBody, List.length_append, hlengthField]
    congr 1
    omega

/-- The PUBLISH with QoS 1 and packet id 300 to the topic `/a` with the payload `{}`. -/
theorem deserialize_serialize_publish_short :
    ReadsBack 0 1 0 300 [47, 97] [123, 125]
      (mqttSerializePublishInto (fun _ => 0) 64 0 1 0 300 (.ofCString ⟨[47, 97], by decide⟩)
        [123, 125]).2
      (mqttDeserializePublish mqttStringInitializer
        (mqttSerializePublishInto (fun _ => 0) 64 0 1 0 300 (.ofCString ⟨[47, 97], by decide⟩)
          [123, 125]).2) :=
  deserialize_serialize_publish (fun _ => 0) 64 0 1 0 (by decide) (by decide) (by decide)
    300 (by decide) (.ofCString ⟨[47, 97], by decide⟩)
    (MqttString.oneForm_ofCString _) (by decide) [123, 125] (by decide) (by decide)
    mqttStringInitializer

end EnosDeviceSdk.Mqtt
