/-
# Receiving a PUBLISH packet

The part of `iotx_mc_handle_recv_PUBLISH` up to the delivery: the packet is
deserialized and the message for the handlers is put together. A well-formed body
is a topic with its length prefix, a packet id when the QoS is above 0, and a
payload that takes up the rest.

Every length is checked except one. The packet id is read without a test that two
bytes are left, and the payload length that remains, minus one or minus two, is
then stored in an unsigned field. The main theorem says that this is the only way
in which a delivered message fails to partition the body.
-/

import EnosDeviceSdk.Mqtt.Deserialize
import EnosDeviceSdk.Infra.State

namespace EnosDeviceSdk.Mqtt

open EnosDeviceSdk.Infra

/-- `iotx_mqtt_topic_info_t` as it is handed to the handlers. The topic is given by
its bytes, the payload by the offset of its pointer. -/
structure TopicMsg where
  packetId : Nat
  qos : UInt8
  dup : UInt8
  retain : UInt8
  topic : List UInt8
  payload : Nat
  payloadLen : Nat
  deriving DecidableEq

/-- An `int` read as `uint32_t`. -/
def uint32OfInt (value : Int) : Nat := (value % 2 ^ 32).toNat

/-- `iotx_mc_handle_recv_PUBLISH` up to `iotx_mc_deliver_message`: the message that
is delivered, or the code with which the packet is rejected. -/
def iotxMcRecvPublishMsg (buf : Buf) : Except Int TopicMsg :=
  let result := mqttDeserializePublish mqttStringInitializer buf
  if result.rc ≠ 1 then .error mqttPublishPacketError
  else if result.topicName.lenstring.len = 0 || result.topicName.lenstring.data = none then
    .error stateMqttDeserializePubError
  else
    .ok
      { packetId := result.packetid.getD 0
        qos := result.qos.getD 0
        dup := result.dup.getD 0
        retain := result.retained.getD 0
        topic := result.topicName.lenstring.bytes
        payload := result.payload.getD 0
        payloadLen := uint32OfInt (result.payloadlen.getD 0) }

/-! ## Deserializing a complete packet -/

/-- The topic length that the first two body bytes announce. -/
def announcedTopicLength (body : List UInt8) : Nat :=
  256 * (body.getD 0 0).toNat + (body.getD 1 0).toNat

section Deserialize

variable {buf : Buf} {header : UInt8} {body : List UInt8}

/-- The topic with its length prefix fits the body. -/
def TopicFits (body : List UInt8) : Prop := 2 + announcedTopicLength body ≤ body.length

/-- A topic that does not fit is not read: its pointer stays null. -/
theorem readMqttLenString_misfit {ptr : Nat} (hbody : buf.Holds ptr body)
    (hmisfit : ¬ TopicFits body) :
    ∃ len next, readMqttLenString mqttStringInitializer buf ptr (ptr + body.length) =
      (false, ⟨none, ⟨len, none⟩⟩, next) := by
  match body, hbody, hmisfit with
  | [], _, _ => exact ⟨0, ptr, by simp [readMqttLenString, mqttStringInitializer]⟩
  | [_], _, _ => exact ⟨0, ptr, by simp [readMqttLenString, mqttStringInitializer]⟩
  | first :: second :: rest, hbody, hmisfit =>
      rw [Buf.holds_cons, Buf.holds_cons] at hbody
      obtain ⟨hfirst, hsecond, _⟩ := hbody
      have hlong : ptr + (first :: second :: rest).length > ptr + 1 := by
        simp only [List.length_cons]
        omega
      have hover : ¬ ptr + 2 + (256 * first.toNat + second.toNat) ≤
          ptr + (first :: second :: rest).length := by
        simp only [TopicFits, announcedTopicLength, List.getD_cons_zero,
          List.getD_cons_succ] at hmisfit
        omega
      refine ⟨256 * first.toNat + second.toNat, ptr + 2, ?_⟩
      simp only [readMqttLenString, readInt, hlong, hfirst, hsecond, hover, if_true, if_false,
        mqttStringInitializer]

/-- A topic that fits is the text behind the length prefix. -/
theorem readMqttLenString_fits {ptr : Nat} (hbody : buf.Holds ptr body)
    (hfits : TopicFits body) (topicName : MqttString) :
    readMqttLenString topicName buf ptr (ptr + body.length) =
      (true,
        ⟨none, ⟨announcedTopicLength body,
          some ((body.drop 2).take (announcedTopicLength body))⟩⟩,
        ptr + 2 + announcedTopicLength body) := by
  have htwo : 2 ≤ body.length := Nat.le_trans (Nat.le_add_right 2 _) hfits
  obtain ⟨first, second, rest, rfl⟩ := body_prefix_of_two_le htwo
  have hrest : announcedTopicLength (first :: second :: rest) ≤ rest.length := by
    simp only [TopicFits, List.length_cons] at hfits
    omega
  have htext := ((hbody.split htwo).2.split hrest).1
  rw [Buf.holds_cons, Buf.holds_cons] at hbody
  obtain ⟨hfirst, hsecond, _⟩ := hbody
  have hlong : ptr + (first :: second :: rest).length > ptr + 1 := by
    simp only [List.length_cons]
    omega
  have hunder : ptr + 2 + announcedTopicLength (first :: second :: rest) ≤
      ptr + (first :: second :: rest).length := by
    rw [Nat.add_assoc]
    exact Nat.add_le_add_left hfits ptr
  have hbegins : 256 * first.toNat + second.toNat =
      announcedTopicLength (first :: second :: rest) := rfl
  simp only [readMqttLenString, readInt, hlong, hfirst, hsecond, hbegins, hunder, if_true]
  rw [htext]

/-- The offset of the body behind the header byte and the length field. -/
def bodyStart (body : List UInt8) : Nat := 1 + (mqttPacketEncode body.length).length

/-- A PUBLISH whose topic does not fit is rejected. -/
theorem recvPublishMsg_misfit (hpacket : CompletePacket buf header body)
    (htype : mqttHeaderGetType header = MsgType.publish.code) (hmisfit : ¬ TopicFits body) :
    ∃ code, iotxMcRecvPublishMsg buf = .error code := by
  obtain ⟨len, next, hread⟩ := readMqttLenString_misfit hpacket.body_holds hmisfit
  have hresult : mqttDeserializePublish mqttStringInitializer buf =
      ⟨(mqttPacketEncode body.length).length, some (mqttHeaderGetDup header),
        some (mqttHeaderGetQos header), some (mqttHeaderGetRetain header), none,
        ⟨none, ⟨len, none⟩⟩, none, none⟩ := by
    simp [mqttDeserializePublish, readChar, hpacket.header_eq, htype, hpacket.decodeBuf_eq, hread]
  rw [iotxMcRecvPublishMsg, hresult]
  by_cases hone : ((mqttPacketEncode body.length).length : Int) = 1 <;> simp [hone]

/-- Where the payload of a PUBLISH begins. -/
def payloadStart (header : UInt8) (body : List UInt8) : Nat :=
  bodyStart body + 2 + announcedTopicLength body +
    (if mqttHeaderGetQos header > 0 then 2 else 0)

/-- What the packet id is read from: the two bytes behind the topic, wherever the
packet ends. -/
def packetIdAt (buf : Buf) (body : List UInt8) : Nat :=
  (readInt buf (bodyStart body + 2 + announcedTopicLength body)).1

/-- What is read from a PUBLISH whose topic fits, whatever the string held before. -/
theorem mqttDeserializePublish_fits (hpacket : CompletePacket buf header body)
    (htype : mqttHeaderGetType header = MsgType.publish.code) (hfits : TopicFits body)
    (topicName : MqttString) :
    mqttDeserializePublish topicName buf =
      ⟨1, some (mqttHeaderGetDup header), some (mqttHeaderGetQos header),
        some (mqttHeaderGetRetain header),
        if mqttHeaderGetQos header > 0 then some (packetIdAt buf body) else none,
        ⟨none, ⟨announcedTopicLength body,
          some ((body.drop 2).take (announcedTopicLength body))⟩⟩,
        some (payloadStart header body),
        some ((bodyStart body + body.length : Nat) - (payloadStart header body : Nat))⟩ := by
  have hread := readMqttLenString_fits hpacket.body_holds hfits topicName
  have hinside : ¬ 1 + (mqttPacketEncode body.length).length + body.length <
      1 + (mqttPacketEncode body.length).length + 2 + announcedTopicLength body := by
    rw [TopicFits] at hfits
    omega
  by_cases hqos : mqttHeaderGetQos header > 0 <;>
    simp [mqttDeserializePublish, readChar, hpacket.header_eq, htype, hpacket.decodeBuf_eq,
      hread, hinside, hqos, packetIdAt, payloadStart, bodyStart, readInt]

/-- A PUBLISH whose topic fits is rejected exactly when the topic is empty. -/
theorem recvPublishMsg_fits (hpacket : CompletePacket buf header body)
    (htype : mqttHeaderGetType header = MsgType.publish.code) (hfits : TopicFits body) :
    iotxMcRecvPublishMsg buf =
      if announcedTopicLength body = 0 then .error stateMqttDeserializePubError
      else
        .ok
          { packetId := if mqttHeaderGetQos header > 0 then packetIdAt buf body else 0
            qos := mqttHeaderGetQos header
            dup := mqttHeaderGetDup header
            retain := mqttHeaderGetRetain header
            topic := (body.drop 2).take (announcedTopicLength body)
            payload := payloadStart header body
            payloadLen := uint32OfInt
              ((bodyStart body + body.length : Nat) - (payloadStart header body : Nat)) } := by
  rw [iotxMcRecvPublishMsg, mqttDeserializePublish_fits hpacket htype hfits]
  by_cases hempty : announcedTopicLength body = 0
  · simp [hempty]
  · by_cases hqos : mqttHeaderGetQos header > 0 <;>
      simp [hempty, hqos, MqttLenString.bytes, List.take_take]

end Deserialize

/-! ## Partitioning the body -/

/-- The delivered message partitions the body: length prefix, topic, packet id where
the QoS is above 0, and payload follow each other and are all there is. -/
def PartitionsBody (buf : Buf) (header : UInt8) (body : List UInt8) (msg : TopicMsg) : Prop :=
  ∃ first second idBytes payload,
    body = first :: second :: (msg.topic ++ (idBytes ++ payload)) ∧
      256 * first.toNat + second.toNat = msg.topic.length ∧
      (if mqttHeaderGetQos header > 0 then
        ∃ high low, idBytes = [high, low] ∧ msg.packetId = 256 * high.toNat + low.toNat
      else idBytes = []) ∧
      msg.payloadLen = payload.length ∧
      msg.payload = bodyStart body + 2 + msg.topic.length + idBytes.length ∧
      buf.slice msg.payload msg.payloadLen = payload

/-- A QoS above 0 with a nonempty topic that fits, and fewer than two bytes behind it. -/
def PacketIdMissing (header : UInt8) (body : List UInt8) : Prop :=
  mqttHeaderGetQos header > 0 ∧ 0 < announcedTopicLength body ∧ TopicFits body ∧
    body.length < 2 + announcedTopicLength body + 2

instance (header : UInt8) (body : List UInt8) : Decidable (PacketIdMissing header body) :=
  inferInstanceAs (Decidable (_ ∧ _ ∧ _ ≤ _ ∧ _))

section Partition

variable {buf : Buf} {header : UInt8} {body : List UInt8}

/-- A payload length that is not negative survives the conversion. -/
theorem uint32OfInt_sub {total start : Nat} (hstart : start ≤ total)
    (hsmall : total < 2 ^ 32) :
    uint32OfInt ((total : Int) - (start : Int)) = total - start := by
  rw [uint32OfInt]
  omega

/-- A body whose topic fits is a length prefix, the topic and a rest. -/
theorem exists_topic_of_fits (hfits : TopicFits body) :
    ∃ first second topic rest, body = first :: second :: (topic ++ rest) ∧
      256 * first.toNat + second.toNat = topic.length := by
  obtain ⟨first, second, tail, rfl⟩ :=
    body_prefix_of_two_le (Nat.le_trans (Nat.le_add_right 2 _) hfits)
  have hlength : 256 * first.toNat + second.toNat ≤ tail.length := by
    simp only [TopicFits, announcedTopicLength, List.length_cons, List.getD_cons_zero,
      List.getD_cons_succ] at hfits
    omega
  refine ⟨first, second, tail.take (256 * first.toNat + second.toNat),
    tail.drop (256 * first.toNat + second.toNat), ?_, ?_⟩
  · rw [List.take_append_drop]
  · rw [List.length_take, Nat.min_eq_left hlength]

/-- The message delivered for a body in this form. -/
theorem recvPublishMsg_eq {first second : UInt8} {topic rest : List UInt8}
    (hpacket : CompletePacket buf header (first :: second :: (topic ++ rest)))
    (htype : mqttHeaderGetType header = MsgType.publish.code)
    (hbegins : 256 * first.toNat + second.toNat = topic.length) (htopic : topic ≠ []) :
    ∃ msg, iotxMcRecvPublishMsg buf = .ok msg ∧
      msg.topic = topic ∧
      (mqttHeaderGetQos header > 0 → msg.packetId =
        packetIdAt buf (first :: second :: (topic ++ rest))) ∧
      msg.payload = bodyStart (first :: second :: (topic ++ rest)) + 2 + topic.length +
        (if mqttHeaderGetQos header > 0 then 2 else 0) ∧
      msg.payloadLen = uint32OfInt
        ((rest.length : Int) - ((if mqttHeaderGetQos header > 0 then 2 else 0 : Nat) : Int)) := by
  have hannounced : announcedTopicLength (first :: second :: (topic ++ rest)) =
      topic.length := hbegins
  have hfits : TopicFits (first :: second :: (topic ++ rest)) := by
    rw [TopicFits, hannounced]
    simp only [List.length_cons, List.length_append]
    omega
  have hnonempty : topic.length ≠ 0 := fun hzero => htopic (List.length_eq_zero_iff.mp hzero)
  have hmsg := recvPublishMsg_fits hpacket htype hfits
  rw [hannounced, if_neg hnonempty] at hmsg
  refine ⟨_, hmsg, by simp, fun hqos => by simp [hqos], by simp [payloadStart, hannounced], ?_⟩
  simp only [payloadStart, hannounced]
  congr 1
  simp only [List.length_cons, List.length_append]
  omega

/-- The delivered message partitions the body unless two bytes for the packet id are
missing. -/
theorem partitionsBody_iff {first second : UInt8} {topic rest : List UInt8}
    (hpacket : CompletePacket buf header (first :: second :: (topic ++ rest)))
    (hbegins : 256 * first.toNat + second.toNat = topic.length) {msg : TopicMsg}
    (htopic : msg.topic = topic)
    (hid : mqttHeaderGetQos header > 0 → msg.packetId =
      packetIdAt buf (first :: second :: (topic ++ rest)))
    (hpayload : msg.payload = bodyStart (first :: second :: (topic ++ rest)) + 2 +
      topic.length + (if mqttHeaderGetQos header > 0 then 2 else 0))
    (hlength : msg.payloadLen = uint32OfInt
      ((rest.length : Int) - ((if mqttHeaderGetQos header > 0 then 2 else 0 : Nat) : Int))) :
    PartitionsBody buf header (first :: second :: (topic ++ rest)) msg ↔
      ¬ (mqttHeaderGetQos header > 0 ∧ rest.length < 2) := by
  have hrest : buf.Holds (bodyStart (first :: second :: (topic ++ rest)) + 2 + topic.length)
      rest := by
    have hbody := hpacket.body_holds
    rw [Buf.holds_cons, Buf.holds_cons, Buf.holds_append] at hbody
    exact hbody.2.2.2
  have hsmall : rest.length < 2 ^ 32 := by
    have hencodable := hpacket.encodable
    simp only [List.length_cons, List.length_append] at hencodable
    omega
  by_cases hqos : mqttHeaderGetQos header > 0
  · simp only [hqos, if_true] at hpayload hlength
    simp only [PartitionsBody, hqos, if_true, true_and, not_lt]
    constructor
    · rintro ⟨_, _, _, payload, hbody, _, ⟨high, low, rfl, _⟩, _⟩
      rw [htopic] at hbody
      simp only [List.cons.injEq, List.append_cancel_left_eq] at hbody
      rw [hbody.2.2]
      simp
    · intro htwo
      obtain ⟨high, low, payload, rfl⟩ := body_prefix_of_two_le htwo
      rw [Buf.holds_cons, Buf.holds_cons] at hrest
      obtain ⟨hhigh, hlow, htail⟩ := hrest
      have hlen : msg.payloadLen = payload.length := by
        rw [hlength, uint32OfInt_sub htwo hsmall]
        rfl
      refine ⟨first, second, [high, low], payload, by rw [htopic]; rfl, by rw [htopic, hbegins],
        ⟨high, low, rfl, ?_⟩, hlen, by rw [hpayload, htopic]; rfl, ?_⟩
      · rw [hid hqos, packetIdAt]
        simp only [announcedTopicLength, List.getD_cons_zero, List.getD_cons_succ, hbegins,
          readInt, hhigh, hlow]
      · rw [hpayload, hlen]
        exact htail
  · simp only [hqos, if_false] at hpayload hlength
    simp only [PartitionsBody, hqos, if_false, false_and, not_false_eq_true, iff_true]
    have hlen : msg.payloadLen = rest.length := by
      rw [hlength, uint32OfInt_sub (Nat.zero_le _) hsmall]
      rfl
    refine ⟨first, second, [], rest, by rw [htopic]; rfl, by rw [htopic, hbegins], rfl, hlen,
      by rw [hpayload, htopic]; rfl, ?_⟩
    rw [hpayload, hlen]
    exact hrest

end Partition

/-- For every complete PUBLISH: whatever is delivered partitions the body exactly when
the packet is not one that announces a packet id and ends before it. -/
theorem recvPublish_partitions_iff (buf : Buf) (header : UInt8) (body : List UInt8)
    (hpacket : CompletePacket buf header body)
    (htype : mqttHeaderGetType header = MsgType.publish.code) :
    (∀ msg, iotxMcRecvPublishMsg buf = .ok msg → PartitionsBody buf header body msg) ↔
      ¬ PacketIdMissing header body := by
  by_cases hfits : TopicFits body
  · obtain ⟨first, second, topic, rest, rfl, hbegins⟩ := exists_topic_of_fits hfits
    have hannounced : announcedTopicLength (first :: second :: (topic ++ rest)) =
        topic.length := hbegins
    have hmissing : PacketIdMissing header (first :: second :: (topic ++ rest)) ↔
        topic ≠ [] ∧ mqttHeaderGetQos header > 0 ∧ rest.length < 2 := by
      have hpositive : 0 < topic.length ↔ topic ≠ [] := List.length_pos_iff
      simp only [PacketIdMissing, hannounced, hpositive, hfits, true_and, List.length_cons,
        List.length_append]
      constructor
      · rintro ⟨hqos, htopic, hshort⟩
        exact ⟨htopic, hqos, by omega⟩
      · rintro ⟨htopic, hqos, hshort⟩
        exact ⟨hqos, htopic, by omega⟩
    rw [hmissing]
    by_cases htopic : topic = []
    · subst htopic
      have hmsg := recvPublishMsg_fits hpacket htype hfits
      rw [hannounced, List.length_nil, if_pos rfl] at hmsg
      simp [hmsg]
    · obtain ⟨msg, hmsg, hmsgTopic, hid, hpayload, hlength⟩ :=
        recvPublishMsg_eq hpacket htype hbegins htopic
      simp only [hmsg, Except.ok.injEq, forall_eq', htopic, ne_eq, not_false_eq_true, true_and]
      exact partitionsBody_iff hpacket hbegins hmsgTopic hid hpayload hlength
  · obtain ⟨code, hreject⟩ := recvPublishMsg_misfit hpacket htype hfits
    simp [hreject, PacketIdMissing, hfits]

/-- The message of the QoS 1 PUBLISH with topic `a`, packet id 7 and payload `x`. -/
theorem recvPublish_partitions_qos1 :
    PartitionsBody (Buf.ofBytes (0x32 :: (mqttPacketEncode 6 ++ [0, 1, 97, 0, 7, 120])))
      0x32 [0, 1, 97, 0, 7, 120] ⟨7, 1, 0, 0, [97], 7, 1⟩ :=
  (recvPublish_partitions_iff _ 0x32 [0, 1, 97, 0, 7, 120]
    (CompletePacket.ofBytes 0x32 [0, 1, 97, 0, 7, 120] [] (by decide)) (by decide)).mpr
    (by decide) ⟨7, 1, 0, 0, [97], 7, 1⟩ (by decide)

/-- The QoS 1 PUBLISH with topic `a` and nothing behind it is delivered with a payload
length of 2^32 - 2. -/
theorem recvPublish_without_packetId :
    CompletePacket (Buf.ofBytes [0x32, 0x03, 0, 1, 97]) 0x32 [0, 1, 97] ∧
      mqttHeaderGetType 0x32 = MsgType.publish.code ∧
      ∃ msg, iotxMcRecvPublishMsg (Buf.ofBytes [0x32, 0x03, 0, 1, 97]) = .ok msg ∧
        msg.payloadLen = 2 ^ 32 - 2 ∧
        ¬ PartitionsBody (Buf.ofBytes [0x32, 0x03, 0, 1, 97]) 0x32 [0, 1, 97] msg := by
  have hpacket : CompletePacket (Buf.ofBytes [0x32, 0x03, 0, 1, 97]) 0x32 [0, 1, 97] :=
    CompletePacket.ofBytes 0x32 [0, 1, 97] [] (by decide)
  refine ⟨hpacket, by decide, ⟨0, 1, 0, 0, [97], 7, 2 ^ 32 - 2⟩, by decide, rfl, ?_⟩
  rintro ⟨first, second, idBytes, payload, hbody, _, _, hlength, _⟩
  have hshort : payload.length ≤ 3 := by
    have htotal := congrArg List.length hbody
    simp only [List.length_cons, List.length_append, List.length_nil] at htotal
    omega
  simp only at hlength
  omega

end EnosDeviceSdk.Mqtt
