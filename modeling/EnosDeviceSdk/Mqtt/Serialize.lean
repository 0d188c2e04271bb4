/-
# Serializing the packets the client sends

The serializers of `MQTTConnectClient.c`, `MQTTSerializePublish.c`,
`MQTTSubscribeClient.c` and `MQTTUnsubscribeClient.c`. Each computes the remaining
length in a function of its own, refuses when the whole packet might not fit the
buffer, and writes header, remaining length and body. A serializer is modelled by
the bytes it writes from the start of the buffer, or by its error code.

The two computations have to agree. They do when every string is given in one of
its two representations, and then each result is one complete packet.
-/

import EnosDeviceSdk.Mqtt.Packet

namespace EnosDeviceSdk.Mqtt

open EnosDeviceSdk.Infra

/-- `MQTTPacket_willOptions`, the fields that are serialized. -/
structure WillOptions where
  topicName : MqttString
  message : MqttString
  retained : Bool
  qos : UInt8
  deriving DecidableEq

/-- `MQTTPacket_connectData`, the fields that are serialized. -/
structure ConnectData where
  mqttVersion : UInt8
  clientId : MqttString
  keepAliveInterval : UInt16
  cleansession : Bool
  willFlag : Bool
  will : WillOptions
  username : MqttString
  password : MqttString
  deriving DecidableEq

/-- The test with which user name and password are left out. -/
def MqttString.isGiven (mqttstring : MqttString) : Bool :=
  mqttstring.cstring.isSome || mqttstring.lenstring.data.isSome

/-- `MQTTSerialize_connectLength` -/
def mqttSerializeConnectLength (options : ConnectData) : Nat :=
  (if options.mqttVersion = 3 then 12 else if options.mqttVersion = 4 then 10 else 0) +
    (mqttStrlen options.clientId + 2) +
    (if options.willFlag then
      mqttStrlen options.will.topicName + 2 + mqttStrlen options.will.message + 2 else 0) +
    (if options.username.isGiven then mqttStrlen options.username + 2 else 0) +
    (if options.password.isGiven then mqttStrlen options.password + 2 else 0)

/-- The flags byte of a CONNECT packet. -/
def connectFlags (options : ConnectData) : UInt8 :=
  let cleanSession : UInt8 := if options.cleansession then 0x02 else 0
  let willRetain : UInt8 := if options.will.retained then 0x20 else 0
  let willQos : UInt8 := (options.will.qos &&& 0x03) <<< 3
  let will : UInt8 := if options.willFlag then (0x04 : UInt8) ||| willQos ||| willRetain else 0
  let userName : UInt8 := if options.username.isGiven then 0x80 else 0
  let password : UInt8 := if options.password.isGiven then 0x40 else 0
  cleanSession ||| will ||| userName ||| password

/-- `"MQTT"` -/
def protocolMqtt : CString := ⟨[77, 81, 84, 84], by decide⟩

/-- `"MQIsdp"` -/
def protocolMqisdp : CString := ⟨[77, 81, 73, 115, 100, 112], by decide⟩

/-- The bytes behind the remaining length of a CONNECT packet. -/
def connectBody (options : ConnectData) : List UInt8 :=
  (if options.mqttVersion = 4 then writeCString protocolMqtt ++ [4]
    else writeCString protocolMqisdp ++ [3]) ++
    [connectFlags options] ++
    writeInt options.keepAliveInterval.toNat ++
    writeMqttString options.clientId ++
    (if options.willFlag then
      writeMqttString options.will.topicName ++ writeMqttString options.will.message else []) ++
    (if options.username.isGiven then writeMqttString options.username else []) ++
    (if options.password.isGiven then writeMqttString options.password else [])

/-- What the serializers with a variable body share: the test against the buffer's
size, then header, remaining length and body. -/
def serializePacket (buflen : Nat) (header : UInt8) (remLen : Nat) (body : List UInt8) :
    Except Int (List UInt8) :=
  if mqttPacketLen remLen > buflen then .error mqttpacketBufferTooShort
  else .ok (header :: (mqttPacketEncode remLen ++ body))

/-- `MQTTSerialize_connect` -/
def mqttSerializeConnect (buflen : Nat) (options : ConnectData) : Except Int (List UInt8) :=
  serializePacket buflen (mqttHeaderSetType 0 MsgType.connect.code)
    (mqttSerializeConnectLength options) (connectBody options)

/-- `MQTTSerialize_zero` -/
def mqttSerializeZero (buflen : Nat) (packettype : UInt8) : Except Int (List UInt8) :=
  if buflen < 2 then .error mqttpacketBufferTooShort
  else .ok (mqttHeaderSetType 0 packettype :: mqttPacketEncode 0)

/-- `MQTTSerialize_disconnect` -/
def mqttSerializeDisconnect (buflen : Nat) : Except Int (List UInt8) :=
  mqttSerializeZero buflen MsgType.disconnect.code

/-- `MQTTSerialize_pingreq` -/
def mqttSerializePingreq (buflen : Nat) : Except Int (List UInt8) :=
  mqttSerializeZero buflen MsgType.pingreq.code

/-- `MQTTSerialize_publishLength` -/
def mqttSerializePublishLength (qos : UInt8) (topicName : MqttString) (payloadlen : Nat) : Nat :=
  2 + mqttStrlen topicName + payloadlen + (if qos > 0 then 2 else 0)

/-- `MQTTSerialize_publish` -/
def mqttSerializePublish (buflen : Nat) (dup qos retained : UInt8) (packetid : Nat)
    (topicName : MqttString) (payload : List UInt8) : Except Int (List UInt8) :=
  let header := mqttHeaderSetType 0 MsgType.publish.code
  let header := mqttHeaderSetDup header dup
  let header := mqttHeaderSetQos header qos
  let header := mqttHeaderSetRetain header retained
  serializePacket buflen header (mqttSerializePublishLength qos topicName payload.length)
    (writeMqttString topicName ++ (if qos > 0 then writeInt packetid else []) ++ payload)

/-- `MQTTSerialize_ack` -/
def mqttSerializeAck (buflen : Nat) (packettype dup : UInt8) (packetid : Nat) :
    Except Int (List UInt8) :=
  if buflen < 4 then .error mqttpacketBufferTooShort
  else
    let header := mqttHeaderSetType 0 packettype
    let header := mqttHeaderSetDup header dup
    let header := mqttHeaderSetQos header (if packettype = MsgType.pubrel.code then 1 else 0)
    .ok (header :: (mqttPacketEncode 2 ++ writeInt packetid))

/-- `MQTTSerialize_subscribeLength` -/
def mqttSerializeSubscribeLength : List (MqttString × UInt8) → Nat
  | [] => 2
  | (topicFilter, _) :: rest => mqttSerializeSubscribeLength rest + (2 + mqttStrlen topicFilter + 1)

/-- `MQTTSerialize_subscribe`; the arrays of filters and requested QoS as one list. -/
def mqttSerializeSubscribe (buflen : Nat) (dup : UInt8) (packetid : Nat)
    (topicFilters : List (MqttString × UInt8)) : Except Int (List UInt8) :=
  let header := mqttHeaderSetType 0 MsgType.subscribe.code
  let header := mqttHeaderSetDup header dup
  let header := mqttHeaderSetQos header 1
  serializePacket buflen header (mqttSerializeSubscribeLength topicFilters)
    (writeInt packetid ++ topicFilters.flatMap fun (topicFilter, requestedQoS) =>
      writeMqttString topicFilter ++ [requestedQoS])

/-- `MQTTSerialize_unsubscribeLength` -/
def mqttSerializeUnsubscribeLength : List MqttString → Nat
  | [] => 2
  | topicFilter :: rest => mqttSerializeUnsubscribeLength rest + (2 + mqttStrlen topicFilter)

/-- `MQTTSerialize_unsubscribe` -/
def mqttSerializeUnsubscribe (buflen : Nat) (dup : UInt8) (packetid : Nat)
    (topicFilters : List MqttString) : Except Int (List UInt8) :=
  let header := mqttHeaderSetType 0 MsgType.unsubscribe.code
  let header := mqttHeaderSetDup header dup
  let header := mqttHeaderSetQos header 1
  serializePacket buflen header (mqttSerializeUnsubscribeLength topicFilters)
    (writeInt packetid ++ topicFilters.flatMap writeMqttString)

/-! ## Every result is one complete packet -/

/-- The string is given in one representation: a C string without a length, or a
pointer to as many bytes as the length says. -/
def MqttString.OneForm (mqttstring : MqttString) : Prop :=
  match mqttstring.cstring with
  | some _ => mqttstring.lenstring.len = 0
  | none => mqttstring.lenstring.bytes.length = mqttstring.lenstring.len

theorem MqttString.oneForm_ofCString (string : CString) : (ofCString string).OneForm := rfl

/-- A string is written as two length bytes and as many bytes as `MQTTstrlen` says. -/
theorem length_writeMqttString {mqttstring : MqttString} (hform : mqttstring.OneForm) :
    (writeMqttString mqttstring).length = 2 + mqttStrlen mqttstring := by
  obtain ⟨cstring, lenstring⟩ := mqttstring
  cases cstring with
  | some string =>
      have hlen : lenstring.len = 0 := hform
      simp only [writeMqttString, mqttStrlen, hlen, writeCString, writeInt, CString.strlen,
        Nat.lt_irrefl, if_false, List.length_append, List.length_cons, List.length_nil]
  | none =>
      have hbytes : lenstring.bytes.length = lenstring.len := hform
      by_cases hlen : lenstring.len > 0
      · simp only [writeMqttString, mqttStrlen, hlen, writeInt, hbytes, if_true,
          List.length_append, List.length_cons, List.length_nil]
      · simp [writeMqttString, mqttStrlen, writeInt, Nat.eq_zero_of_not_pos hlen]

/-- A body of the announced length makes a complete packet. -/
theorem serializedPacket_of_body {buflen : Nat} {header : UInt8} {remLen : Nat}
    {body bytes : List UInt8} (hlength : body.length = remLen)
    (hok : serializePacket buflen header remLen body = .ok bytes) : SerializedPacket bytes := by
  rw [serializePacket] at hok
  split at hok
  · exact absurd hok (by simp)
  · simp only [Except.ok.injEq] at hok
    exact ⟨header, body, by rw [← hok, hlength]⟩

/-- Every string of the options has one representation and the version is known. -/
structure ConnectData.WellFormed (options : ConnectData) : Prop where
  version : options.mqttVersion = 3 ∨ options.mqttVersion = 4
  clientId : options.clientId.OneForm
  willTopic : options.will.topicName.OneForm
  willMessage : options.will.message.OneForm
  username : options.username.OneForm
  password : options.password.OneForm

/-- The two computations of a CONNECT packet's length agree. -/
theorem length_connectBody {options : ConnectData} (hoptions : options.WellFormed) :
    (connectBody options).length = mqttSerializeConnectLength options := by
  have hoptional (given : Bool) (text : List UInt8) :
      (if given then text else []).length = if given then text.length else 0 := by
    cases given <;> rfl
  have hprotocol : (if options.mqttVersion = 4 then writeCString protocolMqtt ++ [4]
      else writeCString protocolMqisdp ++ [3]).length + 3 =
        if options.mqttVersion = 3 then 12 else if options.mqttVersion = 4 then 10 else 0 := by
    rcases hoptions.version with hversion | hversion <;> rw [hversion] <;> decide
  simp only [connectBody, mqttSerializeConnectLength, List.length_append, hoptional,
    length_writeMqttString hoptions.clientId, length_writeMqttString hoptions.willTopic,
    length_writeMqttString hoptions.willMessage, length_writeMqttString hoptions.username,
    length_writeMqttString hoptions.password, ← hprotocol]
  simp only [writeInt, List.length_cons, List.length_nil]
  cases options.willFlag <;> cases options.username.isGiven <;>
    cases options.password.isGiven <;> simp only [if_true, Bool.false_eq_true, if_false] <;> omega

theorem serializedPacket_connect {buflen : Nat} {options : ConnectData} {bytes : List UInt8}
    (hoptions : options.WellFormed) (hok : mqttSerializeConnect buflen options = .ok bytes) :
    SerializedPacket bytes :=
  serializedPacket_of_body (length_connectBody hoptions) hok

theorem serializedPacket_zero {buflen : Nat} {packettype : UInt8} {bytes : List UInt8}
    (hok : mqttSerializeZero buflen packettype = .ok bytes) : SerializedPacket bytes := by
  rw [mqttSerializeZero] at hok
  split at hok
  · exact absurd hok (by simp)
  · simp only [Except.ok.injEq] at hok
    exact ⟨mqttHeaderSetType 0 packettype, [], by simp [← hok]⟩

/-- The two computations of a PUBLISH packet's length agree. -/
theorem length_publishBody {topicName : MqttString} (htopic : topicName.OneForm) (qos : UInt8)
    (packetid : Nat) (payload : List UInt8) :
    (writeMqttString topicName ++ (if qos > 0 then writeInt packetid else []) ++ payload).length =
      mqttSerializePublishLength qos topicName payload.length := by
  simp only [mqttSerializePublishLength, List.length_append, length_writeMqttString htopic]
  split
  · simp only [writeInt, List.length_cons, List.length_nil]
    omega
  · simp

theorem serializedPacket_publish {buflen : Nat} {dup qos retained : UInt8} {packetid : Nat}
    {topicName : MqttString} {payload bytes : List UInt8} (htopic : topicName.OneForm)
    (hok : mqttSerializePublish buflen dup qos retained packetid topicName payload = .ok bytes) :
    SerializedPacket bytes :=
  serializedPacket_of_body (length_publishBody htopic qos packetid payload) hok

theorem serializedPacket_ack {buflen : Nat} {packettype dup : UInt8} {packetid : Nat}
    {bytes : List UInt8} (hok : mqttSerializeAck buflen packettype dup packetid = .ok bytes) :
    SerializedPacket bytes := by
  rw [mqttSerializeAck] at hok
  split at hok
  · exact absurd hok (by simp)
  · simp only [Except.ok.injEq] at hok
    exact ⟨_, writeInt packetid, by rw [← hok]; rfl⟩

/-- The two computations of a SUBSCRIBE packet's length agree. -/
theorem length_subscribeBody (packetid : Nat) {topicFilters : List (MqttString × UInt8)}
    (hfilters : ∀ entry ∈ topicFilters, entry.1.OneForm) :
    (writeInt packetid ++ topicFilters.flatMap fun (topicFilter, requestedQoS) =>
      writeMqttString topicFilter ++ [requestedQoS]).length =
        mqttSerializeSubscribeLength topicFilters := by
  induction topicFilters with
  | nil => rfl
  | cons entry rest ih =>
      have hrest := ih fun later hlater => hfilters later (by simp [hlater])
      have hentry := length_writeMqttString (hfilters entry (by simp))
      simp only [writeInt, List.length_append, List.length_cons, List.length_nil,
        List.flatMap_cons, mqttSerializeSubscribeLength] at hrest ⊢
      omega

theorem serializedPacket_subscribe {buflen : Nat} {dup : UInt8} {packetid : Nat}
    {topicFilters : List (MqttString × UInt8)} {bytes : List UInt8}
    (hfilters : ∀ entry ∈ topicFilters, entry.1.OneForm)
    (hok : mqttSerializeSubscribe buflen dup packetid topicFilters = .ok bytes) :
    SerializedPacket bytes :=
  serializedPacket_of_body (length_subscribeBody packetid hfilters) hok

/-- The two computations of an UNSUBSCRIBE packet's length agree. -/
theorem length_unsubscribeBody (packetid : Nat) {topicFilters : List MqttString}
    (hfilters : ∀ topicFilter ∈ topicFilters, topicFilter.OneForm) :
    (writeInt packetid ++ topicFilters.flatMap writeMqttString).length =
      mqttSerializeUnsubscribeLength topicFilters := by
  induction topicFilters with
  | nil => rfl
  | cons topicFilter rest ih =>
      have hrest := ih fun later hlater => hfilters later (by simp [hlater])
      have hfilter := length_writeMqttString (hfilters topicFilter (by simp))
      simp only [writeInt, List.length_append, List.length_cons, List.length_nil,
        List.flatMap_cons, mqttSerializeUnsubscribeLength] at hrest ⊢
      omega

theorem serializedPacket_unsubscribe {buflen : Nat} {dup : UInt8} {packetid : Nat}
    {topicFilters : List MqttString} {bytes : List UInt8}
    (hfilters : ∀ topicFilter ∈ topicFilters, topicFilter.OneForm)
    (hok : mqttSerializeUnsubscribe buflen dup packetid topicFilters = .ok bytes) :
    SerializedPacket bytes :=
  serializedPacket_of_body (length_unsubscribeBody packetid hfilters) hok

end EnosDeviceSdk.Mqtt
