/-
# The client record and its simple senders

`iotx_mc_client_t`, the send buffer, and the senders that only serialize one
packet and write it: CONNECT, PINGREQ, PUBACK and DISCONNECT. They follow one
scheme, which is a definition of its own here, with the bound of the allocation,
the serializer, its error code and the timeout as parameters.

Send and read buffers live for the duration of one call, so the record keeps only
their size limits. Handler functions and contexts are opaque numbers. Each call
takes what its environment decides as an argument: allocation outcomes, clock
readings and write outcomes.
-/

import EnosDeviceSdk.Mqtt.Serialize
import EnosDeviceSdk.Mqtt.Transport

namespace EnosDeviceSdk.Mqtt

open EnosDeviceSdk.Infra

/-- `iotx_mc_state_t` -/
inductive ClientState
  | invalid | initialized | connected | disconnected | disconnectedReconnecting
  | connectBlock
  deriving DecidableEq, Repr

/-- `iotx_mc_node_t` -/
inductive NodeState
  | normanl | invalid
  deriving DecidableEq, Repr

/-- `iotx_mc_topic_handle_t` -/
structure TopicHandle where
  topicFilter : CString
  hFp : Nat
  pcontext : Nat
  deriving DecidableEq

/-- `iotx_mc_pub_info_t`; its `len` is the length of `buf`. Only the content of a
send buffer that a serializer has filled is ever copied into `buf`. -/
structure PubInfo where
  pubStartTime : UInt32
  nodeState : NodeState
  msgId : Nat
  buf : List UInt8
  buf_serialized : SerializedPacket buf
  deriving DecidableEq

/-- `iotx_mc_reconnect_param_t` -/
structure ReconnectParam where
  reconnectNextTime : UInt32
  reconnectTimeIntervalMs : UInt32
  deriving DecidableEq

/-- The part of `connect_data` that `iotx_mc_init` takes from its caller. -/
structure ConnectParams where
  clientId : Option CString
  username : Option CString
  password : Option CString
  cleansession : Bool
  keepAliveInterval : UInt16
  deriving DecidableEq

/-- `iotx_mc_client_t`. A packet id is a number up to `IOTX_MC_PACKET_ID_MAX`. The
buffer limits are nonzero because `iotx_mc_init` refuses buffers of size zero. -/
structure Client where
  packetId : Nat
  requestTimeoutMs : UInt32
  bufSizeSendMax : Nat
  bufSizeReadMax : Nat
  bufSizeReadMax_pos : 0 < bufSizeReadMax
  keepaliveProbes : UInt8
  listSubHandle : List TopicHandle
  ipstack : Network
  nextPingTime : UInt32
  clientState : ClientState
  reconnectParam : ReconnectParam
  connectData : ConnectParams
  listPubWaitAck : List PubInfo

/-- `MQTT_DYNBUF_SEND_MARGIN` -/
def mqttDynbufSendMargin : Nat := 64

/-- `IOTX_MC_PACKET_ID_MAX` -/
def iotxMcPacketIdMax : Nat := 65535

/-- `IOTX_MC_MQTT_VERSION` -/
def iotxMcMqttVersion : UInt8 := 4

/-- A C string pointer as the `cstring` of an initialized `MQTTString`. -/
def MqttString.ofPointer (string : Option CString) : MqttString :=
  { mqttStringInitializer with cstring := string }

/-- `connect_data` as `iotx_mc_init` and `MQTTPacket_connectData_initializer` leave it. -/
def ConnectParams.toConnectData (params : ConnectParams) : ConnectData where
  mqttVersion := iotxMcMqttVersion
  clientId := MqttString.ofPointer params.clientId
  keepAliveInterval := params.keepAliveInterval
  cleansession := params.cleansession
  willFlag := false
  will := ⟨mqttStringInitializer, mqttStringInitializer, false, 0⟩
  username := MqttString.ofPointer params.username
  password := MqttString.ofPointer params.password

/-- `iotx_mqtt_param_t`, the parameters that the model depends on. Buffers of size
zero, which `iotx_mc_init` refuses, are excluded by the record. -/
structure MqttParam where
  clientId : Option CString
  username : Option CString
  password : Option CString
  cleanSession : Bool
  requestTimeoutMs : UInt32
  keepaliveIntervalMs : UInt32
  writeBufSize : Nat
  readBufSize : Nat
  writeBufSize_pos : 0 < writeBufSize
  readBufSize_pos : 0 < readBufSize

/-- `IOTX_MC_RECONNECT_INTERVAL_MIN_MS` -/
def iotxMcReconnectIntervalMinMs : UInt32 := 1000

/-- `CONFIG_MQTT_KEEPALIVE_INTERVAL_MAX` -/
def configMqttKeepaliveIntervalMax : UInt16 := 1200

/-- The keepalive interval that `iotx_mc_set_connect_params` accepts: 60 seconds
replace what is not between `CONFIG_MQTT_KEEPALIVE_INTERVAL_MIN` and `..._MAX`. -/
def acceptedKeepAliveInterval (keepAliveInterval : UInt16) : UInt16 :=
  if keepAliveInterval < 30 then 60
  else if keepAliveInterval > configMqttKeepaliveIntervalMax then 60
  else keepAliveInterval

/-- `iotx_mc_init`, once its mutexes and its network are set up. -/
def iotxMcInit (params : MqttParam) : Client where
  packetId := 0
  requestTimeoutMs :=
    if params.requestTimeoutMs < 1000 || params.requestTimeoutMs > 10000 then 5000
    else params.requestTimeoutMs
  bufSizeSendMax := params.writeBufSize
  bufSizeReadMax := params.readBufSize
  bufSizeReadMax_pos := params.readBufSize_pos
  keepaliveProbes := 0
  listSubHandle := []
  ipstack := ⟨[], [], []⟩
  nextPingTime := 0
  clientState := .initialized
  reconnectParam := ⟨0, iotxMcReconnectIntervalMinMs⟩
  connectData :=
    { clientId := params.clientId
      username := params.username
      password := params.password
      cleansession := params.cleanSession
      keepAliveInterval :=
        acceptedKeepAliveInterval (params.keepaliveIntervalMs / 1000).toUInt16 }
  listPubWaitAck := []

/-- `iotx_mc_set_client_state` -/
def iotxMcSetClientState (c : Client) (newState : ClientState) : Client :=
  { c with clientState := newState }

/-- `wrapper_mqtt_check_state` -/
def wrapperMqttCheckState (c : Client) : Bool := c.clientState = .connected

/-- `iotx_mc_get_next_packetid` -/
def iotxMcGetNextPacketid (c : Client) : Nat × Client :=
  let id := if c.packetId = iotxMcPacketIdMax then 1 else c.packetId + 1
  (id, { c with packetId := id })

/-- `_alloc_send_buffer`: the size of the new send buffer. -/
def allocSendBuffer (c : Client) (len : Nat) (mallocOk : Bool) : Except Int Nat :=
  let tmpLen := mqttDynbufSendMargin + len
  let tmpLen := if tmpLen > c.bufSizeSendMax then c.bufSizeSendMax else tmpLen
  if mallocOk then .ok tmpLen else .error stateSysDependMalloc

/-- What the environment decides about sending one packet: the outcome of the send
buffer's allocation, the clock reading the deadline is counted from, and the
turns of the writer's loop. -/
structure SendEnv where
  mallocOk : Bool
  start : UInt32
  writes : List WriteStep
  deriving DecidableEq

/-- The scheme of the senders: allocate a send buffer, serialize the packet into
it and write it out before a deadline. -/
def Client.sendSerialized (c : Client) (len : Nat)
    (serialize : Nat → Except Int (List UInt8)) (serializeError : Int)
    (timeoutMs : UInt32) (env : SendEnv) : Int × Client :=
  match allocSendBuffer c len env.mallocOk with
  | .error res => (res, c)
  | .ok bufSizeSend =>
      match serialize bufSizeSend with
      | .error _ => (serializeError, c)
      | .ok buf =>
          let timer := utilsTimeCountdownMs env.start timeoutMs
          let (rc, ipstack) := iotxMcSendPacket c.ipstack buf timer env.writes
          (rc, { c with ipstack := ipstack })

/-- `MQTTConnect` -/
def mqttConnect (c : Client) (env : SendEnv) : Int × Client :=
  let options := c.connectData.toConnectData
  c.sendSerialized (mqttPacketLen (mqttSerializeConnectLength options))
    (mqttSerializeConnect · options) stateMqttSerializeConnError c.requestTimeoutMs env

/-- `MQTTKeepalive` -/
def mqttKeepalive (c : Client) (env : SendEnv) : Int × Client :=
  c.sendSerialized 0 mqttSerializePingreq stateMqttSerializePingreqError 1000 env

/-- `MQTTPuback`. In this configuration PUBACK is the only type it serializes. -/
def mqttPuback (c : Client) (msgId : Nat) (type : MsgType) (env : SendEnv) : Int × Client :=
  if type = .puback then
    c.sendSerialized 0 (mqttSerializeAck · MsgType.puback.code 0 msgId)
      stateMqttSerializePubackError c.requestTimeoutMs env
  else (stateMqttSerializePubackError, c)

/-- `MQTTDisconnect`, whose only result is that of the write. -/
def mqttDisconnect (c : Client) (env : SendEnv) : Int × Client :=
  c.sendSerialized 0 mqttSerializeDisconnect stateSuccess c.requestTimeoutMs env

/-! ## What the scheme does -/

/-- The client after a connection has accepted some bytes. -/
def Client.acceptBytes (c : Client) (bytes : List UInt8) : Client :=
  { c with ipstack := { c.ipstack with accepted := c.ipstack.accepted ++ bytes } }

@[simp]
theorem Client.acceptBytes_nil (c : Client) : c.acceptBytes [] = c := by
  simp [Client.acceptBytes]

@[simp]
theorem Client.acceptBytes_append (c : Client) (first second : List UInt8) :
    (c.acceptBytes first).acceptBytes second = c.acceptBytes (first ++ second) := by
  simp [Client.acceptBytes]

@[simp]
theorem Client.acceptBytes_clientState (c : Client) (bytes : List UInt8) :
    (c.acceptBytes bytes).clientState = c.clientState := rfl

@[simp]
theorem Client.acceptBytes_listSubHandle (c : Client) (bytes : List UInt8) :
    (c.acceptBytes bytes).listSubHandle = c.listSubHandle := rfl

@[simp]
theorem Client.acceptBytes_listPubWaitAck (c : Client) (bytes : List UInt8) :
    (c.acceptBytes bytes).listPubWaitAck = c.listPubWaitAck := rfl

/-- Nothing is written, or one serialized packet is written as far as the
connection accepts it; the verdict is success exactly for the whole packet. -/
theorem Client.sendSerialized_cases (c : Client) (len : Nat)
    (serialize : Nat → Except Int (List UInt8)) (serializeError : Int)
    (timeoutMs : UInt32) (env : SendEnv) :
    c.sendSerialized len serialize serializeError timeoutMs env = (stateSysDependMalloc, c) ∨
      c.sendSerialized len serialize serializeError timeoutMs env = (serializeError, c) ∨
      ∃ size buf, serialize size = .ok buf ∧
        c.sendSerialized len serialize serializeError timeoutMs env =
          (if bytesAccepted (env.start + timeoutMs) env.writes buf.length = buf.length
            then stateSuccess else stateSysDependNwkClose,
            c.acceptBytes
              (buf.take (bytesAccepted (env.start + timeoutMs) env.writes buf.length))) := by
  rw [Client.sendSerialized, allocSendBuffer]
  cases env.mallocOk with
  | false => exact Or.inl rfl
  | true =>
      generalize hsize : (if mqttDynbufSendMargin + len > c.bufSizeSendMax then
        c.bufSizeSendMax else mqttDynbufSendMargin + len) = size
      simp only [if_true]
      cases hserialize : serialize size with
      | error code => exact Or.inr (Or.inl rfl)
      | ok buf =>
          refine Or.inr (Or.inr ⟨size, buf, hserialize, ?_⟩)
          simp only [iotxMcSendPacket_eq]
          rfl

/-- Sending changes nothing but what the connection has accepted. -/
theorem Client.sendSerialized_frame (c : Client) (len : Nat)
    (serialize : Nat → Except Int (List UInt8)) (serializeError : Int)
    (timeoutMs : UInt32) (env : SendEnv) :
    ∃ bytes, (c.sendSerialized len serialize serializeError timeoutMs env).2 =
      c.acceptBytes bytes := by
  rcases c.sendSerialized_cases len serialize serializeError timeoutMs env with
    hsend | hsend | ⟨_, _, _, hsend⟩
  · exact ⟨[], by rw [hsend, c.acceptBytes_nil]⟩
  · exact ⟨[], by rw [hsend, c.acceptBytes_nil]⟩
  · exact ⟨_, by rw [hsend]⟩

end EnosDeviceSdk.Mqtt
