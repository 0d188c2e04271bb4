/-
# The session: connecting, keeping alive, reconnecting and the receive cycle

The functions that drive the client's state machine. `_mqtt_connect` sends CONNECT
and waits for CONNACK, with up to eight tries on fresh connections;
`iotx_mc_keepalive` pings, notices a lost connection and reconnects; `iotx_mc_cycle`
reads one packet and hands it to the handler for its type.

A session is a run of such steps together with the calls of the application. Calls
that the application makes inside a callback are part of the step that runs the
callback. The functions of the transport answer as the environment has it.
-/

import EnosDeviceSdk.Mqtt.Receive
import EnosDeviceSdk.Mqtt.RecvPublish

namespace EnosDeviceSdk.Mqtt

open EnosDeviceSdk.Infra EnosDeviceSdk.Library

/-! ## Connecting -/

/-- `iotx_mc_handle_recv_CONNACK` -/
def iotxMcHandleRecvConnack (buf : Buf) : Int :=
  let result := mqttDeserializeConnack buf
  if result.rc ≠ 1 then stateMqttDeserializeConnackError
  else
    match result.connackRc.getD 255 with
    | 0 => stateSuccess
    | 1 => stateMqttConnackVersionUnaccept
    | 2 => stateMqttConnackIdentReject
    | 3 => stateMqttConnackServiceNa
    | 4 => stateMqttConnackBadUserdata
    | 5 => stateMqttConnackNotAuthorized
    | _ => stateMqttConnackUnknownError

/-- `WAIT_CONNACK_MAX` -/
def waitConnackMax : Nat := 10

/-- The loop of `iotx_mc_wait_CONNACK`; `left` counts the reads that may still pass the
test of `++wait_connack`. -/
def iotxMcWaitConnackLoop : Nat → (Nat → ReadEnv) → Client → Int × Client
  | 0, reads, c =>
      let result := iotxMcReadPacket c (reads 0)
      if result.rc < stateSuccess then (result.rc, result.client)
      else (stateSysDependNwkClose, result.client)
  | left + 1, reads, c =>
      let result := iotxMcReadPacket c (reads 0)
      if result.rc < stateSuccess then (result.rc, result.client)
      else if result.packetType ≠ MsgType.connack.code then
        iotxMcWaitConnackLoop left (fun index => reads (index + 1)) result.client
      else (iotxMcHandleRecvConnack (Buf.ofBytes result.bufRead), result.client)

/-- `iotx_mc_wait_CONNACK` -/
def iotxMcWaitConnack (c : Client) (reads : Nat → ReadEnv) : Int × Client :=
  iotxMcWaitConnackLoop waitConnackMax reads c

/-- What the environment decides about one try of `_mqtt_connect`: the sending of
CONNECT, the reads while it waits for CONNACK, and the new connection, if the try
fails, with the stream that the broker sends on it. -/
structure ConnectTry where
  send : SendEnv
  reads : Nat → ReadEnv
  reconnect : Option (List UInt8)

/-- What the environment decides about `_mqtt_connect`. -/
structure ConnectEnv where
  tries : Nat → ConnectTry
  pingStart : UInt32

/-- `RETRY_TIME_LIMIT` -/
def retryTimeLimit : Nat := 8 + 1

/-- The client with another keepalive interval in its connect data. -/
def Client.setKeepAliveInterval (c : Client) (keepAliveInterval : UInt16) : Client :=
  { c with connectData := { c.connectData with keepAliveInterval := keepAliveInterval } }

/-- The client after its connection is closed or replaced. -/
def Client.setConnection (c : Client) (ipstack : Network) : Client :=
  { c with ipstack := ipstack }

/-- The loop of `_mqtt_connect` with the tries that are left. -/
def mqttConnectLoop (userKeepAliveInterval : UInt16) :
    Nat → (Nat → ConnectTry) → Client → Int × Client
  | 0, _, c => (stateMqttConnRetryExceedMax, c)
  | left + 1, tries, c =>
      let (rc, c) := mqttConnect c (tries 0).send
      let c := c.setKeepAliveInterval userKeepAliveInterval
      if rc < stateSuccess then (rc, c.setConnection Network.disconnect)
      else
        let (rc, c) := iotxMcWaitConnack c (tries 0).reads
        if rc ≤ stateMqttConnackVersionUnaccept && rc ≥ stateMqttConnackNotAuthorized then
          (rc, c.setConnection Network.disconnect)
        else if rc ≠ stateSuccess then
          mqttConnectLoop userKeepAliveInterval left (fun index => tries (index + 1))
            (c.setConnection (Network.connect (tries 0).reconnect).2)
        else (stateSuccess, c)

/-- The keepalive interval that the broker is told: twice the user's, up to a maximum. -/
def announcedKeepAliveInterval (userKeepAliveInterval : UInt16) : UInt16 :=
  if userKeepAliveInterval * 2 > configMqttKeepaliveIntervalMax then
    configMqttKeepaliveIntervalMax
  else userKeepAliveInterval * 2

/-- `_mqtt_connect` -/
def mqttConnectSession (c : Client) (env : ConnectEnv) : Int × Client :=
  let userKeepAliveInterval := c.connectData.keepAliveInterval
  let (rc, c) := mqttConnectLoop userKeepAliveInterval (retryTimeLimit - 1) env.tries
    (c.setKeepAliveInterval (announcedKeepAliveInterval userKeepAliveInterval))
  if rc ≠ stateSuccess then (rc, c)
  else
    (stateSuccess,
      { c with
        keepaliveProbes := 0
        clientState := .connected
        nextPingTime :=
          utilsTimeCountdownMs env.pingStart (c.connectData.keepAliveInterval.toUInt32 * 1000) })

/-- The loop of `_mqtt_nwk_connect` with the attempts that are left. -/
def mqttNwkConnectLoop : Nat → (Nat → Option (List UInt8)) → Client → Int × Client
  | 0, _, c => (stateSysDependNwkClose, c)
  | left + 1, attempts, c =>
      let (rc, ipstack) := Network.connect (attempts 0)
      if rc ≠ stateSuccess then
        mqttNwkConnectLoop left (fun index => attempts (index + 1))
          (c.setConnection Network.disconnect)
      else (rc, c.setConnection ipstack)

/-- `_mqtt_nwk_connect`. An attempt is the stream of the new connection, or `none`
when it fails; callers only ask whether the result is a success. -/
def mqttNwkConnect (c : Client) (attempts : Nat → Option (List UInt8)) : Int × Client :=
  mqttNwkConnectLoop 3 attempts c

/-- `wrapper_mqtt_connect`, without the cycles that it runs afterwards. -/
def wrapperMqttConnect (c : Client) (attempts : Nat → Option (List UInt8))
    (env : ConnectEnv) : Int × Client :=
  let (rc, c) := mqttNwkConnect c attempts
  if rc ≠ stateSuccess then (rc, c) else mqttConnectSession c env

/-- `iotx_mc_disconnect` -/
def iotxMcDisconnect (c : Client) (env : SendEnv) : Client :=
  let c := if wrapperMqttCheckState c then (mqttDisconnect c env).2 else c
  iotxMcSetClientState (c.setConnection Network.disconnect) .initialized

/-! ## Keeping alive and reconnecting -/

/-- What the environment decides about a ping: the reading of the expiry test, the
reading the next ping counts from, and the sending of PINGREQ. -/
structure PingEnv where
  now : UInt32
  start : UInt32
  send : SendEnv

/-- `iotx_mc_keepalive_sub` -/
def iotxMcKeepaliveSub (c : Client) (env : PingEnv) : Int × Client :=
  if !wrapperMqttCheckState c then (stateSuccess, c)
  else if !utilsTimeIsExpired env.now c.nextPingTime then (stateSuccess, c)
  else
    let c :=
      { c with
        nextPingTime :=
          utilsTimeCountdownMs env.start (c.connectData.keepAliveInterval.toUInt32 * 1000) }
    let (rc, c) := mqttKeepalive c env.send
    if rc < stateSuccess then (rc, disconnectOnNwkClose rc c)
    else (stateSuccess, { c with keepaliveProbes := c.keepaliveProbes + 1 })

/-- What the environment decides about a reconnection: the reading of the timer's
test, the attempts for a network connection, the session on it, and the reading the
next attempt counts from. -/
structure ReconnectEnv where
  now : UInt32
  attempts : Nat → Option (List UInt8)
  connect : ConnectEnv
  start : UInt32

/-- `IOTX_MC_RECONNECT_INTERVAL_MAX_MS` -/
def iotxMcReconnectIntervalMaxMs : UInt32 := 30000

/-- `iotx_mc_attempt_reconnect`, which ignores the result of `_mqtt_nwk_connect`. -/
def iotxMcAttemptReconnect (c : Client) (env : ReconnectEnv) : Int × Client :=
  let (_, c) := mqttNwkConnect (c.setConnection Network.disconnect) env.attempts
  mqttConnectSession c env.connect

/-- `iotx_mc_handle_reconnect` -/
def iotxMcHandleReconnect (c : Client) (env : ReconnectEnv) : Int × Client :=
  if !utilsTimeIsExpired env.now c.reconnectParam.reconnectNextTime then
    (stateMqttWaitReconnTimer, c)
  else
    let (rc, c) := iotxMcAttemptReconnect c env
    if rc = stateSuccess then (stateSuccess, iotxMcSetClientState c .connected)
    else
      let interval := c.reconnectParam.reconnectTimeIntervalMs
      let interval :=
        if iotxMcReconnectIntervalMaxMs > interval then interval * 2
        else iotxMcReconnectIntervalMaxMs
      let intervalMs :=
        if iotxMcReconnectIntervalMaxMs < interval then iotxMcReconnectIntervalMaxMs
        else interval
      (rc, { c with reconnectParam := ⟨utilsTimeCountdownMs env.start intervalMs, interval⟩ })

/-- What the environment decides about `iotx_mc_keepalive`; the calls are those of the
application's handler for a lost or a restored connection. -/
structure KeepaliveEnv where
  ping : PingEnv
  reconnect : ReconnectEnv
  callbackCalls : List ApiCall
  disconnectStart : UInt32

/-- `iotx_mc_keepalive` -/
def iotxMcKeepalive (c : Client) (env : KeepaliveEnv) : Client :=
  let (_, c) := iotxMcKeepaliveSub c env.ping
  match c.clientState with
  | .disconnectedReconnecting | .connectBlock =>
      let (rc, c) := iotxMcHandleReconnect c env.reconnect
      if rc < stateSuccess then c
      else
        let c := performCalls c env.callbackCalls
        { c with
          reconnectParam :=
            { c.reconnectParam with reconnectTimeIntervalMs := iotxMcReconnectIntervalMinMs } }
  | .disconnected =>
      let c := performCalls c env.callbackCalls
      { c with
        reconnectParam :=
          ⟨utilsTimeCountdownMs env.disconnectStart iotxMcReconnectIntervalMinMs,
            iotxMcReconnectIntervalMinMs⟩
        ipstack := Network.disconnect
        clientState := .disconnectedReconnecting }
  | _ => c

/-! ## The receive cycle -/

/-- `IOTX_MC_KEEPALIVE_PROBE_MAX` -/
def iotxMcKeepaliveProbeMax : UInt8 := 2

/-- What the environment decides about one cycle: the reading of a packet, what stands
in the uninitialized `mypacketid` of the PUBACK handler, the calls that the handlers
make when they are called back, and the sending of a PUBACK. -/
structure CycleEnv where
  read : ReadEnv
  mypacketid : Nat
  callbackCalls : List ApiCall
  puback : SendEnv
  deriving DecidableEq

/-- `iotx_mc_handle_recv_PUBACK`. An id that the deserializer leaves unwritten is what
the variable held before. -/
def iotxMcHandleRecvPuback (c : Client) (buf : Buf) (env : CycleEnv) : Int × Client :=
  let ack := mqttDeserializeAck buf
  if ack.rc ≠ 1 then (mqttPublishAckPacketError, c)
  else
    let c := iotxMcMaskPubInfoFrom c (ack.packetid.getD env.mypacketid)
    (stateSuccess, performCalls c env.callbackCalls)

/-- `iotx_mc_handle_recv_SUBACK` -/
def iotxMcHandleRecvSuback (c : Client) (buf : Buf) (env : CycleEnv) : Int × Client :=
  if (mqttDeserializeSuback mutliSubscirbeMax buf).rc < 0 then
    (stateMqttDeserializeSubackError, c)
  else (stateSuccess, performCalls c env.callbackCalls)

/-- `iotx_mc_handle_recv_UNSUBACK` -/
def iotxMcHandleRecvUnsuback (c : Client) (buf : Buf) (env : CycleEnv) : Int × Client :=
  if (mqttDeserializeUnsuback buf).rc ≠ 1 then (stateMqttDeserializeUnsubackError, c)
  else (stateSuccess, performCalls c env.callbackCalls)

/-- `iotx_mc_handle_recv_PUBLISH`. The handlers run inside `iotx_mc_deliver_message`;
only then is the message acknowledged. -/
def iotxMcHandleRecvPublish (c : Client) (buf : Buf) (env : CycleEnv) : Int × Client :=
  match iotxMcRecvPublishMsg buf with
  | .error code => (code, c)
  | .ok msg =>
      let c := performCalls c env.callbackCalls
      if msg.qos = 0 then (stateSuccess, c)
      else if msg.qos = 1 then mqttPuback c msg.packetId .puback env.puback
      else if msg.qos = 2 then mqttPuback c msg.packetId .pubrec env.puback
      else (stateMqttPubQosInvalid, c)

/-- The switch of `iotx_mc_cycle` on the type of the packet. -/
def iotxMcDispatch (c : Client) (packetType : UInt8) (buf : Buf) (env : CycleEnv) :
    Int × Client :=
  if packetType = MsgType.connack.code then (stateSuccess, c)
  else if packetType = MsgType.puback.code then iotxMcHandleRecvPuback c buf env
  else if packetType = MsgType.suback.code then iotxMcHandleRecvSuback c buf env
  else if packetType = MsgType.publish.code then iotxMcHandleRecvPublish c buf env
  else if packetType = MsgType.unsuback.code then iotxMcHandleRecvUnsuback c buf env
  else if packetType = MsgType.pingresp.code then (stateSuccess, c)
  else (stateMqttRecvUnknownPacket, c)

/-- `iotx_mc_cycle` -/
def iotxMcCycle (c : Client) (env : CycleEnv) : Int × Client :=
  if c.clientState ≠ .connected then (stateMqttInOfflineStatus, c)
  else if iotxMcKeepaliveProbeMax < c.keepaliveProbes then
    (stateMqttInOfflineStatus, { c with clientState := .disconnected, keepaliveProbes := 0 })
  else
    let result := iotxMcReadPacket c env.read
    if result.rc ≠ stateSuccess then
      (stateSysDependNwkClose, disconnectOnNwkClose result.rc result.client)
    else if result.packetType = MsgType.mqttCptReserved.code then (stateSuccess, result.client)
    else
      iotxMcDispatch { result.client with keepaliveProbes := 0 } result.packetType
        (Buf.ofBytes result.bufRead) env

/-! ## Sessions -/

/-- A step of a session: the first connection, a call of the application, a turn of
`iotx_mc_keepalive`, `iotx_mc_cycle` or `MQTTPubInfoProc`, or the end of the session. -/
inductive SessionAction
  | connect (attempts : Nat → Option (List UInt8)) (env : ConnectEnv)
  | call (call : ApiCall)
  | keepalive (env : KeepaliveEnv)
  | cycle (env : CycleEnv)
  | pubInfoProc (env : Nat → RepubEnv)
  | disconnect (env : SendEnv)

/-- The client after a step. The application connects a client once it is set up, so
the first connection is only offered to an initialized client. -/
def sessionStep (c : Client) : SessionAction → Client
  | .connect attempts env =>
      if c.clientState = .initialized then (wrapperMqttConnect c attempts env).2 else c
  | .call call => performCall c call
  | .keepalive env => iotxMcKeepalive c env
  | .cycle env => (iotxMcCycle c env).2
  | .pubInfoProc env => mqttPubInfoProc c env
  | .disconnect env => iotxMcDisconnect c env

/-! ## A plain environment -/

/-- A send whose allocation succeeds and whose one write takes up to 1024 bytes. -/
def plainSendEnv : SendEnv := ⟨true, 0, [⟨0, .accept 1024⟩]⟩

/-- A reading of a packet in which every read gets what it asks for. -/
def plainReadEnv : ReadEnv :=
  ⟨true, .bytes 1, [.bytes 1, .bytes 1, .bytes 1, .bytes 1], true, [.bytes 1024], []⟩

/-- A cycle without disturbances and callbacks. -/
def plainCycleEnv : CycleEnv := ⟨plainReadEnv, 0, [], plainSendEnv⟩

/-- The CONNACK of an accepted connection. -/
def plainConnack : List UInt8 := [0x20, 2, 0, 0]

/-- A first connection without disturbances, on which the broker sends the stream. -/
def plainConnect (stream : List UInt8) : SessionAction :=
  .connect (fun _ => some stream) ⟨fun _ => ⟨plainSendEnv, fun _ => plainReadEnv, none⟩, 0⟩

/-- A publish of `x` on topic `/a` with QoS 1, without disturbances. -/
def plainPublish : SessionAction :=
  .call (.publish plainTopic ⟨0, 1, 0, [120]⟩ ⟨0, true, true, 0, [⟨0, .accept 1024⟩]⟩)

/-- A pass over the waiting publishes when none of them is overdue. -/
def plainPubInfoProc : SessionAction := .pubInfoProc fun _ => ⟨0, 0, [], 0⟩

end EnosDeviceSdk.Mqtt
