/-
# The calls of the application

`wrapper_mqtt_publish`, `wrapper_mqtt_subscribe` and `wrapper_mqtt_unsubscribe`: each
draws a packet id, checks topic and connection, and runs the sender behind it. A
sender that reports `STATE_SYS_DEPEND_NWK_CLOSE` has cut its packet, and each of the
three then takes the client out of the connected state.

What such calls may do to a client is said by relations that compose, so that they
hold of any list of calls. `NetFrame` and `OutboxFrame` are what every sender leaves
alone; `WritesWhole` adds that a client that is still connected has written whole
packets only, and that an offline client has written nothing.
-/

import EnosDeviceSdk.Mqtt.Publish
import EnosDeviceSdk.Mqtt.Subscription

namespace EnosDeviceSdk.Mqtt

open EnosDeviceSdk.Infra EnosDeviceSdk.Library

/-- The reaction of the callers of a sender to its result. -/
def disconnectOnNwkClose (rc : Int) (c : Client) : Client :=
  if rc = stateSysDependNwkClose then iotxMcSetClientState c .disconnected else c

/-- The part of `wrapper_mqtt_publish` that draws a packet id for QoS 1 and QoS 2. -/
def drawPublishId (c : Client) (topicMsg : TopicInfo) : Nat × TopicInfo × Client :=
  if topicMsg.qos = 1 || topicMsg.qos = 2 then
    let (msgId, c) := iotxMcGetNextPacketid c
    (msgId, { topicMsg with packetId := msgId }, c)
  else (0, topicMsg, c)

/-- `wrapper_mqtt_publish` -/
def wrapperMqttPublish (c : Client) (topicName : CString) (topicMsg : TopicInfo)
    (env : PublishEnv) : Int × Client :=
  let rc := iotxMcCheckTopic topicName .topicNameType
  if rc < stateSuccess then (rc, c)
  else if !wrapperMqttCheckState c then (stateMqttInOfflineStatus, c)
  else
    let (msgId, topicMsg, c) := drawPublishId c topicMsg
    if topicMsg.qos = 2 then (stateMqttPubQosInvalid, c)
    else
      let (rc, c) := mqttPublish c topicName topicMsg env
      if rc < stateSuccess then (rc, disconnectOnNwkClose rc c) else (msgId, c)

/-- `wrapper_mqtt_subscribe` -/
def wrapperMqttSubscribe (c : Client) (topicFilter : CString) (qos : UInt8)
    (topicHandleFunc pcontext : Nat) (env : SubscribeEnv) : Int × Client :=
  if topicFilter.strlen = 0 then (stateUserInputInvalid, c)
  else
    let (msgId, c) := iotxMcGetNextPacketid c
    if !wrapperMqttCheckState c then (stateMqttInOfflineStatus, c)
    else
      let rc := iotxMcCheckTopic topicFilter .topicFilterType
      if rc < stateSuccess then (rc, c)
      else
        let (rc, c) := mqttSubscribe c topicFilter qos msgId topicHandleFunc pcontext env
        if rc < stateSuccess then (rc, disconnectOnNwkClose rc c) else (msgId, c)

/-- `wrapper_mqtt_unsubscribe` -/
def wrapperMqttUnsubscribe (c : Client) (topicFilter : CString) (env : SubscribeEnv) :
    Int × Client :=
  let (msgId, c) := iotxMcGetNextPacketid c
  let rc := iotxMcCheckTopic topicFilter .topicFilterType
  if rc < stateSuccess then (rc, c)
  else if !wrapperMqttCheckState c then (stateMqttInOfflineStatus, c)
  else
    let (rc, c) := mqttUnsubscribe c topicFilter msgId env
    if rc < stateSuccess then (rc, disconnectOnNwkClose rc c) else (msgId, c)

/-- A call of the application, with what its environment decides. -/
inductive ApiCall
  | publish (topicName : CString) (topicMsg : TopicInfo) (env : PublishEnv)
  | subscribe (topicFilter : CString) (qos : UInt8) (topicHandleFunc pcontext : Nat)
      (env : SubscribeEnv)
  | unsubscribe (topicFilter : CString) (env : SubscribeEnv)
  deriving DecidableEq

/-- The client after a call. -/
def performCall (c : Client) : ApiCall → Client
  | .publish topicName topicMsg env => (wrapperMqttPublish c topicName topicMsg env).2
  | .subscribe topicFilter qos topicHandleFunc pcontext env =>
      (wrapperMqttSubscribe c topicFilter qos topicHandleFunc pcontext env).2
  | .unsubscribe topicFilter env => (wrapperMqttUnsubscribe c topicFilter env).2

/-! ## What senders leave alone -/

/-- Nothing is read, and the client does not become connected. -/
structure NetFrame (c after : Client) : Prop where
  requestTimeoutMs : after.requestTimeoutMs = c.requestTimeoutMs
  incoming : after.ipstack.incoming = c.ipstack.incoming
  consumed : after.ipstack.consumed = c.ipstack.consumed
  connected : after.clientState = .connected → c.clientState = .connected

theorem NetFrame.refl (c : Client) : NetFrame c c := ⟨rfl, rfl, rfl, id⟩

theorem NetFrame.trans {c middle after : Client} (hfirst : NetFrame c middle)
    (hsecond : NetFrame middle after) : NetFrame c after where
  requestTimeoutMs := hsecond.requestTimeoutMs.trans hfirst.requestTimeoutMs
  incoming := hsecond.incoming.trans hfirst.incoming
  consumed := hsecond.consumed.trans hfirst.consumed
  connected := hfirst.connected ∘ hsecond.connected

/-- The list of waiting publishes keeps its bound, and its outbox is at most posted to
and acknowledged the given ids. -/
structure OutboxFrame (acked : Nat → Prop) (c after : Client) : Prop where
  bounded : c.listPubWaitAck.length ≤ iotxMcRepubNumMax →
    after.listPubWaitAck.length ≤ iotxMcRepubNumMax
  outbox : ∃ events, (∀ id, OutboxEvent.ack id ∈ events → acked id) ∧
    outboxOf after.listPubWaitAck = runFrom outboxStep (outboxOf c.listPubWaitAck) events

/-- The outbox is at most posted to. -/
abbrev PostsOnly : Client → Client → Prop := OutboxFrame fun _ => False

namespace OutboxFrame

variable {acked : Nat → Prop} {c middle after : Client}

theorem of_eq (hlist : after.listPubWaitAck = c.listPubWaitAck) : OutboxFrame acked c after :=
  ⟨by rw [hlist]; exact id, [], by simp, by rw [hlist]; rfl⟩

theorem refl (c : Client) : OutboxFrame acked c c := .of_eq rfl

theorem trans (hfirst : OutboxFrame acked c middle) (hsecond : OutboxFrame acked middle after) :
    OutboxFrame acked c after where
  bounded := hsecond.bounded ∘ hfirst.bounded
  outbox := by
    obtain ⟨first, hfirstAcks, hfirstRun⟩ := hfirst.outbox
    obtain ⟨second, hsecondAcks, hsecondRun⟩ := hsecond.outbox
    refine ⟨first ++ second, fun id hack => ?_, ?_⟩
    · exact (List.mem_append.mp hack).elim (hfirstAcks id) (hsecondAcks id)
    · rw [hsecondRun, hfirstRun, runFrom_append]

theorem mono {more : Nat → Prop} (hframe : OutboxFrame acked c after)
    (hmore : ∀ id, acked id → more id) : OutboxFrame more c after := by
  obtain ⟨events, hacks, hrun⟩ := hframe.outbox
  exact ⟨hframe.bounded, events, fun id hack => hmore id (hacks id hack), hrun⟩

end OutboxFrame

/-- The connection has accepted some whole packets more. -/
def AcceptsWhole (c after : Client) : Prop :=
  ∃ bytes, Framed SerializedPacket bytes ∧ after.ipstack.accepted = c.ipstack.accepted ++ bytes

theorem AcceptsWhole.of_eq {c after : Client}
    (hsame : after.ipstack.accepted = c.ipstack.accepted) : AcceptsWhole c after :=
  ⟨[], framed_nil, by simp [hsame]⟩

/-- Nothing is read, whole packets are written where the client is still connected,
and nothing is written by a client that is offline. -/
structure WritesWhole (c after : Client) : Prop extends NetFrame c after where
  whole : after.clientState = .connected → AcceptsWhole c after
  offline : c.clientState ≠ .connected → after.ipstack = c.ipstack

theorem WritesWhole.of_eq {c after : Client}
    (htimeout : after.requestTimeoutMs = c.requestTimeoutMs)
    (hipstack : after.ipstack = c.ipstack)
    (hconnected : after.clientState = .connected → c.clientState = .connected) :
    WritesWhole c after :=
  ⟨⟨htimeout, by rw [hipstack], by rw [hipstack], hconnected⟩,
    fun _ => .of_eq (by rw [hipstack]), fun _ => hipstack⟩

theorem WritesWhole.refl (c : Client) : WritesWhole c c := .of_eq rfl rfl id

theorem WritesWhole.trans {c middle after : Client} (hfirst : WritesWhole c middle)
    (hsecond : WritesWhole middle after) : WritesWhole c after where
  toNetFrame := hfirst.toNetFrame.trans hsecond.toNetFrame
  whole hconnected := by
    obtain ⟨first, hfirstFramed, hfirstBytes⟩ := hfirst.whole (hsecond.connected hconnected)
    obtain ⟨second, hsecondFramed, hsecondBytes⟩ := hsecond.whole hconnected
    exact ⟨first ++ second, hfirstFramed.append hsecondFramed,
      by rw [hsecondBytes, hfirstBytes, List.append_assoc]⟩
  offline hoffline :=
    (hsecond.offline fun hconnected => hoffline (hfirst.connected hconnected)).trans
      (hfirst.offline hoffline)

/-- What a call of the application does. -/
structure SendsWhole (c after : Client) : Prop extends WritesWhole c after,
  OutboxFrame (fun _ => False) c after

theorem SendsWhole.refl (c : Client) : SendsWhole c c := ⟨.refl c, .refl c⟩

theorem SendsWhole.trans {c middle after : Client} (hfirst : SendsWhole c middle)
    (hsecond : SendsWhole middle after) : SendsWhole c after :=
  ⟨hfirst.toWritesWhole.trans hsecond.toWritesWhole,
    hfirst.toOutboxFrame.trans hsecond.toOutboxFrame⟩

/-- What a sender promises: the frames, and whole packets unless it reports a closed
connection. -/
structure SenderSpec (c : Client) (result : Int × Client) : Prop where
  net : NetFrame c result.2
  outbox : PostsOnly c result.2
  whole : result.1 ≠ stateSysDependNwkClose → AcceptsWhole c result.2

namespace SenderSpec

variable {c : Client} {rc : Int} {after : Client}

/-- A connected client's sender followed by its caller's reaction. -/
theorem disconnectOnNwkClose (hsender : SenderSpec c (rc, after))
    (hconnected : c.clientState = .connected) :
    SendsWhole c (disconnectOnNwkClose rc after) := by
  rw [Mqtt.disconnectOnNwkClose]
  split
  · have hnever : (iotxMcSetClientState after .disconnected).clientState ≠ .connected := by
      simp [iotxMcSetClientState]
    exact ⟨⟨hsender.net.trans ⟨rfl, rfl, rfl, fun hstill => absurd hstill hnever⟩,
      fun hstill => absurd hstill hnever, fun hoffline => absurd hconnected hoffline⟩,
      hsender.outbox.trans (.of_eq rfl)⟩
  · next hopen =>
      exact ⟨⟨hsender.net, fun _ => hsender.whole hopen,
        fun hoffline => absurd hconnected hoffline⟩, hsender.outbox⟩

/-- A sender behind a call that returns the packet id or the sender's error. -/
theorem call (hsender : SenderSpec c (rc, after)) (hconnected : c.clientState = .connected)
    (msgId : Int) :
    SendsWhole c
      (if rc < stateSuccess then (rc, Mqtt.disconnectOnNwkClose rc after)
        else (msgId, after)).2 := by
  split
  · exact hsender.disconnectOnNwkClose hconnected
  · next hsuccess =>
      have hopen : rc ≠ stateSysDependNwkClose := by
        rintro rfl
        exact hsuccess (by decide)
      have hsame := hsender.disconnectOnNwkClose hconnected
      rwa [Mqtt.disconnectOnNwkClose, if_neg hopen] at hsame

end SenderSpec

/-! ## The senders -/

/-- Nothing but the accepted bytes changes, and a result other than a closed
connection means whole packets. -/
theorem Client.sendSerialized_spec (c : Client) (len : Nat)
    (serialize : Nat → Except Int (List UInt8)) (serializeError : Int) (timeoutMs : UInt32)
    (env : SendEnv) (hserialize : ∀ size buf, serialize size = .ok buf → SerializedPacket buf) :
    ∃ bytes,
      (c.sendSerialized len serialize serializeError timeoutMs env).2 = c.acceptBytes bytes ∧
        ((c.sendSerialized len serialize serializeError timeoutMs env).1 ≠
            stateSysDependNwkClose → Framed SerializedPacket bytes) := by
  rcases c.sendSerialized_cases len serialize serializeError timeoutMs env with
    hsend | hsend | ⟨size, buf, hbuf, hsend⟩
  · exact ⟨[], by simp [hsend], fun _ => framed_nil⟩
  · exact ⟨[], by simp [hsend], fun _ => framed_nil⟩
  · refine ⟨_, by rw [hsend], fun hopen => ?_⟩
    rw [hsend] at hopen
    split at hopen
    · next hall =>
        rw [hall, List.take_length]
        exact framed_of_frame (hserialize size buf hbuf)
    · exact absurd rfl hopen

/-- Drawing a packet id is not seen by the relations. -/
theorem sendsWhole_getNextPacketid (c : Client) :
    SendsWhole c (iotxMcGetNextPacketid c).2 :=
  ⟨.of_eq rfl rfl id, .of_eq rfl⟩

theorem sendsWhole_drawPublishId (c : Client) (topicMsg : TopicInfo) :
    SendsWhole c (drawPublishId c topicMsg).2.2 := by
  rw [drawPublishId]
  split
  · exact sendsWhole_getNextPacketid c
  · exact .refl c

@[simp]
theorem drawPublishId_clientState (c : Client) (topicMsg : TopicInfo) :
    (drawPublishId c topicMsg).2.2.clientState = c.clientState := by
  rw [drawPublishId]
  split <;> rfl

theorem connected_of_checkState {c : Client} (hcheck : ¬ (!wrapperMqttCheckState c) = true) :
    c.clientState = .connected := by
  simpa [wrapperMqttCheckState] using hcheck

theorem senderSpec_acceptBytes {c : Client} {rc : Int} {bytes : List UInt8}
    (hwhole : rc ≠ stateSysDependNwkClose → Framed SerializedPacket bytes) :
    SenderSpec c (rc, c.acceptBytes bytes) :=
  ⟨⟨rfl, rfl, rfl, id⟩, .of_eq rfl, fun hopen => ⟨bytes, hwhole hopen, rfl⟩⟩

theorem senderSpec_refl (c : Client) (rc : Int) : SenderSpec c (rc, c) :=
  ⟨.refl c, .refl c, fun _ => .of_eq rfl⟩

theorem senderSpec_sendSerialized (c : Client) (len : Nat)
    (serialize : Nat → Except Int (List UInt8)) (serializeError : Int) (timeoutMs : UInt32)
    (env : SendEnv) (hserialize : ∀ size buf, serialize size = .ok buf → SerializedPacket buf) :
    SenderSpec c (c.sendSerialized len serialize serializeError timeoutMs env) := by
  obtain ⟨bytes, hafter, hwhole⟩ :=
    c.sendSerialized_spec len serialize serializeError timeoutMs env hserialize
  have hspec := @senderSpec_acceptBytes c _ bytes hwhole
  rwa [← hafter] at hspec

/-- What a sender promises does not depend on the table of handlers. -/
theorem SenderSpec.setHandles {c after : Client} {rc : Int} (hsender : SenderSpec c (rc, after))
    (handles : List TopicHandle) : SenderSpec c (rc, { after with listSubHandle := handles }) where
  net := hsender.net.trans ⟨rfl, rfl, rfl, id⟩
  outbox := hsender.outbox.trans (.of_eq rfl)
  whole := hsender.whole

theorem senderSpec_subscribe (c : Client) (topicFilter : CString) (qos : UInt8)
    (msgId messageHandler pcontext : Nat) (env : SubscribeEnv) :
    SenderSpec c (mqttSubscribe c topicFilter qos msgId messageHandler pcontext env) := by
  rw [mqttSubscribe]
  split
  · exact senderSpec_refl c _
  · split
    · exact (senderSpec_refl c stateSuccess).setHandles _
    · have hsender := senderSpec_sendSerialized c topicFilter.strlen
        (mqttSerializeSubscribe · 0 msgId [(MqttString.ofCString topicFilter, qos)])
        stateMqttSerializeSubError c.requestTimeoutMs env.send
        fun size buf hok => serializedPacket_subscribe (by simp [MqttString.oneForm_ofCString]) hok
      dsimp only
      split
      · exact hsender
      · next hsuccess =>
          rw [not_not] at hsuccess
          exact (hsuccess ▸ hsender : SenderSpec c (stateSuccess, _)).setHandles _

theorem senderSpec_unsubscribe (c : Client) (topicFilter : CString) (msgId : Nat)
    (env : SubscribeEnv) : SenderSpec c (mqttUnsubscribe c topicFilter msgId env) := by
  rw [mqttUnsubscribe]
  split
  · exact senderSpec_refl c _
  · have hsender := senderSpec_sendSerialized c topicFilter.strlen
      (mqttSerializeUnsubscribe · 0 msgId [MqttString.ofCString topicFilter])
      stateMqttSerializeUnsubError c.requestTimeoutMs env.send
      fun size buf hok => serializedPacket_unsubscribe (by simp [MqttString.oneForm_ofCString]) hok
    dsimp only
    split
    · exact hsender
    · next hsuccess =>
        rw [not_not] at hsuccess
        exact (hsuccess ▸ hsender : SenderSpec c (stateSuccess, _)).setHandles _

theorem PublishOutcome.senderSpec {c : Client} {topicMsg : TopicInfo} {result : Int × Client}
    (houtcome : PublishOutcome c topicMsg result) : SenderSpec c result := by
  cases houtcome with
  | refused => exact senderSpec_refl c _
  | cut => exact senderSpec_acceptBytes fun hopen => absurd rfl hopen
  | sent hserialized => exact senderSpec_acceptBytes fun _ => framed_of_frame hserialized
  | @enqueued buf now hserialized hqos hroom =>
      refine ⟨⟨rfl, rfl, rfl, id⟩, ⟨fun _ => ?_, [.post topicMsg.packetId buf], by simp, ?_⟩, ?_⟩
      · simpa using Nat.succ_le_of_lt hroom
      · rw [outboxOf_append]
        rfl
      · exact fun _ => ⟨_, framed_of_frame hserialized, rfl⟩

/-! ## The calls -/

/-- No call cuts a packet and leaves the client connected. -/
theorem sendsWhole_performCall (c : Client) (call : ApiCall) :
    SendsWhole c (performCall c call) := by
  cases call with
  | publish topicName topicMsg env =>
      rw [performCall, wrapperMqttPublish]
      split
      · exact .refl c
      · split
        · exact .refl c
        · next hcheck =>
            have hconnected := connected_of_checkState hcheck
            refine (sendsWhole_drawPublishId c topicMsg).trans ?_
            dsimp only
            split
            · exact .refl _
            · exact (mqttPublish_outcome _ topicName _ env).senderSpec.call (by simpa) _
  | subscribe topicFilter qos topicHandleFunc pcontext env =>
      rw [performCall, wrapperMqttSubscribe]
      split
      · exact .refl c
      · refine (sendsWhole_getNextPacketid c).trans ?_
        dsimp only
        split
        · exact .refl _
        · next hcheck =>
            split
            · exact .refl _
            · exact (senderSpec_subscribe _ topicFilter qos _ topicHandleFunc pcontext env).call
                (connected_of_checkState hcheck) _
  | unsubscribe topicFilter env =>
      rw [performCall, wrapperMqttUnsubscribe]
      refine (sendsWhole_getNextPacketid c).trans ?_
      dsimp only
      split
      · exact .refl _
      · split
        · exact .refl _
        · next hcheck =>
            exact (senderSpec_unsubscribe _ topicFilter _ env).call
              (connected_of_checkState hcheck) _

/-- The client after several calls. -/
def performCalls (c : Client) (calls : List ApiCall) : Client := calls.foldl performCall c

theorem sendsWhole_performCalls (c : Client) (calls : List ApiCall) :
    SendsWhole c (performCalls c calls) := by
  induction calls generalizing c with
  | nil => exact .refl c
  | cons call rest ih => exact (sendsWhole_performCall c call).trans (ih (performCall c call))

end EnosDeviceSdk.Mqtt
