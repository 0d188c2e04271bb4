/-
# What a session leaves alone while it reads and calls back

The keepalive interval and the count of unanswered pings are touched in few places.
Everything else, the calls of the application, the readers, the handlers of packets and
the retransmissions, leaves both as they are. That is one relation here, which
composes.
-/

import EnosDeviceSdk.Mqtt.SessionSteps

namespace EnosDeviceSdk.Mqtt

open EnosDeviceSdk.Infra EnosDeviceSdk.Library

/-- The connect parameters and the count of unanswered pings are the same. -/
structure LivenessFrame (c after : Client) : Prop where
  connectData : after.connectData = c.connectData
  keepaliveProbes : after.keepaliveProbes = c.keepaliveProbes

theorem LivenessFrame.refl (c : Client) : LivenessFrame c c := ⟨rfl, rfl⟩

theorem LivenessFrame.trans {c middle after : Client} (hfirst : LivenessFrame c middle)
    (hsecond : LivenessFrame middle after) : LivenessFrame c after :=
  ⟨hsecond.connectData.trans hfirst.connectData,
    hsecond.keepaliveProbes.trans hfirst.keepaliveProbes⟩

theorem livenessFrame_disconnectOnNwkClose (rc : Int) (c : Client) :
    LivenessFrame c (disconnectOnNwkClose rc c) := by
  rw [disconnectOnNwkClose]
  split
  · exact ⟨rfl, rfl⟩
  · exact .refl c

/-! ## The senders -/

theorem livenessFrame_sendSerialized (c : Client) (len : Nat)
    (serialize : Nat → Except Int (List UInt8)) (serializeError : Int) (timeoutMs : UInt32)
    (env : SendEnv) :
    LivenessFrame c (c.sendSerialized len serialize serializeError timeoutMs env).2 := by
  obtain ⟨bytes, hsend⟩ := c.sendSerialized_frame len serialize serializeError timeoutMs env
  rw [hsend]
  exact ⟨rfl, rfl⟩

theorem livenessFrame_puback (c : Client) (msgId : Nat) (type : MsgType) (env : SendEnv) :
    LivenessFrame c (mqttPuback c msgId type env).2 := by
  rw [mqttPuback]
  split
  · exact livenessFrame_sendSerialized c _ _ _ _ env
  · exact .refl c

theorem livenessFrame_publish (c : Client) (topicName : CString) (topicMsg : TopicInfo)
    (env : PublishEnv) : LivenessFrame c (mqttPublish c topicName topicMsg env).2 := by
  have houtcome := mqttPublish_outcome c topicName topicMsg env
  generalize mqttPublish c topicName topicMsg env = result at houtcome
  cases houtcome <;> exact ⟨rfl, rfl⟩

theorem livenessFrame_subscribe (c : Client) (topicFilter : CString) (qos : UInt8)
    (msgId messageHandler pcontext : Nat) (env : SubscribeEnv) :
    LivenessFrame c (mqttSubscribe c topicFilter qos msgId messageHandler pcontext env).2 := by
  rw [mqttSubscribe]
  split
  · exact .refl c
  · split
    · exact ⟨rfl, rfl⟩
    · have hsend := livenessFrame_sendSerialized c topicFilter.strlen
        (mqttSerializeSubscribe · 0 msgId [(MqttString.ofCString topicFilter, qos)])
        stateMqttSerializeSubError c.requestTimeoutMs env.send
      dsimp only
      split
      · exact hsend
      · exact hsend.trans ⟨rfl, rfl⟩

theorem livenessFrame_unsubscribe (c : Client) (topicFilter : CString) (msgId : Nat)
    (env : SubscribeEnv) : LivenessFrame c (mqttUnsubscribe c topicFilter msgId env).2 := by
  rw [mqttUnsubscribe]
  split
  · exact .refl c
  · have hsend := livenessFrame_sendSerialized c topicFilter.strlen
      (mqttSerializeUnsubscribe · 0 msgId [MqttString.ofCString topicFilter])
      stateMqttSerializeUnsubError c.requestTimeoutMs env.send
    dsimp only
    split
    · exact hsend
    · exact hsend.trans ⟨rfl, rfl⟩

/-! ## The calls of the application -/

/-- What the three calls do with the result of their sender. -/
theorem LivenessFrame.call {c : Client} {result : Int × Client} (hsender : LivenessFrame c result.2)
    (msgId : Int) :
    LivenessFrame c
      (if result.1 < stateSuccess then (result.1, disconnectOnNwkClose result.1 result.2)
        else (msgId, result.2)).2 := by
  split
  · exact hsender.trans (livenessFrame_disconnectOnNwkClose _ _)
  · exact hsender

theorem livenessFrame_performCall (c : Client) (call : ApiCall) :
    LivenessFrame c (performCall c call) := by
  have hdrawn : LivenessFrame c (iotxMcGetNextPacketid c).2 := ⟨rfl, rfl⟩
  cases call with
  | publish topicName topicMsg env =>
      have hdrawPublish : LivenessFrame c (drawPublishId c topicMsg).2.2 := by
        rw [drawPublishId]
        split
        · exact hdrawn
        · exact .refl c
      rw [performCall, wrapperMqttPublish]
      split
      · exact .refl c
      · split
        · exact .refl c
        · refine hdrawPublish.trans ?_
          dsimp only
          split
          · exact .refl _
          · exact (livenessFrame_publish _ topicName _ env).call _
  | subscribe topicFilter qos topicHandleFunc pcontext env =>
      rw [performCall, wrapperMqttSubscribe]
      split
      · exact .refl c
      · refine hdrawn.trans ?_
        dsimp only
        split
        · exact .refl _
        · split
          · exact .refl _
          · exact (livenessFrame_subscribe _ topicFilter qos _ topicHandleFunc pcontext env).call _
  | unsubscribe topicFilter env =>
      rw [performCall, wrapperMqttUnsubscribe]
      refine hdrawn.trans ?_
      dsimp only
      split
      · exact .refl _
      · split
        · exact .refl _
        · exact (livenessFrame_unsubscribe _ topicFilter _ env).call _

theorem livenessFrame_performCalls (c : Client) (calls : List ApiCall) :
    LivenessFrame c (performCalls c calls) := by
  induction calls generalizing c with
  | nil => exact .refl c
  | cons call rest ih => exact (livenessFrame_performCall c call).trans (ih (performCall c call))

/-! ## Reading, handling and sending again -/

theorem livenessFrame_readPacket (c : Client) (env : ReadEnv) :
    LivenessFrame c (iotxMcReadPacket c env).client := by
  have hconsume (count : Nat) : LivenessFrame c (c.consume count) := ⟨rfl, rfl⟩
  have hreading := iotxMcReadPacket_reading c env
  generalize iotxMcReadPacket c env = result at hreading
  cases hreading with
  | idle => exact .refl c
  | closed count => exact hconsume count
  | @cut rc count => exact hconsume count
  | @skipped rc count calls => exact (hconsume count).trans (livenessFrame_performCalls _ calls)
  | packet => exact hconsume _

theorem livenessFrame_waitConnackLoop (left : Nat) (reads : Nat → ReadEnv) (c : Client) :
    LivenessFrame c (iotxMcWaitConnackLoop left reads c).2 := by
  induction left generalizing reads c with
  | zero =>
      rw [iotxMcWaitConnackLoop]
      split <;> exact livenessFrame_readPacket c (reads 0)
  | succ left ih =>
      rw [iotxMcWaitConnackLoop]
      split
      · exact livenessFrame_readPacket c (reads 0)
      · split
        · exact (livenessFrame_readPacket c (reads 0)).trans (ih _ _)
        · exact livenessFrame_readPacket c (reads 0)

theorem livenessFrame_dispatch (c : Client) (packetType : UInt8) (buf : Buf) (env : CycleEnv) :
    LivenessFrame c (iotxMcDispatch c packetType buf env).2 := by
  have hcalls (middle : Client) := livenessFrame_performCalls middle env.callbackCalls
  rw [iotxMcDispatch]
  split
  · exact .refl c
  split
  · rw [iotxMcHandleRecvPuback]
    dsimp only
    split
    · exact .refl c
    · have hmask : LivenessFrame c (iotxMcMaskPubInfoFrom c (ackedId buf env)) := ⟨rfl, rfl⟩
      exact hmask.trans (hcalls _)
  split
  · rw [iotxMcHandleRecvSuback]
    split
    · exact .refl c
    · exact hcalls c
  split
  · rw [iotxMcHandleRecvPublish]
    cases iotxMcRecvPublishMsg buf with
    | error code => exact .refl c
    | ok msg =>
        dsimp only
        split
        · exact hcalls c
        · split
          · exact (hcalls c).trans (livenessFrame_puback _ _ _ _)
          · split
            · exact (hcalls c).trans (livenessFrame_puback _ _ _ _)
            · exact hcalls c
  split
  · rw [iotxMcHandleRecvUnsuback]
    split
    · exact .refl c
    · exact hcalls c
  split
  · exact .refl c
  · exact .refl c

theorem livenessFrame_pubInfoProc (c : Client) (env : Nat → RepubEnv) :
    LivenessFrame c (mqttPubInfoProc c env) := by
  have hloop (list : List PubInfo) (env : Nat → RepubEnv) (c : Client) :
      LivenessFrame c (mqttPubInfoProcLoop c list env).1 := by
    induction list generalizing env c with
    | nil => exact .refl c
    | cons node rest ih =>
        rw [mqttPubInfoProcLoop]
        split
        · exact ih _ c
        · split
          · exact ih _ c
          · have hsent : LivenessFrame c (mqttRePublish c node.buf (env 0)).2 := ⟨rfl, rfl⟩
            dsimp only
            split
            · exact hsent.trans ⟨rfl, rfl⟩
            · exact hsent.trans (ih _ _)
  exact (hloop c.listPubWaitAck env c).trans ⟨rfl, rfl⟩

end EnosDeviceSdk.Mqtt
