/-
# The outgoing stream is written in whole packets

As long as a client is connected, what its connection has accepted should be whole
packets. Every caller of a sender takes the client out of the connected state when
the sender reports a cut packet, except the handler of an incoming PUBLISH: it hands
the result of `MQTTPuback` to `iotx_mc_cycle`, which only logs it. So the property
holds throughout a session exactly when no PUBACK is accepted in part.
-/

import EnosDeviceSdk.Mqtt.SessionSteps

namespace EnosDeviceSdk.Mqtt

open EnosDeviceSdk.Infra EnosDeviceSdk.Library

/-- What the connection of a connected client has accepted is whole packets. -/
def OutboundFramed (c : Client) : Prop :=
  c.clientState = .connected → Framed SerializedPacket c.ipstack.accepted

/-- A PUBACK, which has four bytes, is sent and accepted in part. -/
structure PubackCut (c : Client) (env : SendEnv) : Prop where
  mallocOk : env.mallocOk = true
  room : 4 ≤ c.bufSizeSendMax
  started : 0 < bytesAccepted (env.start + c.requestTimeoutMs) env.writes 4
  unfinished : bytesAccepted (env.start + c.requestTimeoutMs) env.writes 4 < 4

/-- The step is not a cycle that acknowledges a QoS 1 PUBLISH in part while the client
is connected. -/
def CutsNoPuback (c : Client) : SessionAction → Prop
  | .cycle env =>
      ¬ ∃ header field body rest msg, HandlesPacket c env header field body rest ∧
        mqttHeaderGetType header = MsgType.publish.code ∧
        iotxMcRecvPublishMsg (packetBuffer header body) = .ok msg ∧ msg.qos = 1 ∧
        (performCalls (c.handPacket field body) env.callbackCalls).clientState = .connected ∧
        PubackCut (performCalls (c.handPacket field body) env.callbackCalls) env.puback
  | _ => True

/-! ## Sending a PUBACK -/

/-- Sending a PUBACK adds whole packets to the accepted bytes exactly when it is not
cut. -/
theorem mqttPuback_framed_iff (c : Client) (msgId : Nat) (env : SendEnv) :
    ∃ bytes, (mqttPuback c msgId .puback env).2 = c.acceptBytes bytes ∧
      (Framed SerializedPacket bytes ↔ ¬ PubackCut c env) := by
  rw [mqttPuback, if_pos rfl, Client.sendSerialized, allocSendBuffer]
  cases hmalloc : env.mallocOk with
  | false =>
      refine ⟨[], by simp, iff_of_true framed_nil fun hcut => ?_⟩
      exact absurd (hmalloc.symm.trans hcut.mallocOk) (by decide)
  | true =>
      generalize hsize : (if mqttDynbufSendMargin + 0 > c.bufSizeSendMax then c.bufSizeSendMax
        else mqttDynbufSendMargin + 0) = size
      have hroom : size < 4 ↔ c.bufSizeSendMax < 4 := by
        have hmargin : mqttDynbufSendMargin = 64 := rfl
        split at hsize <;> omega
      simp only [if_true, mqttSerializeAck]
      by_cases hsmall : size < 4
      · rw [if_pos hsmall]
        refine ⟨[], by simp, iff_of_true framed_nil fun hcut => ?_⟩
        exact absurd (hroom.mp hsmall) (Nat.not_lt.mpr hcut.room)
      · rw [if_neg hsmall]
        generalize hheader : mqttHeaderSetQos _ _ = header
        have hpacket : SerializedPacket (header :: (mqttPacketEncode 2 ++ writeInt msgId)) :=
          ⟨header, writeInt msgId, rfl⟩
        have hlength : (header :: (mqttPacketEncode 2 ++ writeInt msgId)).length = 4 := rfl
        generalize header :: (mqttPacketEncode 2 ++ writeInt msgId) = packet at hpacket hlength ⊢
        simp only [iotxMcSendPacket_eq]
        refine ⟨_, rfl, ?_⟩
        rw [serializedPacket_selfDelimiting.framed_take_iff hpacket, hlength]
        constructor
        · rintro (hnothing | hall) hcut
          · exact absurd hcut.started (by rw [← hnothing]; exact Nat.lt_irrefl _)
          · exact absurd hcut.unfinished (Nat.not_lt.mpr hall)
        · intro hwhole
          by_contra hincomplete
          rw [not_or] at hincomplete
          exact hwhole ⟨hmalloc, by omega, Nat.pos_of_ne_zero hincomplete.1,
            Nat.not_le.mp hincomplete.2⟩

/-! ## The steps of a session -/

theorem Renewed.outboundFramed {c after : Client} (hrenewed : Renewed c after) :
    OutboundFramed after := fun hconnected => (hrenewed.clean hconnected).accepted

/-- What writes whole packets keeps the property. -/
theorem WritesWhole.outboundFramed {c after : Client} (hwrites : WritesWhole c after)
    (hframed : OutboundFramed c) : OutboundFramed after := by
  intro hconnected
  obtain ⟨bytes, hbytes, haccepted⟩ := hwrites.whole hconnected
  rw [haccepted]
  exact (hframed (hwrites.connected hconnected)).append hbytes

/-- The PUBACK behind a PUBLISH keeps the property exactly when the client is offline or
the PUBACK is not cut. -/
theorem outboundFramed_puback {c : Client} (hframed : OutboundFramed c) (msgId : Nat)
    (env : SendEnv) :
    OutboundFramed (mqttPuback c msgId .puback env).2 ↔
      ¬ (c.clientState = .connected ∧ PubackCut c env) := by
  obtain ⟨bytes, hafter, hbytes⟩ := mqttPuback_framed_iff c msgId env
  rw [hafter, not_and, ← hbytes]
  refine forall_congr' fun hconnected => ?_
  exact serializedPacket_selfDelimiting.framed_append_iff (hframed hconnected)

/-- Handing a packet to its handler keeps the property exactly when it is not a QoS 1
PUBLISH whose PUBACK is cut by a client that is still connected. -/
theorem outboundFramed_dispatch {c : Client} (hframed : OutboundFramed c) (packetType : UInt8)
    (buf : Buf) (env : CycleEnv) :
    OutboundFramed (iotxMcDispatch c packetType buf env).2 ↔
      ¬ ∃ msg, packetType = MsgType.publish.code ∧ iotxMcRecvPublishMsg buf = .ok msg ∧
        msg.qos = 1 ∧ (performCalls c env.callbackCalls).clientState = .connected ∧
        PubackCut (performCalls c env.callbackCalls) env.puback := by
  have hcalled : OutboundFramed (performCalls c env.callbackCalls) :=
    (sendsWhole_performCalls c env.callbackCalls).toWritesWhole.outboundFramed hframed
  by_cases hpublish : ∃ msg, packetType = MsgType.publish.code ∧
      iotxMcRecvPublishMsg buf = .ok msg ∧ msg.qos = 1
  · obtain ⟨msg, rfl, hmsg, hqos⟩ := hpublish
    rw [iotxMcDispatch_publish c env hmsg hqos, outboundFramed_puback hcalled, not_iff_not]
    constructor
    · exact fun ⟨hconnected, hcut⟩ => ⟨msg, rfl, hmsg, hqos, hconnected, hcut⟩
    · exact fun ⟨_, _, _, _, hconnected, hcut⟩ => ⟨hconnected, hcut⟩
  · have hwrites := (iotxMcDispatch_writes c packetType buf env).resolve_right hpublish
    refine iff_of_true (hwrites.outboundFramed hframed) ?_
    exact fun ⟨msg, htype, hmsg, hqos, _⟩ => hpublish ⟨msg, htype, hmsg, hqos⟩

/-- A cycle keeps the property exactly when it cuts no PUBACK. -/
theorem outboundFramed_cycle {c : Client} (hframed : OutboundFramed c) (env : CycleEnv) :
    OutboundFramed (iotxMcCycle c env).2 ↔ CutsNoPuback c (.cycle env) := by
  constructor
  · rintro hafter ⟨header, field, body, rest, msg, hpacket, hcut⟩
    have hhanded : OutboundFramed (c.handPacket field body) := hframed
    rw [hpacket.cycle_eq, outboundFramed_dispatch hhanded] at hafter
    exact hafter ⟨msg, hcut⟩
  · intro hkeeps
    have houtcome := iotxMcCycle_outcome c env
    generalize (iotxMcCycle c env).2 = after at houtcome ⊢
    cases houtcome with
    | unread hsends => exact hsends.toWritesWhole.outboundFramed hframed
    | @unhandled count _ _ _ hsends =>
        exact hsends.toWritesWhole.outboundFramed (hframed : OutboundFramed (c.consume count))
    | @handled header field body rest hpacket =>
        have hhanded : OutboundFramed (c.handPacket field body) := hframed
        rw [outboundFramed_dispatch hhanded]
        exact fun ⟨msg, hcut⟩ => hkeeps ⟨header, field, body, rest, msg, hpacket, hcut⟩

/-- A step keeps the property exactly when it cuts no PUBACK. -/
theorem outboundFramed_sessionStep {c : Client} (hframed : OutboundFramed c)
    (action : SessionAction) :
    OutboundFramed (sessionStep c action) ↔ CutsNoPuback c action := by
  cases action with
  | connect attempts env =>
      refine iff_of_true ?_ trivial
      rw [sessionStep]
      split
      · next hinitialized =>
          exact (wrapperMqttConnect_renewed (by simp [hinitialized]) attempts env).outboundFramed
      · exact hframed
  | call call =>
      exact iff_of_true ((sendsWhole_performCall c call).toWritesWhole.outboundFramed hframed)
        trivial
  | keepalive env =>
      refine iff_of_true ?_ trivial
      exact (iotxMcKeepalive_cases c env).elim
        (fun hsends => hsends.toWritesWhole.outboundFramed hframed) Renewed.outboundFramed
  | cycle env => exact outboundFramed_cycle hframed env
  | pubInfoProc env =>
      exact iff_of_true ((sendsWhole_pubInfoProc c env).toWritesWhole.outboundFramed hframed)
        trivial
  | disconnect env => exact iff_of_true (fun hconnected => nomatch hconnected) trivial

/-- In every session from a client that has been set up: the connection has accepted
whole packets whenever the client is connected exactly when no cycle of a connected
client cuts a PUBACK. -/
theorem outbound_framed_iff (params : MqttParam) (actions : List SessionAction) :
    Always sessionStep OutboundFramed (iotxMcInit params) actions ↔
      StepsMeet sessionStep CutsNoPuback (iotxMcInit params) actions :=
  @always_iff_stepsMeet _ _ sessionStep (fun _ => True) OutboundFramed CutsNoPuback
    (fun _ _ _ => trivial) (fun _ action _ hframed => outboundFramed_sessionStep hframed action)
    (iotxMcInit params) trivial (by simp [OutboundFramed, iotxMcInit]) actions

/-- A PUBACK that the connection takes two bytes of, for a QoS 1 PUBLISH with topic `a`
and packet id 7, leaves the client connected. -/
theorem outbound_cut_puback :
    ¬ Always sessionStep OutboundFramed plainClient
      [plainConnect (plainConnack ++ [0x32, 5, 0, 1, 97, 0, 7]),
        .cycle { plainCycleEnv with puback := ⟨true, 0, [⟨0, .accept 2⟩]⟩ }] := by
  intro halways
  have hconnected : (runFrom sessionStep plainClient
      [plainConnect (plainConnack ++ [0x32, 5, 0, 1, 97, 0, 7]),
        .cycle { plainCycleEnv with
          puback := ⟨true, 0, [⟨0, .accept 2⟩]⟩ }]).clientState = .connected := by
    decide
  have haccepted : (runFrom sessionStep plainClient
      [plainConnect (plainConnack ++ [0x32, 5, 0, 1, 97, 0, 7]),
        .cycle { plainCycleEnv with
          puback := ⟨true, 0, [⟨0, .accept 2⟩]⟩ }]).ipstack.accepted =
        [16, 12, 0, 4, 77, 81, 84, 84, 4, 2, 0, 120, 0, 0] ++ [0x40, 2] := by
    decide
  have hframed := halways.finish hconnected
  have hconnect : Framed SerializedPacket [16, 12, 0, 4, 77, 81, 84, 84, 4, 2, 0, 120, 0, 0] :=
    framed_of_frame ⟨16, [0, 4, 77, 81, 84, 84, 4, 2, 0, 120, 0, 0], by decide⟩
  rw [haccepted, serializedPacket_selfDelimiting.framed_append_iff hconnect] at hframed
  have hpuback : SerializedPacket [0x40, 2, 0, 7] := ⟨0x40, [0, 7], by decide⟩
  exact absurd ((serializedPacket_selfDelimiting.framed_take_iff hpuback 2).mp hframed)
    (by decide)

end EnosDeviceSdk.Mqtt
