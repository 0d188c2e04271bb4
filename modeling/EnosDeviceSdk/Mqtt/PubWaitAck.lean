/-
# What the list of waiting publishes promises

A publish with QoS 1 that has succeeded stays in `list_pub_wait_ack` until its PUBACK
comes, through disconnects and reconnects, and is sent again as it was stored. The
unmarked entries of the list are an outbox, and every step of a session posts to it or
acknowledges the id of a PUBACK; so an entry can only leave through its PUBACK.

The one exception is a PUBACK without a packet id. `MQTTDeserialize_ack` accepts it,
and `iotx_mc_handle_recv_PUBACK` then acknowledges whatever stood in its variable. The
promise is proved for sessions in which every handled PUBACK has room for an id.
-/

import EnosDeviceSdk.Mqtt.SessionSteps

namespace EnosDeviceSdk.Mqtt

open EnosDeviceSdk.Infra EnosDeviceSdk.Library

/-- Every PUBACK that the step handles has the two bytes of a packet id. -/
def PubacksCarryId (c : Client) : SessionAction → Prop
  | .cycle env =>
      ∀ header field body rest, HandlesPacket c env header field body rest →
        mqttHeaderGetType header = MsgType.puback.code → 2 ≤ body.length
  | _ => True

/-- The step handles a PUBACK and acknowledges the id. -/
def Acknowledges (msgId : Nat) (c : Client) : SessionAction → Prop
  | .cycle env =>
      ∃ header field body rest, HandlesPacket c env header field body rest ∧
        mqttHeaderGetType header = MsgType.puback.code ∧
        msgId = ackedId (packetBuffer header body) env
  | _ => False

/-- The step handles a PUBACK that carries the id. -/
def HandlesPubackOf (msgId : Nat) (c : Client) : SessionAction → Prop
  | .cycle env =>
      ∃ header field body rest, HandlesPacket c env header field body rest ∧
        mqttHeaderGetType header = MsgType.puback.code ∧ 2 ≤ body.length ∧
        bodyPacketId body = msgId
  | _ => False

/-- No entry waiting under the id is lost or changed. -/
def KeepsWaiting (msgId : Nat) (c after : Client) : Prop :=
  pendingUnder msgId (outboxOf c.listPubWaitAck) <+:
    pendingUnder msgId (outboxOf after.listPubWaitAck)

/-! ## The outbox through the steps of a session -/

/-- The body of a packet that has been read is short enough to be encoded. -/
theorem PacketRead.completePacket {c : Client} {env : ReadEnv} {header : UInt8}
    {field body rest : List UInt8} (hpacket : PacketRead c env header field body rest) :
    CompletePacket (packetBuffer header body) header body := by
  have hsmall : body.length < 128 ^ 4 :=
    Nat.lt_of_lt_of_le (lengthValue_lt hpacket.value)
      (Nat.pow_le_pow_right (by decide) hpacket.fieldLength)
  have hcomplete := CompletePacket.ofBytes header body [] (Nat.le_of_lt_succ hsmall)
  rwa [List.append_nil] at hcomplete

/-- The id that the PUBACK handler acknowledges is the one that the packet carries. -/
theorem PacketRead.ackedId_eq {c : Client} {env : CycleEnv} {header : UInt8}
    {field body rest : List UInt8} (hpacket : PacketRead c env.read header field body rest)
    (hlong : 2 ≤ body.length) : ackedId (packetBuffer header body) env = bodyPacketId body := by
  rw [ackedId, mqttDeserializeAck_packetid hpacket.completePacket hlong, Option.getD_some]

/-- Where PUBACKs carry an id, the id that is acknowledged is carried. -/
theorem HandlesPubackOf.of_acknowledges {c : Client} {action : SessionAction} {msgId : Nat}
    (hcarry : PubacksCarryId c action) (hacked : Acknowledges msgId c action) :
    HandlesPubackOf msgId c action := by
  cases action with
  | cycle env =>
      obtain ⟨header, field, body, rest, hpacket, htype, rfl⟩ := hacked
      have hlong := hcarry header field body rest hpacket htype
      exact ⟨header, field, body, rest, hpacket, htype, hlong,
        (hpacket.toPacketRead.ackedId_eq hlong).symm⟩
  | _ => exact hacked.elim

/-- A step posts to the outbox or acknowledges an id. -/
theorem outboxFrame_sessionStep (c : Client) (action : SessionAction) :
    OutboxFrame (fun msgId => Acknowledges msgId c action) c (sessionStep c action) := by
  have hposts {after : Client} (hframe : PostsOnly c after) :
      OutboxFrame (fun msgId => Acknowledges msgId c action) c after :=
    hframe.mono fun _ => False.elim
  cases action with
  | connect attempts env =>
      rw [sessionStep]
      split
      · next hinitialized =>
          exact hposts
            (wrapperMqttConnect_renewed (by simp [hinitialized]) attempts env).toOutboxFrame
      · exact .refl c
  | call call => exact hposts (sendsWhole_performCall c call).toOutboxFrame
  | keepalive env =>
      exact hposts ((iotxMcKeepalive_cases c env).elim
        (fun hsends => hsends.toOutboxFrame) Renewed.toOutboxFrame)
  | cycle env =>
      rw [sessionStep]
      have houtcome := iotxMcCycle_outcome c env
      generalize (iotxMcCycle c env).2 = after at houtcome ⊢
      cases houtcome with
      | unread hsends => exact hposts hsends.toOutboxFrame
      | @unhandled count _ _ _ hsends =>
          have hread : PostsOnly c (c.consume count) := .of_eq rfl
          exact hposts (hread.trans hsends.toOutboxFrame)
      | @handled header field body rest hpacket =>
          have hhanded : PostsOnly c (c.handPacket field body) := .of_eq rfl
          refine (hposts hhanded).trans ((outboxFrame_dispatch _ _ _ env).mono ?_)
          rintro msgId ⟨htype, hacked⟩
          exact ⟨header, field, body, rest, hpacket, htype, hacked⟩
  | pubInfoProc env => exact hposts (sendsWhole_pubInfoProc c env).toOutboxFrame
  | disconnect env => exact hposts (postsOnly_disconnect c env)

/-- What does not acknowledge an id keeps what waits under it. -/
theorem OutboxFrame.keepsWaiting {acked : Nat → Prop} {c after : Client} {msgId : Nat}
    (hframe : OutboxFrame acked c after) (hunacked : ¬ acked msgId) :
    KeepsWaiting msgId c after := by
  obtain ⟨events, hacks, hrun⟩ := hframe.outbox
  rw [KeepsWaiting, hrun]
  exact pendingUnder_runFrom _ fun hack => hunacked (hacks msgId hack)

/-- An entry is kept as long as no PUBACK that carries its id is handled. -/
theorem keepsWaiting_runFrom {c : Client} {actions : List SessionAction} {msgId : Nat}
    (hcarry : StepsMeet sessionStep PubacksCarryId c actions)
    (hunacked : StepsMeet sessionStep (fun c action => ¬ HandlesPubackOf msgId c action) c
      actions) :
    KeepsWaiting msgId c (runFrom sessionStep c actions) := by
  refine @relation_runFrom _ _ _ _ (KeepsWaiting msgId) (fun _ => List.prefix_rfl)
    (fun _ _ _ hfirst hsecond => List.IsPrefix.trans hfirst hsecond) ?_ _ _
    (hcarry.and hunacked)
  intro state action hstep
  refine (outboxFrame_sessionStep state action).keepsWaiting fun hacked => ?_
  exact hstep.2 (.of_acknowledges hstep.1 hacked)

/-- The list keeps its bound in every session. -/
theorem length_listPubWaitAck_le (params : MqttParam) (actions : List SessionAction) :
    (runFrom sessionStep (iotxMcInit params) actions).listPubWaitAck.length ≤
      iotxMcRepubNumMax :=
  @invariant_runFrom _ _ _ (fun c => c.listPubWaitAck.length ≤ iotxMcRepubNumMax)
    (fun c action => (outboxFrame_sessionStep c action).bounded) _ (Nat.zero_le _) actions

/-! ## Publishing and sending again -/

/-- A publish that fails leaves the list alone. One that succeeds with a QoS above 0
stores the bytes that the connection accepted behind everything else. -/
def KeepsStore (c : Client) (topicMsg : TopicInfo) (result : Int × Client) : Prop :=
  (result.1 ≠ stateSuccess → result.2.listPubWaitAck = c.listPubWaitAck) ∧
    (result.1 = stateSuccess → topicMsg.qos > 0 → ∃ buf,
      result.2.ipstack.accepted = c.ipstack.accepted ++ buf ∧
        outboxOf result.2.listPubWaitAck =
          outboxOf c.listPubWaitAck ++ [(topicMsg.packetId, buf)])

theorem keepsStore_mqttPublish (c : Client) (topicName : CString) (topicMsg : TopicInfo)
    (env : PublishEnv) : KeepsStore c topicMsg (mqttPublish c topicName topicMsg env) := by
  have houtcome := mqttPublish_outcome c topicName topicMsg env
  generalize mqttPublish c topicName topicMsg env = result at houtcome ⊢
  cases houtcome with
  | refused hfailed => exact ⟨fun _ => rfl, fun hsuccess => absurd hsuccess hfailed⟩
  | cut =>
      have hclosed : stateSysDependNwkClose ≠ stateSuccess := by decide
      exact ⟨fun _ => rfl, fun hsuccess => absurd hsuccess hclosed⟩
  | sent hserialized hqos => exact ⟨fun _ => rfl, fun _ hpositive => absurd hpositive hqos⟩
  | @enqueued buf now hserialized hqos hroom =>
      refine ⟨fun hfailed => absurd rfl hfailed, fun _ _ => ⟨buf, rfl, ?_⟩⟩
      rw [outboxOf_append]
      rfl

/-- What is sent again is stored packets, whole and in their order; only a pass that
takes the client out of the connected state may stop in the middle. -/
def SendsStored (c after : Client) : Prop :=
  ∃ sent bytes, sent.Sublist (outboxOf c.listPubWaitAck) ∧
    after.ipstack.accepted = c.ipstack.accepted ++ bytes ∧
    (bytes = storedBytes sent ∨ bytes <+: storedBytes sent ∧ after.clientState = .disconnected)

theorem sendsStored_pubInfoProc (c : Client) (env : Nat → RepubEnv) :
    SendsStored c (mqttPubInfoProc c env) := by
  obtain ⟨⟨sent, bytes, hsent, hbytes⟩, _, _⟩ :=
    mqttPubInfoProcLoop_spec c c.listPubWaitAck env
  have hipstack : (mqttPubInfoProc c env).ipstack =
      (mqttPubInfoProcLoop c c.listPubWaitAck env).1.ipstack := rfl
  have hstate : (mqttPubInfoProc c env).clientState =
      (mqttPubInfoProcLoop c c.listPubWaitAck env).1.clientState := rfl
  rw [SendsStored, hipstack, hstate]
  rcases hbytes with ⟨hwhole, hafter⟩ | ⟨hbegins, hafter⟩
  · exact ⟨sent, bytes, hsent, by rw [hafter]; rfl, Or.inl hwhole⟩
  · exact ⟨sent, bytes, hsent, by rw [hafter]; rfl, Or.inr ⟨hbegins, by rw [hafter]; rfl⟩⟩

/-- In every session whose handled PUBACKs carry a packet id: the list of waiting
publishes keeps its bound; from any point on, what waits under an id stays and does not
change as long as no PUBACK that carries the id is handled; a failing publish leaves
the list alone, and a successful one stores what it sent; what is sent again is what is
stored. The calls of a callback, which run within a step, lose nothing either. -/
theorem pubWaitAck_preserved (params : MqttParam) (before after : List SessionAction)
    (hcarry : StepsMeet sessionStep PubacksCarryId (iotxMcInit params) (before ++ after)) :
    (runFrom sessionStep (iotxMcInit params) (before ++ after)).listPubWaitAck.length ≤
        iotxMcRepubNumMax ∧
      (∀ msgId,
        StepsMeet sessionStep (fun c action => ¬ HandlesPubackOf msgId c action)
            (runFrom sessionStep (iotxMcInit params) before) after →
          KeepsWaiting msgId (runFrom sessionStep (iotxMcInit params) before)
            (runFrom sessionStep (iotxMcInit params) (before ++ after))) ∧
      (∀ c msgId calls, KeepsWaiting msgId c (performCalls c calls)) ∧
      (∀ c topicName topicMsg env,
        KeepsStore c topicMsg (mqttPublish c topicName topicMsg env)) ∧
      ∀ env,
        SendsStored (runFrom sessionStep (iotxMcInit params) (before ++ after))
          (mqttPubInfoProc (runFrom sessionStep (iotxMcInit params) (before ++ after)) env) := by
  refine ⟨length_listPubWaitAck_le params _, fun msgId hunacked => ?_,
    fun c msgId calls => ?_, keepsStore_mqttPublish, sendsStored_pubInfoProc _⟩
  · rw [runFrom_append]
    exact keepsWaiting_runFrom (stepsMeet_append.mp hcarry).2 hunacked
  · exact (sendsWhole_performCalls c calls).toOutboxFrame.keepsWaiting id

/-- A publish with packet id 1 keeps waiting through the PUBACK of packet id 7 and a pass
over the list. -/
theorem pubWaitAck_preserved_plain :
    KeepsWaiting 1
      (runFrom sessionStep plainClient
        [plainConnect (plainConnack ++ [0x40, 2, 0, 7]), plainPublish, .cycle plainCycleEnv])
      (runFrom sessionStep plainClient
        ([plainConnect (plainConnack ++ [0x40, 2, 0, 7]), plainPublish, .cycle plainCycleEnv] ++
          [plainPubInfoProc])) := by
  refine (pubWaitAck_preserved _
    [plainConnect (plainConnack ++ [0x40, 2, 0, 7]), plainPublish, .cycle plainCycleEnv]
    [plainPubInfoProc] ⟨trivial, trivial, ?_, trivial, trivial⟩).2.1 1 ⟨id, trivial⟩
  intro header field body rest hpacket htype
  have hstream : (runFrom sessionStep plainClient
      [plainConnect (plainConnack ++ [0x40, 2, 0, 7]), plainPublish]).ipstack.incoming =
        [0x40, 2, 0, 7] := by decide
  have hlength := hpacket.toPacketRead.length_body hstream (by decide)
  rw [hlength]
  decide

/-- The PUBACK `40 00` retires the publish with packet id 1 when 1 is what stood in the
variable of its handler, though no PUBACK has carried that id. -/
theorem pubWaitAck_lost_without_id :
    StepsMeet sessionStep (fun c action => ¬ HandlesPubackOf 1 c action)
        (runFrom sessionStep plainClient [plainConnect (plainConnack ++ [0x40, 0]), plainPublish])
        [.cycle { plainCycleEnv with mypacketid := 1 }, plainPubInfoProc] ∧
      (runFrom sessionStep plainClient
        [plainConnect (plainConnack ++ [0x40, 0]), plainPublish]).listPubWaitAck.length = 1 ∧
      (runFrom sessionStep plainClient
        [plainConnect (plainConnack ++ [0x40, 0]), plainPublish,
          .cycle { plainCycleEnv with mypacketid := 1 }, plainPubInfoProc]).listPubWaitAck = [] ∧
      ¬ KeepsWaiting 1
        (runFrom sessionStep plainClient
          [plainConnect (plainConnack ++ [0x40, 0]), plainPublish])
        (runFrom sessionStep plainClient
          [plainConnect (plainConnack ++ [0x40, 0]), plainPublish,
            .cycle { plainCycleEnv with mypacketid := 1 }, plainPubInfoProc]) := by
  have hstream : (runFrom sessionStep plainClient
      [plainConnect (plainConnack ++ [0x40, 0]), plainPublish]).ipstack.incoming = [0x40, 0] := by
    decide
  refine ⟨⟨?_, id, trivial⟩, by decide, by decide, by rw [KeepsWaiting]; decide⟩
  rintro ⟨header, field, body, rest, hpacket, _, hlong, _⟩
  rw [hpacket.toPacketRead.length_body hstream (by decide)] at hlong
  exact absurd hlong (by decide)

end EnosDeviceSdk.Mqtt
