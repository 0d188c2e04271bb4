/-
# Packet ids of waiting publishes

Every publish with QoS 1, every subscription and every unsubscription draws its packet
id from one counter, which runs to 65535 and starts again at 1. No draw looks at the
list of waiting publishes, so an id that is still waiting can be drawn again.

A publish draws its id under `lock_generic` and is sent later under `lock_list_pub`;
the calls of other threads and of callbacks come in between. The two parts are separate
steps here, with the drawn publishes kept in the state. The number of each draw is kept
too. The code has no such numbers; they only serve to say which draws show the same id.
-/

import EnosDeviceSdk.Library.WrapCounter
import EnosDeviceSdk.Mqtt.Api

namespace EnosDeviceSdk.Mqtt

open EnosDeviceSdk.Infra EnosDeviceSdk.Library

/-- A publish that has drawn its id and is not sent yet, with the number of its draw. -/
structure DrawnPublish where
  serial : Nat
  topicName : CString
  topicMsg : TopicInfo

/-- The client with the number of draws so far, the publishes that have drawn their id,
and for each entry of the outbox the number of the draw of its id. -/
structure DrawState where
  client : Client
  draws : Nat
  drawn : List DrawnPublish
  waiting : List Nat

/-- A step of the threads that share a client: the two parts of a publish with QoS 1, a
subscription, an unsubscription, the receipt of a PUBACK, a pass over the list, and a
change of the connection by whatever else runs. -/
inductive DrawAction
  | draw (topicName : CString) (retain : UInt8) (payload : List UInt8)
  | send (index : Nat) (env : PublishEnv)
  | subscribe (topicFilter : CString) (qos : UInt8) (topicHandleFunc pcontext : Nat)
      (env : SubscribeEnv)
  | unsubscribe (topicFilter : CString) (env : SubscribeEnv)
  | puback (msgId : Nat)
  | pubInfoProc (env : Nat → RepubEnv)
  | connection (clientState : ClientState) (ipstack : Network)

/-- `wrapper_mqtt_publish` up to `MQTTPublish`, unless it returns before. -/
def publishDraw (c : Client) (topicName : CString) (topicMsg : TopicInfo) :
    Option (TopicInfo × Client) :=
  if iotxMcCheckTopic topicName .topicNameType < stateSuccess then none
  else if !wrapperMqttCheckState c then none
  else some (drawPublishId c topicMsg).2

/-- `wrapper_mqtt_publish` from `MQTTPublish` on. -/
def publishSend (c : Client) (topicName : CString) (topicMsg : TopicInfo) (env : PublishEnv) :
    Client :=
  let (rc, c) := mqttPublish c topicName topicMsg env
  if rc < stateSuccess then disconnectOnNwkClose rc c else c

/-- The state after a step. -/
def drawStep (s : DrawState) : DrawAction → DrawState
  | .draw topicName retain payload =>
      match publishDraw s.client topicName ⟨0, 1, retain, payload⟩ with
      | none => s
      | some (topicMsg, c) =>
          { s with
            client := c
            draws := s.draws + 1
            drawn := s.drawn ++ [⟨s.draws + 1, topicName, topicMsg⟩] }
  | .send index env =>
      match s.drawn[index]? with
      | none => s
      | some publish =>
          { s with
            client := publishSend s.client publish.topicName publish.topicMsg env
            drawn := s.drawn.eraseIdx index
            waiting :=
              if (mqttPublish s.client publish.topicName publish.topicMsg env).1 = stateSuccess
              then s.waiting ++ [publish.serial]
              else s.waiting }
  | .subscribe topicFilter qos topicHandleFunc pcontext env =>
      { s with
        client := (wrapperMqttSubscribe s.client topicFilter qos topicHandleFunc pcontext env).2
        draws := if topicFilter.strlen = 0 then s.draws else s.draws + 1 }
  | .unsubscribe topicFilter env =>
      { s with
        client := (wrapperMqttUnsubscribe s.client topicFilter env).2
        draws := s.draws + 1 }
  | .puback msgId =>
      { s with
        client := iotxMcMaskPubInfoFrom s.client msgId
        waiting := s.waiting.filter fun serial => wrapped iotxMcPacketIdMax serial ≠ msgId }
  | .pubInfoProc env => { s with client := mqttPubInfoProc s.client env }
  | .connection clientState ipstack =>
      { s with client := { s.client with clientState := clientState, ipstack := ipstack } }

/-- A client that has been set up, before the first draw. -/
def drawInit (params : MqttParam) : DrawState := ⟨iotxMcInit params, 0, [], []⟩

/-- The two parts of a publish make up the call of the application. -/
theorem client_draw_send (s : DrawState) (topicName : CString) (retain : UInt8)
    (payload : List UInt8) (env : PublishEnv) :
    (drawStep (drawStep s (.draw topicName retain payload)) (.send s.drawn.length env)).client =
      performCall s.client (.publish topicName ⟨0, 1, retain, payload⟩ env) := by
  by_cases htopic : iotxMcCheckTopic topicName .topicNameType < stateSuccess
  · simp [performCall, wrapperMqttPublish, drawStep, publishDraw, htopic]
  · by_cases hcheck : wrapperMqttCheckState s.client = true
    · simp only [performCall, wrapperMqttPublish, drawStep, publishDraw, drawPublishId, htopic,
        hcheck, publishSend]
      simp
      split
      · rfl
      · rfl
    · simp [performCall, wrapperMqttPublish, drawStep, publishDraw, htopic, hcheck]

/-! ## The property -/

/-- The entries of the outbox have different ids, and so a PUBACK retires one of them. -/
structure IdsDistinct (c : Client) : Prop where
  distinct : ((outboxOf c.listPubWaitAck).map Prod.fst).Nodup
  retires : ∀ msgId ∈ (outboxOf c.listPubWaitAck).map Prod.fst,
    (outboxOf (iotxMcMaskPubInfoFrom c msgId).listPubWaitAck).length + 1 =
      (outboxOf c.listPubWaitAck).length

theorem idsDistinct_iff (c : Client) :
    IdsDistinct c ↔ ((outboxOf c.listPubWaitAck).map Prod.fst).Nodup := by
  refine ⟨IdsDistinct.distinct, fun hdistinct => ⟨hdistinct, fun msgId hmem => ?_⟩⟩
  rw [outboxOf_mask]
  exact length_outboxStep_ack hdistinct hmem

/-- The step does not send a publish, and let it go through, while an entry is waiting
whose id was drawn a multiple of 65535 draws before or after. -/
def RepeatsNoDraw (s : DrawState) : DrawAction → Prop
  | .send index env =>
      ∀ publish, s.drawn[index]? = some publish →
        GoesThrough s.client publish.topicName publish.topicMsg env →
          ∀ serial ∈ s.waiting,
            serial % iotxMcPacketIdMax ≠ publish.serial % iotxMcPacketIdMax
  | _ => True

/-! ## Draws and ids -/

/-- The numbers of the draws agree with the ids. -/
structure Numbered (s : DrawState) : Prop where
  packetId : s.client.packetId = wrapped iotxMcPacketIdMax s.draws
  drawn : ∀ publish ∈ s.drawn, 0 < publish.serial ∧ publish.topicMsg.qos = 1 ∧
    publish.topicMsg.packetId = wrapped iotxMcPacketIdMax publish.serial
  waiting : (outboxOf s.client.listPubWaitAck).map Prod.fst =
    s.waiting.map (wrapped iotxMcPacketIdMax)
  positive : ∀ serial ∈ s.waiting, 0 < serial

/-- What does not draw, post or acknowledge. -/
structure IdFrame (c after : Client) : Prop where
  packetId : after.packetId = c.packetId
  outbox : outboxOf after.listPubWaitAck = outboxOf c.listPubWaitAck

theorem IdFrame.trans {c middle after : Client} (hfirst : IdFrame c middle)
    (hsecond : IdFrame middle after) : IdFrame c after :=
  ⟨hsecond.packetId.trans hfirst.packetId, hsecond.outbox.trans hfirst.outbox⟩

theorem idFrame_disconnectOnNwkClose (rc : Int) (c : Client) :
    IdFrame c (disconnectOnNwkClose rc c) := by
  rw [disconnectOnNwkClose]
  split
  · exact ⟨rfl, rfl⟩
  · exact ⟨rfl, rfl⟩

theorem idFrame_subscribe (c : Client) (topicFilter : CString) (qos : UInt8)
    (msgId messageHandler pcontext : Nat) (env : SubscribeEnv) :
    IdFrame c (mqttSubscribe c topicFilter qos msgId messageHandler pcontext env).2 := by
  rw [mqttSubscribe]
  split
  · exact ⟨rfl, rfl⟩
  · split
    · exact ⟨rfl, rfl⟩
    · obtain ⟨bytes, hframe⟩ := c.sendSerialized_frame topicFilter.strlen
        (mqttSerializeSubscribe · 0 msgId [(MqttString.ofCString topicFilter, qos)])
        stateMqttSerializeSubError c.requestTimeoutMs env.send
      simp only [hframe]
      split
      · exact ⟨rfl, rfl⟩
      · exact ⟨rfl, rfl⟩

theorem idFrame_unsubscribe (c : Client) (topicFilter : CString) (msgId : Nat)
    (env : SubscribeEnv) : IdFrame c (mqttUnsubscribe c topicFilter msgId env).2 := by
  rw [mqttUnsubscribe]
  split
  · exact ⟨rfl, rfl⟩
  · obtain ⟨bytes, hframe⟩ := c.sendSerialized_frame topicFilter.strlen
      (mqttSerializeUnsubscribe · 0 msgId [MqttString.ofCString topicFilter])
      stateMqttSerializeUnsubError c.requestTimeoutMs env.send
    simp only [hframe]
    split
    · exact ⟨rfl, rfl⟩
    · exact ⟨rfl, rfl⟩

theorem idFrame_pubInfoProc (c : Client) (env : Nat → RepubEnv) :
    IdFrame c (mqttPubInfoProc c env) := by
  obtain ⟨⟨sent, bytes, _, hbytes⟩, hkept, _⟩ := mqttPubInfoProcLoop_spec c c.listPubWaitAck env
  refine ⟨?_, hkept⟩
  have hpacketId : (mqttPubInfoProc c env).packetId =
      (mqttPubInfoProcLoop c c.listPubWaitAck env).1.packetId := rfl
  rw [hpacketId]
  rcases hbytes with ⟨_, hafter⟩ | ⟨_, hafter⟩
  · rw [hafter]
    rfl
  · rw [hafter]
    rfl

/-- A subscription draws one id, unless its filter is empty. -/
theorem idFrame_wrapperSubscribe (c : Client) (topicFilter : CString) (qos : UInt8)
    (topicHandleFunc pcontext : Nat) (env : SubscribeEnv) :
    IdFrame (if topicFilter.strlen = 0 then c else (iotxMcGetNextPacketid c).2)
      (wrapperMqttSubscribe c topicFilter qos topicHandleFunc pcontext env).2 := by
  rw [wrapperMqttSubscribe]
  split
  · exact ⟨rfl, rfl⟩
  · dsimp only
    split
    · exact ⟨rfl, rfl⟩
    · split
      · exact ⟨rfl, rfl⟩
      · have hsubscribe := idFrame_subscribe (iotxMcGetNextPacketid c).2 topicFilter qos
          (iotxMcGetNextPacketid c).1 topicHandleFunc pcontext env
        split
        · exact hsubscribe.trans (idFrame_disconnectOnNwkClose _ _)
        · exact hsubscribe

/-- An unsubscription draws one id. -/
theorem idFrame_wrapperUnsubscribe (c : Client) (topicFilter : CString) (env : SubscribeEnv) :
    IdFrame (iotxMcGetNextPacketid c).2 (wrapperMqttUnsubscribe c topicFilter env).2 := by
  rw [wrapperMqttUnsubscribe]
  dsimp only
  split
  · exact ⟨rfl, rfl⟩
  · split
    · exact ⟨rfl, rfl⟩
    · have hunsubscribe := idFrame_unsubscribe (iotxMcGetNextPacketid c).2 topicFilter
        (iotxMcGetNextPacketid c).1 env
      split
      · exact hunsubscribe.trans (idFrame_disconnectOnNwkClose _ _)
      · exact hunsubscribe

/-- A publish that fails changes nothing here, and one that succeeds posts its id. -/
theorem publishSend_cases (c : Client) (topicName : CString) {topicMsg : TopicInfo}
    (env : PublishEnv) (hqos : topicMsg.qos > 0) :
    (mqttPublish c topicName topicMsg env).1 ≠ stateSuccess ∧
        IdFrame c (publishSend c topicName topicMsg env) ∨
      (mqttPublish c topicName topicMsg env).1 = stateSuccess ∧
        (publishSend c topicName topicMsg env).packetId = c.packetId ∧
        ∃ buf, outboxOf (publishSend c topicName topicMsg env).listPubWaitAck =
          outboxOf c.listPubWaitAck ++ [(topicMsg.packetId, buf)] := by
  have houtcome := mqttPublish_outcome c topicName topicMsg env
  rw [publishSend]
  generalize mqttPublish c topicName topicMsg env = result at houtcome ⊢
  cases houtcome with
  | @refused res hfailed =>
      refine Or.inl ⟨hfailed, ?_⟩
      dsimp only
      split
      · exact idFrame_disconnectOnNwkClose _ c
      · exact ⟨rfl, rfl⟩
  | @cut buf count =>
      have hclosed : stateSysDependNwkClose < stateSuccess := by decide
      refine Or.inl ⟨Int.ne_of_lt hclosed, ?_⟩
      dsimp only
      rw [if_pos hclosed]
      have haccepted : IdFrame c (c.acceptBytes (buf.take count)) := ⟨rfl, rfl⟩
      exact haccepted.trans (idFrame_disconnectOnNwkClose _ _)
  | sent _ hnone => exact absurd hqos hnone
  | @enqueued buf now =>
      refine Or.inr ⟨rfl, rfl, buf, ?_⟩
      dsimp only
      rw [if_neg (Int.lt_irrefl _), outboxOf_append]
      rfl

/-- A publish that gets past its checks has drawn the next id. -/
theorem publishDraw_drawn {c after : Client} {topicName : CString} {retain : UInt8}
    {payload : List UInt8} {topicMsg : TopicInfo}
    (hdrawn : publishDraw c topicName ⟨0, 1, retain, payload⟩ = some (topicMsg, after)) :
    topicMsg = ⟨(iotxMcGetNextPacketid c).1, 1, retain, payload⟩ ∧
      after = (iotxMcGetNextPacketid c).2 := by
  rw [publishDraw] at hdrawn
  split at hdrawn
  · exact absurd hdrawn (by simp)
  · split at hdrawn
    · exact absurd hdrawn (by simp)
    · rw [drawPublishId, if_pos (by simp), Option.some.injEq, Prod.mk.injEq] at hdrawn
      exact ⟨hdrawn.1.symm, hdrawn.2.symm⟩

/-- Drawing an id is one step of the counter. -/
theorem getNextPacketid_wrapped {c : Client} {draws : Nat}
    (hcounter : c.packetId = wrapped iotxMcPacketIdMax draws) :
    (iotxMcGetNextPacketid c).1 = wrapped iotxMcPacketIdMax (draws + 1) := by
  rw [iotxMcGetNextPacketid, wrapped_succ (by decide), hcounter]

namespace Numbered

variable {s : DrawState}

theorem idFrame (hnumbered : Numbered s) {after : Client} (hframe : IdFrame s.client after) :
    Numbered { s with client := after } :=
  ⟨hframe.packetId.trans hnumbered.packetId, hnumbered.drawn,
    by rw [hframe.outbox]; exact hnumbered.waiting, hnumbered.positive⟩

/-- One draw. -/
theorem next (hnumbered : Numbered s) :
    Numbered { s with client := (iotxMcGetNextPacketid s.client).2, draws := s.draws + 1 } :=
  ⟨getNextPacketid_wrapped hnumbered.packetId, hnumbered.drawn, hnumbered.waiting,
    hnumbered.positive⟩

theorem draw (hnumbered : Numbered s) (topicName : CString) (retain : UInt8)
    (payload : List UInt8) : Numbered (drawStep s (.draw topicName retain payload)) := by
  rw [drawStep]
  split
  · next hnone => exact hnumbered
  · next topicMsg c hdrawn =>
      obtain ⟨rfl, rfl⟩ := publishDraw_drawn hdrawn
      have hnext := hnumbered.next
      refine ⟨hnext.packetId, fun publish hpublish => ?_, hnext.waiting, hnext.positive⟩
      rcases List.mem_append.mp hpublish with hold | hnew
      · exact hnumbered.drawn publish hold
      · rw [List.mem_singleton.mp hnew]
        exact ⟨Nat.succ_pos _, rfl, getNextPacketid_wrapped hnumbered.packetId⟩

theorem send (hnumbered : Numbered s) (index : Nat) (env : PublishEnv) :
    Numbered (drawStep s (.send index env)) := by
  rw [drawStep]
  split
  · exact hnumbered
  · next publish hpublish =>
      obtain ⟨hpositive, hqos, hid⟩ := hnumbered.drawn publish (List.mem_of_getElem? hpublish)
      have hdrawn : ∀ other ∈ s.drawn.eraseIdx index, other ∈ s.drawn :=
        fun other hother => List.mem_of_mem_eraseIdx hother
      rcases publishSend_cases s.client publish.topicName env
        (by rw [hqos]; decide : publish.topicMsg.qos > 0) with
        ⟨hfailed, hframe⟩ | ⟨hsuccess, hcounter, buf, hposted⟩
      · rw [if_neg hfailed]
        have hkept := hnumbered.idFrame hframe
        exact ⟨hkept.packetId, fun other hother => hkept.drawn other (hdrawn other hother),
          hkept.waiting, hkept.positive⟩
      · rw [if_pos hsuccess]
        refine ⟨hcounter.trans hnumbered.packetId,
          fun other hother => hnumbered.drawn other (hdrawn other hother), ?_, ?_⟩
        · simp only [hposted, List.map_append, hnumbered.waiting, List.map_cons, List.map_nil, hid]
        · intro serial hserial
          rcases List.mem_append.mp hserial with hold | hnew
          · exact hnumbered.positive serial hold
          · exact List.mem_singleton.mp hnew ▸ hpositive

theorem puback (hnumbered : Numbered s) (msgId : Nat) :
    Numbered (drawStep s (.puback msgId)) := by
  refine ⟨hnumbered.packetId, hnumbered.drawn, ?_,
    fun serial hserial => hnumbered.positive serial (List.mem_of_mem_filter hserial)⟩
  have hids := congrArg (List.filter fun id => decide (id ≠ msgId)) hnumbered.waiting
  rw [List.filter_map, List.filter_map] at hids
  rw [drawStep]
  dsimp only
  rw [outboxOf_mask]
  exact hids

/-- Every step keeps the numbers in agreement with the ids. -/
theorem step (hnumbered : Numbered s) (action : DrawAction) : Numbered (drawStep s action) := by
  cases action with
  | draw topicName retain payload => exact hnumbered.draw topicName retain payload
  | send index env => exact hnumbered.send index env
  | subscribe topicFilter qos topicHandleFunc pcontext env =>
      have hframe := idFrame_wrapperSubscribe s.client topicFilter qos topicHandleFunc pcontext env
      rw [drawStep]
      split
      · next hempty =>
          rw [if_pos hempty] at hframe
          exact hnumbered.idFrame hframe
      · next hfilter =>
          rw [if_neg hfilter] at hframe
          exact hnumbered.next.idFrame hframe
  | unsubscribe topicFilter env =>
      exact hnumbered.next.idFrame (idFrame_wrapperUnsubscribe s.client topicFilter env)
  | puback msgId => exact hnumbered.puback msgId
  | pubInfoProc env => exact hnumbered.idFrame (idFrame_pubInfoProc s.client env)
  | connection clientState ipstack => exact hnumbered.idFrame ⟨rfl, rfl⟩

end Numbered

theorem numbered_drawInit (params : MqttParam) : Numbered (drawInit params) :=
  ⟨rfl, by simp [drawInit], rfl, by simp [drawInit]⟩

/-! ## When ids stay distinct -/

/-- A new entry has its id for itself exactly when no entry is waiting whose id was drawn
a multiple of 65535 draws before or after. -/
theorem Numbered.not_mem_iff {s : DrawState} (hnumbered : Numbered s) {publish : DrawnPublish}
    (hpublish : publish ∈ s.drawn) :
    publish.topicMsg.packetId ∉ (outboxOf s.client.listPubWaitAck).map Prod.fst ↔
      ∀ serial ∈ s.waiting, serial % iotxMcPacketIdMax ≠ publish.serial % iotxMcPacketIdMax := by
  obtain ⟨hpositive, _, hid⟩ := hnumbered.drawn publish hpublish
  rw [hid, hnumbered.waiting, List.mem_map, not_exists]
  refine forall_congr' fun serial => ?_
  rw [not_and]
  refine forall_congr' fun hserial => ?_
  rw [wrapped_eq_iff (hnumbered.positive serial hserial) hpositive]

/-- Sending a publish keeps the ids distinct exactly when it repeats no draw. -/
theorem idsDistinct_send {s : DrawState} (hnumbered : Numbered s)
    (hdistinct : IdsDistinct s.client) (index : Nat) (env : PublishEnv) :
    IdsDistinct (drawStep s (.send index env)).client ↔ RepeatsNoDraw s (.send index env) := by
  rw [drawStep, RepeatsNoDraw]
  cases hpublish : s.drawn[index]? with
  | none => exact iff_of_true hdistinct fun _ hnone => nomatch hnone
  | some publish =>
      have hmem := List.mem_of_getElem? hpublish
      have hqos : publish.topicMsg.qos > 0 := by
        rw [(hnumbered.drawn publish hmem).2.1]
        decide
      simp only [Option.some.injEq, forall_eq', ← mqttPublish_success_iff _ _ env hqos]
      rw [idsDistinct_iff]
      rcases publishSend_cases s.client publish.topicName env hqos with
        ⟨hfailed, hframe⟩ | ⟨hsuccess, _, buf, hposted⟩
      · rw [hframe.outbox]
        exact iff_of_true hdistinct.distinct fun hsuccess => absurd hsuccess hfailed
      · rw [hposted, List.map_append, List.map_cons, List.map_nil, ← List.concat_eq_append,
          List.nodup_concat, hnumbered.not_mem_iff hmem]
        exact ⟨fun hboth _ => hboth.1, fun hfresh => ⟨hfresh hsuccess, hdistinct.distinct⟩⟩

/-- A step keeps the ids distinct exactly when it repeats no draw. -/
theorem idsDistinct_drawStep {s : DrawState} (hnumbered : Numbered s)
    (hdistinct : IdsDistinct s.client) (action : DrawAction) :
    IdsDistinct (drawStep s action).client ↔ RepeatsNoDraw s action := by
  have hkept {after : Client}
      (hsame : outboxOf after.listPubWaitAck = outboxOf s.client.listPubWaitAck) :
      IdsDistinct after := by
    rw [idsDistinct_iff, hsame]
    exact hdistinct.distinct
  cases action with
  | draw topicName retain payload =>
      refine iff_of_true ?_ trivial
      rw [drawStep]
      split
      · exact hdistinct
      · next topicMsg c hdrawn =>
          obtain ⟨_, rfl⟩ := publishDraw_drawn hdrawn
          exact hkept rfl
  | send index env => exact idsDistinct_send hnumbered hdistinct index env
  | subscribe topicFilter qos topicHandleFunc pcontext env =>
      refine iff_of_true (hkept ?_) trivial
      have hframe := idFrame_wrapperSubscribe s.client topicFilter qos topicHandleFunc pcontext env
      refine hframe.outbox.trans ?_
      split
      · rfl
      · rfl
  | unsubscribe topicFilter env =>
      exact iff_of_true (hkept (idFrame_wrapperUnsubscribe s.client topicFilter env).outbox) trivial
  | puback msgId =>
      refine iff_of_true ?_ trivial
      rw [drawStep, idsDistinct_iff]
      dsimp only
      rw [outboxOf_mask]
      exact hdistinct.distinct.sublist (List.filter_sublist.map _)
  | pubInfoProc env => exact iff_of_true (hkept (idFrame_pubInfoProc s.client env).outbox) trivial
  | connection clientState ipstack => exact iff_of_true (hkept rfl) trivial

/-- In every run of publishes, subscriptions, unsubscriptions, PUBACKs and passes from a
client that has been set up: the waiting entries always have different ids, and each
PUBACK retires one of them, exactly when no publish goes through while an entry is
waiting whose id was drawn a multiple of 65535 draws before or after its own. -/
theorem packetIds_distinct_iff (params : MqttParam) (actions : List DrawAction) :
    Always drawStep (fun s => IdsDistinct s.client) (drawInit params) actions ↔
      StepsMeet drawStep RepeatsNoDraw (drawInit params) actions :=
  @always_iff_stepsMeet _ _ drawStep Numbered (fun s => IdsDistinct s.client) RepeatsNoDraw
    (fun _ action hnumbered => hnumbered.step action)
    (fun _ action hnumbered hdistinct => idsDistinct_drawStep hnumbered hdistinct action)
    (drawInit params) (numbered_drawInit params)
    ((idsDistinct_iff _).mpr (by simp [drawInit, iotxMcInit, outboxOf])) actions

/-- Unsubscriptions from a filter that is not accepted only draw ids. -/
theorem runFrom_replicate_unsubscribe {topicFilter : CString} (env : SubscribeEnv)
    (hrefused : ¬ AcceptedFilter topicFilter) (count : Nat) {s : DrawState}
    (hcounter : s.client.packetId = wrapped iotxMcPacketIdMax s.draws) :
    runFrom drawStep s (List.replicate count (.unsubscribe topicFilter env)) =
      { s with
        client := { s.client with packetId := wrapped iotxMcPacketIdMax (s.draws + count) }
        draws := s.draws + count } := by
  induction count generalizing s with
  | zero => simp [← hcounter]
  | succ count ih =>
      have hstep : drawStep s (.unsubscribe topicFilter env) =
          { s with client := (iotxMcGetNextPacketid s.client).2, draws := s.draws + 1 } := by
        rw [drawStep, wrapperMqttUnsubscribe]
        dsimp only
        rw [if_pos (not_not.mp hrefused)]
      rw [List.replicate_succ, runFrom_cons, hstep, ih (getNextPacketid_wrapped hcounter)]
      simp only [iotxMcGetNextPacketid, Nat.add_assoc, Nat.add_comm 1]

/-- A publish of `x` on topic `/a` without disturbances. -/
def plainDrawAndSend : List DrawAction :=
  [.draw plainTopic 0 [120], .send 0 ⟨0, true, true, 0, [⟨0, .accept 1024⟩]⟩]

/-- An unsubscription that draws an id and is refused, as its filter has no leading slash. -/
def refusedUnsubscribe : DrawAction := .unsubscribe ⟨[97], by decide⟩ plainSubscribeEnv

/-- A client whose first publish waits while 65534 other ids are drawn gives its next
publish the same id. -/
theorem packetIds_repeat_after_wrap :
    ¬ Always drawStep (fun s => IdsDistinct s.client) (drawInit plainParams)
      (.connection .connected Network.disconnect :: plainDrawAndSend ++
        List.replicate 65534 refusedUnsubscribe ++ plainDrawAndSend) := by
  intro halways
  have hdistinct := halways.finish.distinct
  have hcounter : (runFrom drawStep (drawInit plainParams)
      (.connection .connected Network.disconnect :: plainDrawAndSend)).client.packetId =
        wrapped iotxMcPacketIdMax (runFrom drawStep (drawInit plainParams)
          (.connection .connected Network.disconnect :: plainDrawAndSend)).draws := by
    decide
  rw [runFrom_append, runFrom_append, refusedUnsubscribe,
    runFrom_replicate_unsubscribe plainSubscribeEnv (by decide) 65534 hcounter] at hdistinct
  revert hdistinct
  decide

end EnosDeviceSdk.Mqtt
