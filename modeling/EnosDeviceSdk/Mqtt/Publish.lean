/-
# Publishing and the list of publishes that wait for their PUBACK

`MQTTPublish` with `list_pub_wait_ack`: an entry is pushed before its packet is
sent and taken back when the send fails, `iotx_mc_mask_pubInfo_from` only marks
the entries of an acknowledged id, and `MQTTPubInfoProc` deletes the marked ones
and sends the overdue ones again.

What the list stands for is the outbox of its unmarked entries, each with its id and
its serialized packet. Publishing posts to it, masking acknowledges, and the pass
over the list does not touch it.
-/

import EnosDeviceSdk.Library.Outbox
import EnosDeviceSdk.Mqtt.Client
import EnosDeviceSdk.Mqtt.Topic

namespace EnosDeviceSdk.Mqtt

open EnosDeviceSdk.Infra EnosDeviceSdk.Library

/-- `IOTX_MC_REPUB_NUM_MAX` -/
def iotxMcRepubNumMax : Nat := 10

/-- `iotx_mqtt_topic_info_t`, the fields that a publish reads. -/
structure TopicInfo where
  packetId : Nat
  qos : UInt8
  retain : UInt8
  payload : List UInt8
  deriving DecidableEq

/-- What the environment decides about a publish: the reading its deadline counts
from, the allocations of the send buffer and of the list entry, the reading that
starts the entry's timer, and the turns of the writer's loop. -/
structure PublishEnv where
  start : UInt32
  mallocBuffer : Bool
  mallocNode : Bool
  nodeStart : UInt32
  writes : List WriteStep
  deriving DecidableEq

/-- `MQTTSerialize_publish` as `MQTTPublish` calls it, with the fact that it fills the
send buffer with one complete packet. -/
def serializedPublish (bufSizeSend : Nat) (topicName : CString) (topicMsg : TopicInfo) :
    Except Int { buf : List UInt8 // SerializedPacket buf } :=
  match hresult : mqttSerializePublish bufSizeSend 0 topicMsg.qos topicMsg.retain
      topicMsg.packetId (MqttString.ofCString topicName) topicMsg.payload with
  | .error code => .error code
  | .ok buf => .ok ⟨buf, serializedPacket_publish (MqttString.oneForm_ofCString topicName) hresult⟩

/-- `iotx_mc_push_pubInfo_to`: the entry is a copy of the filled send buffer. -/
def iotxMcPushPubInfoTo (c : Client) (bufSizeSend : Nat)
    (buf : { buf : List UInt8 // SerializedPacket buf }) (msgId : Nat) (mallocOk : Bool)
    (now : UInt32) : Int × Client :=
  if buf.1.length > bufSizeSend then (stateMqttTxBufferTooShort, c)
  else if c.listPubWaitAck.length ≥ iotxMcRepubNumMax then (stateMqttQos1RepubExceedMax, c)
  else if !mallocOk then (stateSysDependMalloc, c)
  else
    (stateSuccess,
      { c with listPubWaitAck := c.listPubWaitAck ++ [⟨now, .normanl, msgId, buf.1, buf.2⟩] })

/-- `iotx_mc_mask_pubInfo_from` -/
def iotxMcMaskPubInfoFrom (c : Client) (msgId : Nat) : Client :=
  { c with
    listPubWaitAck := c.listPubWaitAck.map fun node =>
      if node.msgId = msgId then { node with nodeState := .invalid } else node }

/-- `MQTTPublish`. The pushed entry is the last one of the list, and `lock_list_pub`
keeps it there until the send is over. -/
def mqttPublish (c : Client) (topicName : CString) (topicMsg : TopicInfo)
    (env : PublishEnv) : Int × Client :=
  let timer := utilsTimeCountdownMs env.start c.requestTimeoutMs
  match allocSendBuffer c (topicName.strlen + topicMsg.payload.length) env.mallocBuffer with
  | .error res => (res, c)
  | .ok bufSizeSend =>
      match serializedPublish bufSizeSend topicName topicMsg with
      | .error _ => (stateMqttSerializePubError, c)
      | .ok buf =>
          let (res, c) :=
            if topicMsg.qos > 0 then
              iotxMcPushPubInfoTo c bufSizeSend buf topicMsg.packetId env.mallocNode env.nodeStart
            else (stateSuccess, c)
          if res < stateSuccess then (res, c)
          else
            let (rc, ipstack) := iotxMcSendPacket c.ipstack buf.1 timer env.writes
            let c := { c with ipstack := ipstack }
            if rc ≠ stateSuccess then
              (stateSysDependNwkClose,
                if topicMsg.qos > 0 then
                  { c with listPubWaitAck := c.listPubWaitAck.dropLast }
                else c)
            else (stateSuccess, c)

/-- What the environment decides about one entry's turn in `MQTTPubInfoProc`: the
reading of the overdue test, the reading the deadline of a retransmission counts
from, its writes, and the reading that restarts the entry's timer. -/
structure RepubEnv where
  now : UInt32
  start : UInt32
  writes : List WriteStep
  restart : UInt32
  deriving DecidableEq

/-- `MQTTRePublish` -/
def mqttRePublish (c : Client) (buf : List UInt8) (env : RepubEnv) : Int × Client :=
  let timer := utilsTimeCountdownMs env.start c.requestTimeoutMs
  let (rc, ipstack) := iotxMcSendPacket c.ipstack buf timer env.writes
  (if rc ≠ stateSuccess then stateSysDependNwkClose else stateSuccess,
    { c with ipstack := ipstack })

/-- The loop of `MQTTPubInfoProc` over the entries from its cursor on; the result
holds the entries that stay. The `break` leaves the entries behind the cursor. -/
def mqttPubInfoProcLoop : Client → List PubInfo → (Nat → RepubEnv) → Client × List PubInfo
  | c, [], _ => (c, [])
  | c, node :: rest, env =>
      if node.nodeState = .invalid then
        mqttPubInfoProcLoop c rest fun index => env (index + 1)
      else if c.clientState ≠ .connected ||
          utilsTimeSpend (env 0).now node.pubStartTime ≤ c.requestTimeoutMs * 2 then
        let (c, kept) := mqttPubInfoProcLoop c rest fun index => env (index + 1)
        (c, node :: kept)
      else
        let (rc, c) := mqttRePublish c node.buf (env 0)
        let node := { node with pubStartTime := (env 0).restart }
        if rc = stateSysDependNwkClose then
          (iotxMcSetClientState c .disconnected, node :: rest)
        else
          let (c, kept) := mqttPubInfoProcLoop c rest fun index => env (index + 1)
          (c, node :: kept)

/-- `MQTTPubInfoProc` -/
def mqttPubInfoProc (c : Client) (env : Nat → RepubEnv) : Client :=
  let (c, kept) := mqttPubInfoProcLoop c c.listPubWaitAck env
  { c with listPubWaitAck := kept }

/-! ## What a publish can do -/

/-- The possible results of `MQTTPublish`: nothing happens; the packet is cut and the
list is what it was; the whole packet is sent, and with a QoS above 0 its entry is
the new last one of a list that had room for it. -/
inductive PublishOutcome (c : Client) (topicMsg : TopicInfo) : Int × Client → Prop
  | refused {res : Int} (hfailed : res ≠ stateSuccess) (hopen : res ≠ stateSysDependNwkClose) :
      PublishOutcome c topicMsg (res, c)
  | cut {buf : List UInt8} {count : Nat} (hserialized : SerializedPacket buf)
      (hcut : count < buf.length) :
      PublishOutcome c topicMsg (stateSysDependNwkClose, c.acceptBytes (buf.take count))
  | sent {buf : List UInt8} (hserialized : SerializedPacket buf) (hqos : ¬ topicMsg.qos > 0) :
      PublishOutcome c topicMsg (stateSuccess, c.acceptBytes buf)
  | enqueued {buf : List UInt8} (now : UInt32) (hserialized : SerializedPacket buf)
      (hqos : topicMsg.qos > 0) (hroom : c.listPubWaitAck.length < iotxMcRepubNumMax) :
      PublishOutcome c topicMsg
        (stateSuccess,
          { c.acceptBytes buf with
            listPubWaitAck :=
              c.listPubWaitAck ++ [⟨now, .normanl, topicMsg.packetId, buf, hserialized⟩] })

/-- A push is refused, or it appends its entry to a list that has room. -/
theorem iotxMcPushPubInfoTo_cases (c : Client) (bufSizeSend : Nat)
    (buf : { buf : List UInt8 // SerializedPacket buf }) (msgId : Nat) (mallocOk : Bool)
    (now : UInt32) :
    (∃ res, res < stateSuccess ∧ res ≠ stateSysDependNwkClose ∧
      iotxMcPushPubInfoTo c bufSizeSend buf msgId mallocOk now = (res, c)) ∨
      c.listPubWaitAck.length < iotxMcRepubNumMax ∧
        iotxMcPushPubInfoTo c bufSizeSend buf msgId mallocOk now =
          (stateSuccess,
            { c with
              listPubWaitAck := c.listPubWaitAck ++ [⟨now, .normanl, msgId, buf.1, buf.2⟩] }) := by
  rw [iotxMcPushPubInfoTo]
  split
  · exact Or.inl ⟨_, by decide, by decide, rfl⟩
  · split
    · exact Or.inl ⟨_, by decide, by decide, rfl⟩
    · next hroom =>
        split
        · exact Or.inl ⟨_, by decide, by decide, rfl⟩
        · exact Or.inr ⟨by omega, rfl⟩

/-- When a push is not refused. -/
theorem iotxMcPushPubInfoTo_success_iff (c : Client) (bufSizeSend : Nat)
    (buf : { buf : List UInt8 // SerializedPacket buf }) (msgId : Nat) (mallocOk : Bool)
    (now : UInt32) :
    (iotxMcPushPubInfoTo c bufSizeSend buf msgId mallocOk now).1 = stateSuccess ↔
      buf.1.length ≤ bufSizeSend ∧ c.listPubWaitAck.length < iotxMcRepubNumMax ∧
        mallocOk = true := by
  have hshort : stateMqttTxBufferTooShort ≠ stateSuccess := by decide
  have hexceeded : stateMqttQos1RepubExceedMax ≠ stateSuccess := by decide
  have hmalloc : stateSysDependMalloc ≠ stateSuccess := by decide
  rw [iotxMcPushPubInfoTo]
  split
  · next hlong => exact iff_of_false hshort fun hall => absurd hall.1 (Nat.not_le.mpr hlong)
  · split
    · next hfull => exact iff_of_false hexceeded fun hall => absurd hall.2.1 (Nat.not_lt.mpr hfull)
    · split
      · next hnone => exact iff_of_false hmalloc fun hall => by simp [hall.2.2] at hnone
      · next hlong hfull hsome =>
          exact iff_of_true rfl ⟨Nat.not_lt.mp hlong, Nat.not_le.mp hfull, by simpa using hsome⟩

/-- The only failure of the send buffer's allocation. -/
theorem allocSendBuffer_error {c : Client} {len : Nat} {mallocOk : Bool} {res : Int}
    (hbuffer : allocSendBuffer c len mallocOk = .error res) : res = stateSysDependMalloc := by
  rw [allocSendBuffer] at hbuffer
  split at hbuffer
  · simp at hbuffer
  · simpa using hbuffer.symm

/-- What it takes for a publish to go through: its packet fits the send buffer, the list
has room and memory for its entry, and the connection accepts the whole packet. -/
def GoesThrough (c : Client) (topicName : CString) (topicMsg : TopicInfo) (env : PublishEnv) :
    Prop :=
  ∃ size buf,
    allocSendBuffer c (topicName.strlen + topicMsg.payload.length) env.mallocBuffer = .ok size ∧
      serializedPublish size topicName topicMsg = .ok buf ∧ buf.1.length ≤ size ∧
      c.listPubWaitAck.length < iotxMcRepubNumMax ∧ env.mallocNode = true ∧
      bytesAccepted (env.start + c.requestTimeoutMs) env.writes buf.1.length = buf.1.length

/-- A publish with a QoS above 0 succeeds exactly when it goes through. -/
theorem mqttPublish_success_iff (c : Client) (topicName : CString) {topicMsg : TopicInfo}
    (env : PublishEnv) (hqos : topicMsg.qos > 0) :
    (mqttPublish c topicName topicMsg env).1 = stateSuccess ↔
      GoesThrough c topicName topicMsg env := by
  rw [mqttPublish, GoesThrough]
  cases hbuffer : allocSendBuffer c (topicName.strlen + topicMsg.payload.length)
      env.mallocBuffer with
  | error res =>
      have hmalloc : stateSysDependMalloc ≠ stateSuccess := by decide
      simp [allocSendBuffer_error hbuffer, hmalloc]
  | ok size =>
      cases hserialize : serializedPublish size topicName topicMsg with
      | error code =>
          have hfailed : stateMqttSerializePubError ≠ stateSuccess := by decide
          simp [hserialize, hfailed]
      | ok buf =>
          simp only [Except.ok.injEq, exists_and_left, exists_eq_left', hserialize, hqos, if_true]
          have hpushed := iotxMcPushPubInfoTo_success_iff c size buf topicMsg.packetId
            env.mallocNode env.nodeStart
          rcases iotxMcPushPubInfoTo_cases c size buf topicMsg.packetId env.mallocNode
            env.nodeStart with ⟨res, hres, _, hpush⟩ | ⟨_, hpush⟩
          · rw [hpush] at hpushed ⊢
            rw [if_pos hres]
            refine iff_of_false (Int.ne_of_lt hres) ?_
            rintro ⟨hfits, hroom, hnode, -⟩
            exact absurd (hpushed.mpr ⟨hfits, hroom, hnode⟩) (Int.ne_of_lt hres)
          · rw [hpush] at hpushed ⊢
            obtain ⟨hfits, hroom, hnode⟩ := hpushed.mp rfl
            simp only [iotxMcSendPacket_eq, Int.lt_irrefl, if_false, hfits, hroom, hnode, true_and]
            have hclosed : stateSysDependNwkClose ≠ stateSuccess := by decide
            rw [← utilsTimeCountdownMs]
            by_cases hwhole : bytesAccepted (utilsTimeCountdownMs env.start c.requestTimeoutMs)
                env.writes buf.1.length = buf.1.length
            · simp [hwhole]
            · simp [hwhole, hclosed]

/-- Everything that a publish can do. -/
theorem mqttPublish_outcome (c : Client) (topicName : CString) (topicMsg : TopicInfo)
    (env : PublishEnv) :
    PublishOutcome c topicMsg (mqttPublish c topicName topicMsg env) := by
  rw [mqttPublish]
  cases hbuffer : allocSendBuffer c (topicName.strlen + topicMsg.payload.length)
      env.mallocBuffer with
  | error res => exact allocSendBuffer_error hbuffer ▸ .refused (by decide) (by decide)
  | ok bufSizeSend =>
      dsimp only
      cases serializedPublish bufSizeSend topicName topicMsg with
      | error code => exact .refused (by decide) (by decide)
      | ok buf =>
          dsimp only
          have haccepted := bytesAccepted_le (utilsTimeCountdownMs env.start c.requestTimeoutMs)
            env.writes buf.1.length
          by_cases hqos : topicMsg.qos > 0
          · rcases iotxMcPushPubInfoTo_cases c bufSizeSend buf topicMsg.packetId env.mallocNode
              env.nodeStart with ⟨res, hres, hopen, hpush⟩ | ⟨hroom, hpush⟩
            · simp only [hqos, if_true, hpush, hres]
              exact .refused (Int.ne_of_lt hres) hopen
            · simp only [hqos, if_true, hpush, iotxMcSendPacket_eq, Int.lt_irrefl, if_false]
              split
              · next hwhole =>
                  rw [if_neg (by simp), hwhole, List.take_length]
                  exact .enqueued env.nodeStart buf.2 hqos hroom
              · next hcut =>
                  rw [if_pos (by decide), List.dropLast_concat]
                  exact .cut buf.2 (Nat.lt_of_le_of_ne haccepted hcut)
          · simp only [hqos, if_false, iotxMcSendPacket_eq, Int.lt_irrefl]
            split
            · next hwhole =>
                rw [if_neg (by simp), hwhole, List.take_length]
                exact .sent buf.2 hqos
            · next hcut =>
                rw [if_pos (by decide)]
                exact .cut buf.2 (Nat.lt_of_le_of_ne haccepted hcut)

/-! ## The outbox -/

/-- The outbox that a list stands for. -/
def outboxOf (list : List PubInfo) : List (Nat × List UInt8) :=
  (list.filter (·.nodeState = .normanl)).map fun node => (node.msgId, node.buf)

@[simp]
theorem outboxOf_append (first second : List PubInfo) :
    outboxOf (first ++ second) = outboxOf first ++ outboxOf second := by
  simp [outboxOf]

/-- Masking an id acknowledges it. -/
theorem outboxOf_mask (c : Client) (msgId : Nat) :
    outboxOf (iotxMcMaskPubInfoFrom c msgId).listPubWaitAck =
      outboxStep (outboxOf c.listPubWaitAck) (.ack msgId) := by
  rw [iotxMcMaskPubInfoFrom, outboxStep]
  induction c.listPubWaitAck with
  | nil => rfl
  | cons node rest ih =>
      simp only [outboxOf] at ih ⊢
      by_cases hid : node.msgId = msgId <;> by_cases hnormal : node.nodeState = .normanl <;>
        simp [hid, hnormal, ih]

/-- A retransmission writes a prefix of the entry's packet, the whole of it exactly
when it succeeds. -/
theorem mqttRePublish_cases (c : Client) (buf : List UInt8) (env : RepubEnv) :
    mqttRePublish c buf env = (stateSuccess, c.acceptBytes buf) ∨
      ∃ written, written <+: buf ∧
        mqttRePublish c buf env = (stateSysDependNwkClose, c.acceptBytes written) := by
  rw [mqttRePublish, iotxMcSendPacket_eq]
  dsimp only
  split
  · next hwhole =>
      rw [if_neg (by simp), hwhole, List.take_length]
      exact Or.inl rfl
  · rw [if_pos (by decide)]
    exact Or.inr ⟨_, List.take_prefix _ buf, rfl⟩

/-- The stored packets of pending entries, one after the other. -/
def storedBytes (entries : List (Nat × List UInt8)) : List UInt8 :=
  (entries.map Prod.snd).flatten

/-- What a pass writes: the stored packets of some pending entries, in the order of
the list; it may stop short only when it takes the client out of the connected state. -/
def Retransmits (outbox : List (Nat × List UInt8)) (c after : Client) : Prop :=
  ∃ sent bytes, sent.Sublist outbox ∧
    (bytes = storedBytes sent ∧ after = c.acceptBytes bytes ∨
      bytes <+: storedBytes sent ∧
        after = iotxMcSetClientState (c.acceptBytes bytes) .disconnected)

/-- A pass that skips an entry writes what the pass over the rest writes. -/
theorem Retransmits.skip {outbox longer : List (Nat × List UInt8)} {c after : Client}
    (hrest : Retransmits outbox c after) (hlonger : outbox.Sublist longer) :
    Retransmits longer c after := by
  obtain ⟨sent, bytes, hsent, hbytes⟩ := hrest
  exact ⟨sent, bytes, hsent.trans hlonger, hbytes⟩

/-- A pass that sends the first entry again and goes on. -/
theorem Retransmits.send {outbox : List (Nat × List UInt8)} {c after : Client}
    {entry : Nat × List UInt8} (hrest : Retransmits outbox (c.acceptBytes entry.2) after) :
    Retransmits (entry :: outbox) c after := by
  obtain ⟨sent, bytes, hsent, hbytes⟩ := hrest
  refine ⟨entry :: sent, entry.2 ++ bytes, hsent.cons_cons entry, ?_⟩
  have hstored : storedBytes (entry :: sent) = entry.2 ++ storedBytes sent := by
    simp [storedBytes]
  rw [hstored, ← c.acceptBytes_append]
  rcases hbytes with ⟨rfl, hafter⟩ | ⟨hbegins, hafter⟩
  · exact Or.inl ⟨rfl, hafter⟩
  · exact Or.inr ⟨(List.prefix_append_right_inj _).mpr hbegins, hafter⟩

/-- The pass over the list retransmits stored packets and leaves the outbox alone. -/
theorem mqttPubInfoProcLoop_spec (c : Client) (list : List PubInfo) (env : Nat → RepubEnv) :
    Retransmits (outboxOf list) c (mqttPubInfoProcLoop c list env).1 ∧
      outboxOf (mqttPubInfoProcLoop c list env).2 = outboxOf list ∧
      (mqttPubInfoProcLoop c list env).2.length ≤ list.length := by
  induction list generalizing c env with
  | nil =>
      exact ⟨⟨[], [], by simp, Or.inl ⟨rfl, by simp [mqttPubInfoProcLoop]⟩⟩, rfl, Nat.le_refl 0⟩
  | cons node rest ih =>
      rw [mqttPubInfoProcLoop]
      split
      · next hinvalid =>
          have hdeleted : outboxOf (node :: rest) = outboxOf rest := by
            simp [outboxOf, hinvalid]
          obtain ⟨hsent, hkept, hlength⟩ := ih c fun index => env (index + 1)
          exact ⟨hdeleted ▸ hsent, hdeleted ▸ hkept, Nat.le_succ_of_le hlength⟩
      · next hvalid =>
          have hnormal : node.nodeState = .normanl := by
            cases hstate : node.nodeState with
            | normanl => rfl
            | invalid => exact absurd hstate hvalid
          have hentry (time : UInt32) (later : List PubInfo) :
              outboxOf ({ node with pubStartTime := time } :: later) =
                (node.msgId, node.buf) :: outboxOf later := by
            simp [outboxOf, hnormal]
          have hnode := hentry node.pubStartTime
          split
          · obtain ⟨hsent, hkept, hlength⟩ := ih c fun index => env (index + 1)
            rw [hnode, hnode, hkept]
            exact ⟨hsent.skip (List.sublist_cons_self _ _), rfl, Nat.succ_le_succ hlength⟩
          · rcases mqttRePublish_cases c node.buf (env 0) with hsend | ⟨written, hbegins, hsend⟩
            · simp only [hsend]
              rw [if_neg (by decide), hnode]
              obtain ⟨hsent, hkept, hlength⟩ :=
                ih (c.acceptBytes node.buf) fun index => env (index + 1)
              refine ⟨.send hsent, ?_, Nat.succ_le_succ hlength⟩
              rw [hentry, hkept]
            · simp only [hsend, if_true]
              rw [hnode, hentry]
              refine ⟨⟨[(node.msgId, node.buf)], written, ?_, Or.inr ⟨?_, rfl⟩⟩, rfl,
                Nat.le_refl _⟩
              · exact (List.nil_sublist _).cons_cons _
              · simpa [storedBytes] using hbegins

end EnosDeviceSdk.Mqtt
