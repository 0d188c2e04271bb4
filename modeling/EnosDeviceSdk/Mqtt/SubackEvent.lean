/-
# The verdict on a subscription

A SUBACK answers a SUBSCRIBE with one return code for each topic, and `0x80` refuses a topic.
The client folds the codes to a flag that starts out negative and is written anew for every
code, so the last code alone decides. A packet without codes leaves the flag as it was, which
counts as success, and so does a packet that the deserializer gave up on without an error.
-/

import EnosDeviceSdk.Infra.State
import EnosDeviceSdk.Mqtt.Deserialize

namespace EnosDeviceSdk.Mqtt.SubackEvent

open EnosDeviceSdk.Infra EnosDeviceSdk.Mqtt

/-- The events that a SUBACK raises, `IOTX_MQTT_EVENT_SUBCRIBE_SUCCESS` and
`IOTX_MQTT_EVENT_SUBCRIBE_NACK`. -/
inductive SubcribeEvent
  | success | nack
  deriving DecidableEq

/-- `iotx_mqtt_event_msg_t` with a packet id. -/
structure SubcribeMsg where
  eventType : SubcribeEvent
  packetId : Nat
  deriving DecidableEq

/-- The test of one granted QoS, which is cut down to a byte. -/
def refused (grantedQoS : Int) : Bool := grantedQoS % 256 = 0x80

/-- The loop over the granted QoSs. -/
def failFlag (grantedQoSs : List Int) : Int :=
  grantedQoSs.foldl (fun _ grantedQoS => if refused grantedQoS then 1 else 0) (-1)

/-- `iotx_mc_handle_recv_SUBACK`, with the message that goes to the waiting subscribers and to
the user. `stale` is what the stack holds where the packet id belongs. -/
def iotxMcHandleRecvSuback (buf : Buf) (stale : Nat) : Int × Option SubcribeMsg :=
  let result := mqttDeserializeSuback mutliSubscirbeMax buf
  if result.rc < 0 then (stateMqttDeserializeSubackError, none)
  else
    let mypacketid := result.packetid.getD stale
    let codes := result.grantedQoSs.take (result.count.getD 0)
    let eventType := if failFlag codes = 1 then SubcribeEvent.nack else .success
    (stateSuccess, some ⟨eventType, mypacketid⟩)

/-! ## The verdict -/

/-- A packet id and one to `MUTLI_SUBSCIRBE_MAX` return codes. -/
def WellFormedSuback (body : List UInt8) : Prop :=
  3 ≤ body.length ∧ body.length ≤ 2 + mutliSubscirbeMax

/-- The return codes of a packet. -/
def returnCodes (body : List UInt8) : List UInt8 := body.drop 2

/-- Success is only reported for a packet without a refusal, a refusal is reported, and nothing is
reported of any other packet. -/
structure VerdictRight (body : List UInt8) (msg : Option SubcribeMsg) : Prop where
  success : ∀ packetId, msg = some ⟨.success, packetId⟩ →
    WellFormedSuback body ∧ 0x80 ∉ returnCodes body ∧ packetId = bodyPacketId body
  nack : WellFormedSuback body → 0x80 ∈ returnCodes body →
    msg = some ⟨.nack, bodyPacketId body⟩
  otherwise : ¬(WellFormedSuback body ∧ 0x80 ∈ returnCodes body) →
    ∀ packetId, msg ≠ some ⟨.nack, packetId⟩

theorem refused_signedChar (byte : UInt8) : refused (signedChar byte) = decide (byte = 0x80) := by
  have hbound := byte.toNat_lt
  have hsame : byte = 0x80 ↔ byte.toNat = 128 := by
    rw [← UInt8.toNat_inj]
    rfl
  rw [refused, signedChar, decide_eq_decide, hsame]
  split
  · next hlow =>
    have hlow' : byte.toNat < 128 := hlow
    omega
  · omega

/-- Only the last code decides. -/
theorem failFlag_append_singleton (grantedQoSs : List Int) (last : Int) :
    failFlag (grantedQoSs ++ [last]) = if refused last then 1 else 0 := by
  rw [failFlag, List.foldl_append]
  rfl

/-- The flag of the codes of a packet. -/
theorem failFlag_eq_one_iff (codes : List UInt8) :
    failFlag (codes.map signedChar) = 1 ↔ codes.getLast? = some 0x80 := by
  rcases List.eq_nil_or_concat codes with rfl | ⟨prior, last, rfl⟩
  · simp [failFlag]
  · rw [List.concat_eq_append, List.map_append, List.map_singleton, failFlag_append_singleton,
      refused_signedChar, List.getLast?_concat, Option.some.injEq]
    by_cases hlast : last = 0x80 <;> simp [hlast]

section Packet

variable {buf : Buf} {header : UInt8} {body : List UInt8}

/-- A packet that is too short for a packet id is taken for a success. -/
theorem iotxMcHandleRecvSuback_short (hpacket : CompletePacket buf header body)
    (htype : mqttHeaderGetType header = MsgType.suback.code) (hshort : body.length < 2)
    (stale : Nat) : (iotxMcHandleRecvSuback buf stale).2 = some ⟨.success, stale⟩ := by
  rw [iotxMcHandleRecvSuback, mqttDeserializeSuback_short _ hpacket htype hshort]
  rfl

theorem iotxMcHandleRecvSuback_long (hpacket : CompletePacket buf header body)
    (htype : mqttHeaderGetType header = MsgType.suback.code) (hlong : 2 ≤ body.length)
    (stale : Nat) :
    (iotxMcHandleRecvSuback buf stale).2 =
      if body.length ≤ 2 + mutliSubscirbeMax then
        some ⟨if (returnCodes body).getLast? = some 0x80 then .nack else .success,
          bodyPacketId body⟩
      else none := by
  obtain ⟨first, second, rest, rfl⟩ := body_prefix_of_two_le hlong
  have hroom : (first :: second :: rest).length ≤ 2 + mutliSubscirbeMax ↔
      rest.length ≤ mutliSubscirbeMax := by
    simp only [List.length_cons]
    omega
  have hresult := mqttDeserializeSuback_long mutliSubscirbeMax hpacket htype
  by_cases hrest : rest.length ≤ mutliSubscirbeMax
  · have htake : (rest.map signedChar).take rest.length = rest.map signedChar := by
      rw [List.take_of_length_le (by simp)]
    rw [if_pos hrest] at hresult
    rw [if_pos (hroom.mpr hrest), iotxMcHandleRecvSuback, hresult]
    dsimp only [Option.getD_some]
    rw [htake]
    simp only [failFlag_eq_one_iff]
    rfl
  · rw [if_neg hrest] at hresult
    rw [if_neg (mt hroom.mp hrest), iotxMcHandleRecvSuback, hresult]
    rfl

/-- The verdict on a received SUBACK is right exactly where there are too many return codes to
take, or at least one of them and the last one is a refusal if any is. -/
theorem verdictRight_iff (hpacket : CompletePacket buf header body)
    (htype : mqttHeaderGetType header = MsgType.suback.code) (stale : Nat) :
    VerdictRight body (iotxMcHandleRecvSuback buf stale).2 ↔
      mutliSubscirbeMax < (returnCodes body).length ∨
        returnCodes body ≠ [] ∧
          (0x80 ∈ returnCodes body → (returnCodes body).getLast? = some 0x80) := by
  have hlength : (returnCodes body).length = body.length - 2 := List.length_drop
  by_cases hlong : 2 ≤ body.length
  · rw [iotxMcHandleRecvSuback_long hpacket htype hlong]
    by_cases hmany : body.length ≤ 2 + mutliSubscirbeMax
    · have hfew : ¬ mutliSubscirbeMax < (returnCodes body).length := by omega
      have hformed : WellFormedSuback body ↔ returnCodes body ≠ [] := by
        rw [WellFormedSuback, ← List.length_pos_iff, hlength]
        omega
      rw [if_pos hmany, or_iff_right hfew]
      constructor
      · intro hright
        refine ⟨fun hnone => ?_, fun hrefusal => ?_⟩
        · have hempty := hright.success (bodyPacketId body) (by simp [hnone])
          exact hformed.mp hempty.1 hnone
        · by_contra hlast
          exact (hright.success (bodyPacketId body) (by simp [hlast])).2.1 hrefusal
      · rintro ⟨hsome, hlast⟩
        refine ⟨fun packetId hmsg => ?_, fun _ hrefusal => ?_, fun hno packetId hmsg => ?_⟩
        · have hnot : (returnCodes body).getLast? ≠ some 0x80 := by
            intro hrefused
            simp [hrefused] at hmsg
          simp only [if_neg hnot, Option.some.injEq, SubcribeMsg.mk.injEq, true_and] at hmsg
          exact ⟨hformed.mpr hsome, fun hrefusal => hnot (hlast hrefusal), hmsg.symm⟩
        · rw [if_pos (hlast hrefusal)]
        · by_cases hrefused : (returnCodes body).getLast? = some 0x80
          · exact hno ⟨hformed.mpr hsome, List.mem_of_getLast? hrefused⟩
          · simp [hrefused] at hmsg
    · have hover : mutliSubscirbeMax < (returnCodes body).length := by omega
      rw [if_neg hmany]
      refine iff_of_true ⟨fun _ hmsg => (nomatch hmsg), fun hformed => ?_, fun _ _ hmsg => ?_⟩
        (Or.inl hover)
      · exact absurd hformed.2 hmany
      · cases hmsg
  · have hnone : returnCodes body = [] := by
      rw [← List.length_eq_zero_iff, hlength]
      omega
    rw [iotxMcHandleRecvSuback_short hpacket htype (not_le.mp hlong), hnone]
    refine iff_of_false (fun hright => ?_) ?_
    · have hformed := (hright.success stale rfl).1.1
      omega
    · simp

end Packet

/-- A SUBACK with a refusal and a granted QoS behind it. -/
def lateGrant : Buf := Buf.ofBytes [0x90, 4, 0, 1, 0x80, 0]

theorem lateGrant_packet : CompletePacket lateGrant 0x90 [0, 1, 0x80, 0] :=
  CompletePacket.ofBytes 0x90 [0, 1, 0x80, 0] [] (by decide)

/-- One refusal is reported where it is the last code. -/
theorem verdictRight_refusal :
    VerdictRight [0, 1, 0, 0x80]
      (iotxMcHandleRecvSuback (Buf.ofBytes [0x90, 4, 0, 1, 0, 0x80]) 0).2 := by
  have hpacket : CompletePacket (Buf.ofBytes [0x90, 4, 0, 1, 0, 0x80]) 0x90 [0, 1, 0, 0x80] :=
    CompletePacket.ofBytes 0x90 [0, 1, 0, 0x80] [] (by decide)
  exact (verdictRight_iff hpacket (by decide) 0).mpr (Or.inr ⟨by decide, fun _ => by decide⟩)

/-- A refusal in front of another code is reported as success. -/
theorem not_verdictRight_lateGrant :
    CompletePacket lateGrant 0x90 [0, 1, 0x80, 0] ∧
      (iotxMcHandleRecvSuback lateGrant 0).2 = some ⟨.success, 1⟩ ∧
      ¬ VerdictRight [0, 1, 0x80, 0] (iotxMcHandleRecvSuback lateGrant 0).2 := by
  have hmsg : (iotxMcHandleRecvSuback lateGrant 0).2 = some ⟨.success, 1⟩ := by
    rw [iotxMcHandleRecvSuback_long lateGrant_packet (by decide) (by decide)]
    rfl
  refine ⟨lateGrant_packet, hmsg, fun hright => ?_⟩
  exact (hright.success 1 hmsg).2.1 (by decide)

end EnosDeviceSdk.Mqtt.SubackEvent
