/-
# A server reads back what the client's calls mean

Every serializer of the client against the server's reader. A call that asks for nothing the
protocol forbids writes a packet that the reader takes for what the call means. The packets of
a sequence of calls stand one behind the other on the connection, and at any moment some part of
them has arrived: the server has then read what the first calls mean, up to the last packet that
has arrived whole, and waits for the rest of the next one.
-/

import EnosDeviceSdk.Mqtt.ControlPacket
import EnosDeviceSdk.Mqtt.PacketLen
import EnosDeviceSdk.Mqtt.PublishRoundTrip
import Mathlib.Data.Option.Basic

namespace EnosDeviceSdk.Mqtt

open EnosDeviceSdk.Infra EnosDeviceSdk.Library

/-! ## The calls and what they mean -/

/-- A call of one of the serializers for packets that the client sends, without its buffer. -/
inductive Outgoing
  | request (call : SerializeCall)
  | puback (packetid : Nat)
  | pingreq
  | disconnect

/-- A text that the protocol has room for. -/
def MqttString.Sendable (mqttstring : MqttString) : Prop :=
  mqttstring.OneForm ∧ mqttstring.text.length ≤ 65535

/-- A text that may be a topic name or filter. -/
def MqttString.SendableTopic (mqttstring : MqttString) : Prop :=
  mqttstring.Sendable ∧ mqttstring.text ≠ []

/-- A number that may be a packet id. -/
def IsPacketId (packetid : Nat) : Prop := packetid ≠ 0 ∧ packetid < 65536

/-- The options ask for nothing that the protocol forbids. -/
structure ConnectData.Legal (options : ConnectData) : Prop extends options.WellFormed where
  clientIdText : options.clientId.text.length ≤ 65535
  willTexts : options.willFlag = true →
    options.will.topicName.text.length ≤ 65535 ∧ options.will.message.text.length ≤ 65535
  willQos : options.willFlag = true → options.will.qos ≤ 2
  usernameText : options.username.isGiven = true → options.username.text.length ≤ 65535
  passwordText : options.password.isGiven = true → options.password.text.length ≤ 65535
  namedUser : options.password.isGiven = true → options.username.isGiven = true

namespace SerializeCall

/-- The call asks for nothing that the protocol forbids. -/
def Legal : SerializeCall → Prop
  | connect options => options.Legal
  | publish dup qos retained packetid topicName _ =>
      dup ≤ 1 ∧ qos ≤ 2 ∧ retained ≤ 1 ∧ (qos = 0 → dup = 0) ∧ (qos > 0 → IsPacketId packetid) ∧
        topicName.SendableTopic
  | subscribe dup packetid topicFilters =>
      dup = 0 ∧ IsPacketId packetid ∧ topicFilters ≠ [] ∧
        ∀ entry ∈ topicFilters, entry.1.SendableTopic ∧ entry.2 ≤ 2
  | unsubscribe dup packetid topicFilters =>
      dup = 0 ∧ IsPacketId packetid ∧ topicFilters ≠ [] ∧
        ∀ topicFilter ∈ topicFilters, topicFilter.SendableTopic

/-- What the call means. -/
def meaning : SerializeCall → ControlPacket
  | connect options =>
      .connect options.mqttVersion.toNat options.cleansession options.keepAliveInterval.toNat
        options.clientId.text
        (if options.willFlag then
          some ⟨options.will.topicName.text, options.will.message.text, options.will.qos.toNat,
            options.will.retained⟩ else none)
        (if options.username.isGiven then some options.username.text else none)
        (if options.password.isGiven then some options.password.text else none)
  | publish dup qos retained packetid topicName payload =>
      .publish (dup = 1) qos.toNat (retained = 1) topicName.text
        (if qos > 0 then some packetid else none) payload
  | subscribe _ packetid topicFilters =>
      .subscribe packetid (topicFilters.map fun entry => (entry.1.text, entry.2.toNat))
  | unsubscribe _ packetid topicFilters =>
      .unsubscribe packetid (topicFilters.map MqttString.text)

end SerializeCall

namespace Outgoing

/-- The call with a buffer of the given size. -/
def serialize (buflen : Nat) : Outgoing → Except Int (List UInt8)
  | request call => call.serialize buflen
  | puback packetid => mqttSerializeAck buflen MsgType.puback.code 0 packetid
  | pingreq => mqttSerializePingreq buflen
  | disconnect => mqttSerializeDisconnect buflen

/-- The packet that the call writes into a buffer that it takes for large enough. -/
def Writes (call : Outgoing) (packet : List UInt8) : Prop :=
  ∃ buflen, call.serialize buflen = .ok packet

/-- The call asks for nothing that the protocol forbids, and four bytes hold its length. -/
def Legal : Outgoing → Prop
  | request call => call.Legal ∧ call.remLen ≤ maxRemainingLength
  | puback packetid => IsPacketId packetid
  | pingreq | disconnect => True

/-- What the call means. -/
def meaning : Outgoing → ControlPacket
  | request call => call.meaning
  | puback packetid => .puback packetid
  | pingreq => .pingreq
  | disconnect => .disconnect

end Outgoing

/-! ## Fields read back -/

theorem takeInt_writeInt {anInt : Nat} (hsmall : anInt < 65536) (rest : List UInt8) :
    takeInt (writeInt anInt ++ rest) = some (anInt, rest) := by
  rw [writeInt, List.cons_append, List.cons_append, List.nil_append, takeInt,
    writeInt_spells hsmall]

theorem takeId_writeInt {packetid : Nat} (hid : IsPacketId packetid) (rest : List UInt8) :
    takeId (writeInt packetid ++ rest) = some (packetid, rest) := by
  rw [takeId, takeInt_writeInt hid.2]
  simp [guard, hid.1]

theorem takeText_write {mqttstring : MqttString} (hform : mqttstring.OneForm)
    (hlength : mqttstring.text.length ≤ 65535) (rest : List UInt8) :
    takeText (writeMqttString mqttstring ++ rest) = some (mqttstring.text, rest) := by
  rw [writeMqttString_eq_text hform, takeText, List.append_assoc,
    takeInt_writeInt (Nat.lt_succ_of_le hlength)]
  simp [guard]

theorem takeTopic_write {mqttstring : MqttString} (hsendable : mqttstring.SendableTopic)
    (rest : List UInt8) :
    takeTopic (writeMqttString mqttstring ++ rest) = some (mqttstring.text, rest) := by
  rw [takeTopic, takeText_write hsendable.1.1 hsendable.1.2]
  simp [guard, hsendable.2]

theorem takeTextIf_write {mqttstring : MqttString} (hform : mqttstring.OneForm) (given : Bool)
    (hlength : given = true → mqttstring.text.length ≤ 65535) (rest : List UInt8) :
    takeTextIf given ((if given then writeMqttString mqttstring else []) ++ rest) =
      some (if given then some mqttstring.text else none, rest) := by
  cases given with
  | false => rfl
  | true =>
      rw [takeTextIf, if_pos rfl, if_pos rfl, if_pos rfl, takeText_write hform (hlength rfl)]
      rfl

/-! ## Bodies read back -/

/-- The flags of a CONNECT packet do not disturb each other. -/
theorem connectFlags_parts {options : ConnectData}
    (hqos : options.willFlag = true → options.will.qos ≤ 2) :
    hasFlag (connectFlags options) 0x01 = false ∧
      hasFlag (connectFlags options) 0x02 = options.cleansession ∧
      hasFlag (connectFlags options) 0x04 = options.willFlag ∧
      hasFlag (connectFlags options) 0x80 = options.username.isGiven ∧
      hasFlag (connectFlags options) 0x40 = options.password.isGiven ∧
      if options.willFlag then
        willQos (connectFlags options) = options.will.qos.toNat ∧
          hasFlag (connectFlags options) 0x20 = options.will.retained
      else connectFlags options &&& 0x38 = 0 := by
  simp only [connectFlags]
  generalize options.cleansession = cleansession
  generalize options.username.isGiven = userName
  generalize options.password.isGiven = password
  generalize options.will.retained = retained
  generalize options.will.qos = qos at hqos
  generalize options.willFlag = will at hqos
  cases will with
  | false =>
      simp only [Bool.false_eq_true, if_false]
      clear hqos
      cases cleansession <;> cases userName <;> cases password <;> decide
  | true =>
      have hnat : qos.toNat ≤ 2 := UInt8.le_iff_toNat_le.mp (hqos rfl)
      have hcases : qos = 0 ∨ qos = 1 ∨ qos = 2 := by
        have hvalues : qos.toNat = 0 ∨ qos.toNat = 1 ∨ qos.toNat = 2 := by omega
        exact hvalues.imp UInt8.toNat_inj.mp fun h => h.imp UInt8.toNat_inj.mp UInt8.toNat_inj.mp
      simp only [if_true]
      clear hnat hqos
      rcases hcases with rfl | rfl | rfl <;> cases cleansession <;> cases userName <;>
        cases password <;> cases retained <;> decide

/-- The will of the options is read back. -/
theorem takeWill_write {options : ConnectData} (hlegal : options.Legal) (rest : List UInt8) :
    takeWill (connectFlags options)
      ((if options.willFlag then
        writeMqttString options.will.topicName ++ writeMqttString options.will.message else []) ++
          rest) =
      some (if options.willFlag then
        some ⟨options.will.topicName.text, options.will.message.text, options.will.qos.toNat,
          options.will.retained⟩ else none, rest) := by
  obtain ⟨-, -, hwill, -, -, hparts⟩ := connectFlags_parts hlegal.willQos
  rw [takeWill, hwill]
  cases hflag : options.willFlag with
  | false =>
      rw [hflag, if_neg (by decide)] at hparts
      simp [guard, hparts]
  | true =>
      rw [hflag, if_pos rfl] at hparts
      have hqos : options.will.qos.toNat ≤ 2 :=
        UInt8.le_iff_toNat_le.mp (hlegal.willQos hflag)
      have hne : options.will.qos.toNat ≠ 3 := by omega
      obtain ⟨htopic, hmessage⟩ := hlegal.willTexts hflag
      rw [if_pos rfl, if_pos rfl, if_pos rfl, hparts.1, hparts.2, List.append_assoc]
      simp [guard, hne, takeText_write hlegal.willTopic htopic,
        takeText_write hlegal.willMessage hmessage]

/-- The name and the level of the protocol are read back. -/
theorem readProtocol {version : UInt8} (hversion : version = 3 ∨ version = 4)
    (rest : List UInt8) :
    ∃ protocol, (protocol, version) ∈ protocolLevels ∧
      takeText ((if version = 4 then writeCString protocolMqtt ++ [4]
        else writeCString protocolMqisdp ++ [3]) ++ rest) = some (protocol, version :: rest) := by
  rcases hversion with rfl | rfl
  · exact ⟨[77, 81, 73, 115, 100, 112], by decide, rfl⟩
  · exact ⟨[77, 81, 84, 84], by decide, rfl⟩

theorem readConnect_connectBody {options : ConnectData} (hlegal : options.Legal) :
    readConnect (connectBody options) = some (SerializeCall.connect options).meaning := by
  obtain ⟨hreserved, hclean, -, huser, hpassword, -⟩ := connectFlags_parts hlegal.willQos
  generalize hbehind : writeInt options.keepAliveInterval.toNat ++
    (writeMqttString options.clientId ++ ((if options.willFlag then
      writeMqttString options.will.topicName ++ writeMqttString options.will.message else []) ++
        ((if options.username.isGiven then writeMqttString options.username else []) ++
          (if options.password.isGiven then writeMqttString options.password else [])))) = behind
  have hbody : connectBody options = (if options.mqttVersion = 4 then
      writeCString protocolMqtt ++ [4] else writeCString protocolMqisdp ++ [3]) ++
        connectFlags options :: behind := by
    simp only [connectBody, ← hbehind, List.append_assoc, List.cons_append, List.nil_append]
  obtain ⟨protocol, hlevel, hprotocol⟩ :=
    readProtocol hlegal.version (connectFlags options :: behind)
  have hlast : takeTextIf options.password.isGiven
      (if options.password.isGiven then writeMqttString options.password else []) =
        some (if options.password.isGiven then some options.password.text else none, []) := by
    rw [← takeTextIf_write hlegal.password _ hlegal.passwordText, List.append_nil]
  have hnamed : (if options.password.isGiven then some options.password.text else none).isSome →
      (if options.username.isGiven then some options.username.text else none).isSome := by
    intro hgiven
    cases hpasswordGiven : options.password.isGiven with
    | false => simp [hpasswordGiven] at hgiven
    | true => simp [hlegal.namedUser hpasswordGiven]
  rw [hbody, readConnect, hprotocol]
  simp only [Option.bind_eq_bind, Option.bind_some, takeByte, hreserved, hclean, huser, hpassword,
    ← hbehind, takeInt_writeInt options.keepAliveInterval.toNat_lt,
    takeText_write hlegal.clientId hlegal.clientIdText, takeWill_write hlegal,
    takeTextIf_write hlegal.username _ hlegal.usernameText, hlast, guard, if_pos hlevel,
    if_pos hnamed, if_true, SerializeCall.meaning]
  rfl

/-- A number up to 2 is one of three. -/
theorem qos_cases {qos : UInt8} (hqos : qos ≤ 2) : qos = 0 ∨ qos = 1 ∨ qos = 2 := by
  have hnat : qos.toNat ≤ 2 := UInt8.le_iff_toNat_le.mp hqos
  have hvalues : qos.toNat = 0 ∨ qos.toNat = 1 ∨ qos.toNat = 2 := by omega
  exact hvalues.imp UInt8.toNat_inj.mp fun h => h.imp UInt8.toNat_inj.mp UInt8.toNat_inj.mp

/-- The header of a PUBLISH packet says what the call says. -/
theorem publishHeader_flags {dup qos retained : UInt8} (hdup : dup ≤ 1) (hqos : qos ≤ 2)
    (hretained : retained ≤ 1) :
    (publishHeader dup qos retained).toNat / 16 = 3 ∧
      (publishHeader dup qos retained).toNat % 16 / 8 = dup.toNat ∧
      (publishHeader dup qos retained).toNat % 16 / 2 % 4 = qos.toNat ∧
      (publishHeader dup qos retained).toNat % 16 % 2 = retained.toNat := by
  rcases flag_cases hdup with rfl | rfl <;> rcases qos_cases hqos with rfl | rfl | rfl <;>
    rcases flag_cases hretained with rfl | rfl <;> decide

theorem readBody_publish {dup qos retained : UInt8} {packetid : Nat} {topicName : MqttString}
    {payload : List UInt8}
    (hlegal : (SerializeCall.publish dup qos retained packetid topicName payload).Legal) :
    readBody (publishHeader dup qos retained)
      (writeMqttString topicName ++ (if qos > 0 then writeInt packetid else []) ++ payload) =
        some (SerializeCall.publish dup qos retained packetid topicName payload).meaning := by
  obtain ⟨hdup, hqos, hretained, hfirst, hid, htopic⟩ := hlegal
  obtain ⟨htype, hdupFlag, hqosFlag, hretainFlag⟩ := publishHeader_flags hdup hqos hretained
  have hone (flag : UInt8) : (flag.toNat = 1) = (flag = 1) := by
    rw [← UInt8.toNat_inj]
    rfl
  rw [readBody]
  generalize (publishHeader dup qos retained).toNat % 16 = flags at *
  rw [htype]
  change readPublish flags _ = _
  rw [readPublish, hdupFlag, hqosFlag, hretainFlag, SerializeCall.meaning, List.append_assoc]
  simp only [hone]
  rcases qos_cases hqos with rfl | rfl | rfl
  · simp [guard, hfirst rfl, takeTopic_write htopic]
  · simp [guard, takeTopic_write htopic, takeId_writeInt (hid (by decide))]
  · simp [guard, takeTopic_write htopic, takeId_writeInt (hid (by decide))]

theorem takeRequest_write {entry : MqttString × UInt8} (htopic : entry.1.SendableTopic)
    (hqos : entry.2 ≤ 2) (rest : List UInt8) :
    takeRequest (writeMqttString entry.1 ++ [entry.2] ++ rest) =
      some ((entry.1.text, entry.2.toNat), rest) := by
  rw [takeRequest, List.append_assoc, takeTopic_write htopic]
  simp [guard, takeByte, hqos]

theorem writeMqttString_ne_nil {mqttstring : MqttString} (hform : mqttstring.OneForm) :
    writeMqttString mqttstring ≠ [] := by
  rw [writeMqttString_eq_text hform, writeInt]
  exact List.cons_ne_nil _ _

theorem readSubscribe_write {packetid : Nat} (hid : IsPacketId packetid)
    {topicFilters : List (MqttString × UInt8)} (hsome : topicFilters ≠ [])
    (hfilters : ∀ entry ∈ topicFilters, entry.1.SendableTopic ∧ entry.2 ≤ 2) :
    readSubscribe (writeInt packetid ++ topicFilters.flatMap fun (topicFilter, requestedQoS) =>
      writeMqttString topicFilter ++ [requestedQoS]) =
        some (.subscribe packetid
          (topicFilters.map fun entry => (entry.1.text, entry.2.toNat))) := by
  generalize htail : (topicFilters.flatMap fun (topicFilter, requestedQoS) =>
    writeMqttString topicFilter ++ [requestedQoS]) = tail
  have hread : readItems takeRequest tail.length tail =
      some (topicFilters.map fun entry => (entry.1.text, entry.2.toNat)) := by
    rw [← htail]
    exact readItems_flatMap (fun entry _ => by simp) (fun entry hentry rest =>
      takeRequest_write (hfilters entry hentry).1 (hfilters entry hentry).2 rest) (Nat.le_refl _)
  rw [readSubscribe, takeId_writeInt hid]
  simp [guard, hread, hsome]

theorem readUnsubscribe_write {packetid : Nat} (hid : IsPacketId packetid)
    {topicFilters : List MqttString} (hsome : topicFilters ≠ [])
    (hfilters : ∀ topicFilter ∈ topicFilters, topicFilter.SendableTopic) :
    readUnsubscribe (writeInt packetid ++ topicFilters.flatMap writeMqttString) =
      some (.unsubscribe packetid (topicFilters.map MqttString.text)) := by
  generalize htail : topicFilters.flatMap writeMqttString = tail
  have hread : readItems takeTopic tail.length tail =
      some (topicFilters.map MqttString.text) := by
    rw [← htail]
    exact readItems_flatMap
      (fun topicFilter hmem => writeMqttString_ne_nil (hfilters topicFilter hmem).1.1)
      (fun topicFilter hmem rest => takeTopic_write (hfilters topicFilter hmem) rest)
      (Nat.le_refl _)
  rw [readUnsubscribe, takeId_writeInt hid]
  simp [guard, hread, hsome]

/-! ## Packets at the front of a stream -/

/-- A length is read back, and no part of it is taken for one. -/
theorem takeLength_encode {digits length : Nat} (hdigits : length < 128 ^ digits)
    (hpositive : 0 < digits) :
    (∀ rest, takeLength digits (mqttPacketEncode length ++ rest) = .whole length rest) ∧
      ∀ start, start <+: mqttPacketEncode length → start ≠ mqttPacketEncode length →
        takeLength digits start = .started := by
  induction digits generalizing length with
  | zero => exact absurd hpositive (Nat.lt_irrefl 0)
  | succ digits ih =>
      rw [mqttPacketEncode_eq]
      by_cases hsmall : length < 128
      · have hbyte : UInt8.ofNat length < 128 := by
          rw [UInt8.lt_iff_toNat_lt, UInt8.toNat_ofNat', Nat.mod_eq_of_lt (by omega)]
          exact hsmall
        rw [if_pos hsmall]
        constructor
        · intro rest
          rw [List.cons_append, takeLength, if_pos hbyte, List.nil_append, UInt8.toNat_ofNat',
            Nat.mod_eq_of_lt (by omega)]
        · intro start hstart hne
          cases start with
          | nil => rfl
          | cons head tail =>
              rw [List.cons_prefix_cons, List.prefix_nil] at hstart
              exact absurd (by rw [hstart.1, hstart.2]) hne
      · have hdigit := toNat_continued_digit (length % 128) (Nat.mod_lt _ (by decide))
        have hbyte : ¬ (UInt8.ofNat (length % 128) ||| 0x80) < 128 := by
          rw [UInt8.lt_iff_toNat_lt, hdigit]
          have hlimit : (128 : UInt8).toNat = 128 := by decide
          omega
        have hmore : 0 < digits := by
          by_contra hzero
          rw [Nat.eq_zero_of_not_pos hzero] at hdigits
          omega
        have hhigh : length / 128 < 128 ^ digits := by
          rw [Nat.div_lt_iff_lt_mul (by decide)]
          rwa [Nat.pow_succ] at hdigits
        obtain ⟨hwhole, hstarted⟩ := ih hhigh hmore
        rw [if_neg hsmall]
        constructor
        · intro rest
          have hvalue : length % 128 + 128 - 128 + 128 * (length / 128) = length := by omega
          rw [List.cons_append, takeLength, if_neg hbyte, hwhole]
          dsimp only
          rw [hdigit, hvalue]
        · intro start hstart hne
          cases start with
          | nil => rfl
          | cons head tail =>
              rw [List.cons_prefix_cons] at hstart
              obtain ⟨rfl, htail⟩ := hstart
              have hpart : tail ≠ mqttPacketEncode (length / 128) := fun hsame =>
                hne (by rw [hsame])
              rw [takeLength, if_neg hbyte, hstarted tail htail hpart]

/-- A packet whose body is read back stands for what is read, wherever it is cut. -/
theorem spells_of_readBody {header : UInt8} {body : List UInt8} {packet : ControlPacket}
    (hlength : body.length ≤ maxRemainingLength) (hread : readBody header body = some packet) :
    Spells frontPacket (header :: (mqttPacketEncode body.length ++ body)) packet := by
  have hdigits : body.length < 128 ^ 4 := by
    rw [maxRemainingLength] at hlength
    omega
  obtain ⟨hwhole, hstarted⟩ := takeLength_encode hdigits (by decide)
  constructor
  · intro rest
    rw [List.cons_append, List.append_assoc, frontPacket, hwhole]
    simp [hread]
  · intro start hstart hne
    cases start with
    | nil => rfl
    | cons head tail =>
        rw [List.cons_prefix_cons] at hstart
        obtain ⟨rfl, htail⟩ := hstart
        rw [frontPacket]
        by_cases hfield : mqttPacketEncode body.length <+: tail
        · obtain ⟨part, rfl⟩ := hfield
          rw [List.prefix_append_right_inj] at htail
          have hshort : part.length < body.length := by
            refine Nat.lt_of_le_of_ne htail.length_le fun hsame => hne ?_
            rw [htail.eq_of_length hsame]
          rw [hwhole]
          simp [hshort]
        · have hpart := (List.prefix_or_prefix_of_prefix htail
            (List.prefix_append (mqttPacketEncode body.length) body)).resolve_right hfield
          rw [hstarted tail hpart fun hsame => hfield (hsame ▸ List.prefix_rfl)]

/-- The packet of a successful call of the shared scheme. -/
theorem serializePacket_eq_ok {buflen : Nat} {header : UInt8} {remLen : Nat}
    {body packet : List UInt8} (hok : serializePacket buflen header remLen body = .ok packet) :
    packet = header :: (mqttPacketEncode remLen ++ body) := by
  rw [serializePacket] at hok
  split at hok
  · cases hok
  · exact (Except.ok.inj hok).symm

/-- The scheme's packet stands for what its body is read as. -/
theorem spells_of_serializePacket {buflen : Nat} {header : UInt8} {remLen : Nat}
    {body bytes : List UInt8} {packet : ControlPacket} (hbody : body.length = remLen)
    (hlength : remLen ≤ maxRemainingLength) (hread : readBody header body = some packet)
    (hok : serializePacket buflen header remLen body = .ok bytes) :
    Spells frontPacket bytes packet := by
  subst hbody
  rw [serializePacket_eq_ok hok]
  exact spells_of_readBody hlength hread

/-- The headers of the two kinds of requests. -/
theorem readBody_requests {body : List UInt8} :
    readBody (mqttHeaderSetQos
      (mqttHeaderSetDup (mqttHeaderSetType 0 MsgType.subscribe.code) 0) 1) body =
        readSubscribe body ∧
      readBody (mqttHeaderSetQos
        (mqttHeaderSetDup (mqttHeaderSetType 0 MsgType.unsubscribe.code) 0) 1) body =
          readUnsubscribe body := ⟨rfl, rfl⟩

theorem spells_request {call : SerializeCall} (hlegal : call.Legal)
    (hlength : call.remLen ≤ maxRemainingLength) {buflen : Nat} {bytes : List UInt8}
    (hok : call.serialize buflen = .ok bytes) : Spells frontPacket bytes call.meaning := by
  cases call with
  | connect options =>
      have hread : readBody (mqttHeaderSetType 0 MsgType.connect.code) (connectBody options) =
          some (SerializeCall.connect options).meaning := readConnect_connectBody hlegal
      exact spells_of_serializePacket (length_connectBody hlegal.toWellFormed) hlength hread hok
  | publish dup qos retained packetid topicName payload =>
      exact spells_of_serializePacket
        (length_publishBody hlegal.2.2.2.2.2.1.1 qos packetid payload) hlength
        (readBody_publish hlegal) hok
  | subscribe dup packetid topicFilters =>
      obtain ⟨rfl, hid, hsome, hfilters⟩ := hlegal
      have hform : ∀ entry ∈ topicFilters, entry.1.OneForm :=
        fun entry hentry => (hfilters entry hentry).1.1.1
      exact spells_of_serializePacket (length_subscribeBody packetid hform) hlength
        (readBody_requests.1.trans (readSubscribe_write hid hsome hfilters)) hok
  | unsubscribe dup packetid topicFilters =>
      obtain ⟨rfl, hid, hsome, hfilters⟩ := hlegal
      have hform : ∀ topicFilter ∈ topicFilters, topicFilter.OneForm :=
        fun topicFilter hmem => (hfilters topicFilter hmem).1.1
      exact spells_of_serializePacket (length_unsubscribeBody packetid hform) hlength
        (readBody_requests.2.trans (readUnsubscribe_write hid hsome hfilters)) hok

/-- What a legal call writes stands for what the call means. -/
theorem Outgoing.spells {call : Outgoing} (hlegal : call.Legal) {bytes : List UInt8}
    (hwrites : call.Writes bytes) : Spells frontPacket bytes call.meaning := by
  obtain ⟨buflen, hok⟩ := hwrites
  cases call with
  | request call => exact spells_request hlegal.1 hlegal.2 hok
  | puback packetid =>
      have hread : readBody 0x40 (writeInt packetid) = some (.puback packetid) := by
        change readPuback (writeInt packetid) = _
        have hid := takeId_writeInt hlegal []
        rw [List.append_nil] at hid
        rw [readPuback, hid]
        rfl
      rw [Outgoing.serialize, mqttSerializeAck] at hok
      split at hok
      · cases hok
      · obtain rfl := Except.ok.inj hok
        have hlength : (writeInt packetid).length = 2 := rfl
        exact spells_of_readBody (by rw [hlength]; decide) hread
  | pingreq =>
      rw [Outgoing.serialize, mqttSerializePingreq, mqttSerializeZero] at hok
      split at hok
      · cases hok
      · obtain rfl := Except.ok.inj hok
        exact @spells_of_readBody _ [] _ (by decide) rfl
  | disconnect =>
      rw [Outgoing.serialize, mqttSerializeDisconnect, mqttSerializeZero] at hok
      split at hok
      · cases hok
      · obtain rfl := Except.ok.inj hok
        exact @spells_of_readBody _ [] _ (by decide) rfl

theorem spells_calls {calls : List Outgoing} {packets : List (List UInt8)}
    (hwrites : List.Forall₂ Outgoing.Writes calls packets) (hlegal : ∀ call ∈ calls, call.Legal) :
    List.Forall₂ (Spells frontPacket) packets (calls.map Outgoing.meaning) := by
  induction hwrites with
  | nil => exact .nil
  | cons hfirst _ ih =>
      rw [List.forall_mem_cons] at hlegal
      exact .cons (Outgoing.spells hlegal.1 hfirst) (ih hlegal.2)

/-- Of the packets of legal calls, whatever part has arrived, the server reads what the first
calls mean, up to the last packet that has arrived whole, and keeps the start of the next one. -/
theorem received_as_meant {calls : List Outgoing} (hlegal : ∀ call ∈ calls, call.Legal)
    {packets : List (List UInt8)} (hwrites : List.Forall₂ Outgoing.Writes calls packets)
    {arrived : List UInt8} (harrived : arrived <+: packets.flatten) :
    ReadUpTo packets (calls.map Outgoing.meaning) arrived (receive frontPacket arrived) :=
  receive_of_prefix rfl (spells_calls hwrites hlegal) harrived

/-- A CONNECT with a will and a user, a subscription to `/a` and a ping. -/
def plainCalls : List Outgoing :=
  [.request (.connect ⟨4, .ofCString plainTopic, 120, true, true,
      ⟨.ofCString plainTopic, .ofCString plainTopic, true, 1⟩, .ofCString plainTopic,
      .ofCString plainTopic⟩),
    .request (.subscribe 0 1 [(.ofCString plainTopic, 1)]), .pingreq]

/-- The packets of these calls. -/
def plainPackets : List (List UInt8) :=
  [[16, 30, 0, 4, 77, 81, 84, 84, 4, 238, 0, 120, 0, 2, 47, 97, 0, 2, 47, 97, 0, 2, 47, 97, 0, 2,
      47, 97, 0, 2, 47, 97],
    [130, 7, 0, 1, 0, 2, 47, 97, 1], [192, 0]]

theorem plainCalls_legal : ∀ call ∈ plainCalls, call.Legal := by
  have htopic : (MqttString.ofCString plainTopic).text.length ≤ 65535 := by decide
  have hform : (MqttString.ofCString plainTopic).OneForm := MqttString.oneForm_ofCString _
  simp only [plainCalls, List.forall_mem_cons, List.not_mem_nil, false_imp_iff, implies_true,
    and_true]
  refine ⟨⟨⟨⟨Or.inr rfl, hform, hform, hform, hform, hform⟩, htopic, fun _ => ⟨htopic, htopic⟩,
    fun _ => by decide, fun _ => htopic, fun _ => htopic, fun _ => rfl⟩, by decide⟩,
    ⟨⟨rfl, ⟨by decide, by decide⟩, by simp, ?_⟩, by decide⟩, trivial⟩
  simp only [List.forall_mem_cons, List.not_mem_nil, false_imp_iff, implies_true, and_true]
  exact ⟨⟨⟨hform, htopic⟩, by decide⟩, by decide⟩

/-- The server has the CONNECT and the first bytes of the subscription. -/
theorem received_as_meant_part :
    ReadUpTo plainPackets (plainCalls.map Outgoing.meaning) (plainPackets.flatten.take 36)
      (receive frontPacket (plainPackets.flatten.take 36)) :=
  received_as_meant plainCalls_legal
    (.cons ⟨64, rfl⟩ (.cons ⟨64, rfl⟩ (.cons ⟨64, rfl⟩ .nil))) (List.take_prefix 36 _)

end EnosDeviceSdk.Mqtt
