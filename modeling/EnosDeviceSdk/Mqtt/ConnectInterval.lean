/-
# The keepalive interval that a CONNECT announces

`_mqtt_connect` puts twice the user's interval into `connect_data` before its loop, and
puts the user's interval back inside the loop, right after the first CONNECT. Every
further CONNECT of the same call therefore announces the user's interval itself, while
the interval on every exit is the user's.

The loop is run here with a log of the packets that it has written. The outcome of a
try is one of four; a second CONNECT is written exactly when the first try ends in a
timeout and the second one's send succeeds.
-/

import EnosDeviceSdk.Mqtt.SessionFrame

namespace EnosDeviceSdk.Mqtt

open EnosDeviceSdk.Infra

/-! ## One try -/

/-- How a try of `_mqtt_connect` can end. -/
inductive TryOutcome
  | sendFailure | timeout | rejection | acceptance
  deriving DecidableEq, Repr

/-- `rc` is one of the codes for which `_mqtt_connect` gives up. -/
def isRejection (rc : Int) : Bool :=
  rc ≤ stateMqttConnackVersionUnaccept && rc ≥ stateMqttConnackNotAuthorized

/-- One try: how it ends, its code, the client it leaves, and the CONNECT packet that it
has written, which is what the connection has accepted. -/
def connectTry (userKeepAliveInterval : UInt16) (c : Client) (env : ConnectTry) :
    TryOutcome × Int × Client × List (List UInt8) :=
  let (rc, sent) := mqttConnect c env.send
  let asked := sent.setKeepAliveInterval userKeepAliveInterval
  if rc < stateSuccess then (.sendFailure, rc, asked.setConnection Network.disconnect, [])
  else
    let written := sent.ipstack.accepted.drop c.ipstack.accepted.length
    let (rc, waited) := iotxMcWaitConnack asked env.reads
    if isRejection rc then
      (.rejection, rc, waited.setConnection Network.disconnect, [written])
    else if rc ≠ stateSuccess then
      (.timeout, rc, waited.setConnection (Network.connect env.reconnect).2, [written])
    else (.acceptance, stateSuccess, waited, [written])

/-- The loop of `_mqtt_connect` with the CONNECT packets that it has written. -/
def connectTries (userKeepAliveInterval : UInt16) :
    Nat → (Nat → ConnectTry) → Client → Int × Client × List (List UInt8)
  | 0, _, c => (stateMqttConnRetryExceedMax, c, [])
  | left + 1, tries, c =>
      let (outcome, rc, c, written) := connectTry userKeepAliveInterval c (tries 0)
      match outcome with
      | .timeout =>
          let (rc, c, later) :=
            connectTries userKeepAliveInterval left (fun index => tries (index + 1)) c
          (rc, c, written ++ later)
      | _ => (rc, c, written)

/-- The log aside, this is the loop of `_mqtt_connect`. -/
theorem connectTries_eq (userKeepAliveInterval : UInt16) (left : Nat)
    (tries : Nat → ConnectTry) (c : Client) :
    ((connectTries userKeepAliveInterval left tries c).1,
        (connectTries userKeepAliveInterval left tries c).2.1) =
      mqttConnectLoop userKeepAliveInterval left tries c := by
  induction left generalizing tries c with
  | zero => rfl
  | succ left ih =>
      rw [connectTries, mqttConnectLoop, connectTry]
      dsimp only
      by_cases hfailed : (mqttConnect c (tries 0).send).1 < stateSuccess
      · rw [if_pos hfailed, if_pos hfailed]
      rw [if_neg hfailed, if_neg hfailed]
      generalize iotxMcWaitConnack ((mqttConnect c (tries 0).send).2.setKeepAliveInterval
        userKeepAliveInterval) (tries 0).reads = waited
      rw [← isRejection]
      by_cases hrejected : isRejection waited.1 = true
      · rw [if_pos hrejected, if_pos hrejected]
      rw [if_neg hrejected, if_neg hrejected]
      by_cases htimeout : waited.1 ≠ stateSuccess
      · rw [if_pos htimeout, if_pos htimeout]
        exact ih _ _
      · rw [if_neg htimeout, if_neg htimeout]

/-- The CONNECT packets that a call of `_mqtt_connect` writes. -/
def connectsWritten (c : Client) (env : ConnectEnv) : List (List UInt8) :=
  (connectTries c.connectData.keepAliveInterval (retryTimeLimit - 1) env.tries
    (c.setKeepAliveInterval
      (announcedKeepAliveInterval c.connectData.keepAliveInterval))).2.2

/-- The packet is a CONNECT of MQTT 3.1.1 that announces the interval: behind the protocol
name, the level and the flags stand its two bytes. -/
def Announces (packet : List UInt8) (keepAliveInterval : Nat) : Prop :=
  ∃ header field body, PacketOf header field body packet ∧
    readInt (Buf.ofBytes body) 8 = (keepAliveInterval, 10)

/-- What is asked of a call: every CONNECT announces twice the user's interval, up to the
maximum, and the interval is the user's on exit. -/
def KeepAliveAnnounced (c : Client) (env : ConnectEnv) : Prop :=
  (∀ packet ∈ connectsWritten c env,
    Announces packet
      (min (2 * c.connectData.keepAliveInterval.toNat)
        configMqttKeepaliveIntervalMax.toNat)) ∧
    (mqttConnectSession c env).2.connectData.keepAliveInterval =
      c.connectData.keepAliveInterval

/-- The first try of the call ends in a timeout, and the send of the second succeeds. -/
def ConnectsAgain (c : Client) (env : ConnectEnv) : Prop :=
  let userKeepAliveInterval := c.connectData.keepAliveInterval
  let first := connectTry userKeepAliveInterval
    (c.setKeepAliveInterval (announcedKeepAliveInterval userKeepAliveInterval)) (env.tries 0)
  first.1 = .timeout ∧
    (connectTry userKeepAliveInterval first.2.2.1 (env.tries 1)).1 ≠ .sendFailure

instance (c : Client) (env : ConnectEnv) : Decidable (ConnectsAgain c env) :=
  inferInstanceAs (Decidable (_ ∧ _))

/-! ## What a CONNECT announces -/

/-- Two bytes hold an interval. -/
theorem readInt_writeInt (interval : UInt16) (before after : List UInt8) :
    readInt (Buf.ofBytes (before ++ (writeInt interval.toNat ++ after))) before.length =
      (interval.toNat, before.length + 2) := by
  have hlt := interval.toNat_lt
  simp [readInt, writeInt, Buf.ofBytes]
  omega

/-- The packet that a try writes announces the interval that stands in `connect_data`. -/
theorem announces_connect {params : ConnectParams} {size : Nat} {packet : List UInt8}
    (hok : mqttSerializeConnect size params.toConnectData = .ok packet) :
    Announces packet params.keepAliveInterval.toNat := by
  rw [mqttSerializeConnect, serializePacket] at hok
  split at hok
  · exact absurd hok (by simp)
  · simp only [Except.ok.injEq] at hok
    refine ⟨_, _, connectBody params.toConnectData, ⟨?_, hok.symm⟩, ?_⟩
    · rw [length_connectBody params.toConnectData_wellFormed]
      exact lengthValue_mqttPacketEncode _
    · have hread := readInt_writeInt params.keepAliveInterval
        ((writeCString protocolMqtt ++ [4]) ++ [connectFlags params.toConnectData])
      have hlength : ((writeCString protocolMqtt ++ [4]) ++
          [connectFlags params.toConnectData]).length = 8 := rfl
      rw [hlength] at hread
      rw [connectBody]
      simp only [ConnectParams.toConnectData, iotxMcMqttVersion, if_true, List.append_assoc]
        at hread ⊢
      exact hread _

/-- A packet announces one interval. -/
theorem Announces.unique {packet : List UInt8} {first second : Nat}
    (hfirst : Announces packet first) (hsecond : Announces packet second) : first = second := by
  obtain ⟨headerA, fieldA, bodyA, ⟨hvalueA, rfl⟩, hreadA⟩ := hfirst
  obtain ⟨headerB, fieldB, bodyB, ⟨hvalueB, hsame⟩, hreadB⟩ := hsecond
  rw [List.cons.injEq] at hsame
  obtain rfl := lengthField_unique hvalueA hvalueB hsame.2
  rw [List.append_cancel_left hsame.2, hreadB, Prod.mk.injEq] at hreadA
  exact hreadA.1.symm

/-- A try that does not fail to send has written one CONNECT with the interval that it
found, and it leaves the user's interval behind in any case. -/
theorem connectTry_spec (userKeepAliveInterval : UInt16) (c : Client) (env : ConnectTry) :
    (connectTry userKeepAliveInterval c env).2.2.1.connectData.keepAliveInterval =
        userKeepAliveInterval ∧
      if (connectTry userKeepAliveInterval c env).1 = .sendFailure then
        (connectTry userKeepAliveInterval c env).2.2.2 = []
      else
        ∃ packet, (connectTry userKeepAliveInterval c env).2.2.2 = [packet] ∧
          Announces packet c.connectData.keepAliveInterval.toNat := by
  rw [connectTry]
  have hpacket (hpassed : ¬ (mqttConnect c env.send).1 < stateSuccess) :
      Announces ((mqttConnect c env.send).2.ipstack.accepted.drop c.ipstack.accepted.length)
        c.connectData.keepAliveInterval.toNat := by
    rcases c.sendSerialized_cases
        (mqttPacketLen (mqttSerializeConnectLength c.connectData.toConnectData))
        (mqttSerializeConnect · c.connectData.toConnectData) stateMqttSerializeConnError
        c.requestTimeoutMs env.send with hsend | hsend | ⟨size, buf, hok, hsend⟩
    · rw [mqttConnect, hsend] at hpassed
      exact absurd (by decide : stateSysDependMalloc < stateSuccess) hpassed
    · rw [mqttConnect, hsend] at hpassed
      exact absurd (by decide : stateMqttSerializeConnError < stateSuccess) hpassed
    · rw [mqttConnect, hsend] at hpassed ⊢
      dsimp only at hpassed ⊢
      split at hpassed
      · next hwhole =>
          rw [hwhole, List.take_length, Client.acceptBytes, List.drop_left]
          exact announces_connect hok
      · exact absurd (by decide) hpassed
  have hwaits := livenessFrame_waitConnackLoop waitConnackMax env.reads
    ((mqttConnect c env.send).2.setKeepAliveInterval userKeepAliveInterval)
  rw [← iotxMcWaitConnack] at hwaits
  have hinterval := congrArg ConnectParams.keepAliveInterval hwaits.connectData
  dsimp only
  split
  · exact ⟨rfl, rfl⟩
  · next hpassed =>
      split
      · exact ⟨hinterval, _, rfl, hpacket hpassed⟩
      · split
        · exact ⟨hinterval, _, rfl, hpacket hpassed⟩
        · exact ⟨hinterval, _, rfl, hpacket hpassed⟩

/-! ## A call -/

/-- Behind the first try, every CONNECT announces the user's interval. -/
theorem connectTries_spec (userKeepAliveInterval : UInt16) (left : Nat)
    (tries : Nat → ConnectTry) {c : Client}
    (huser : c.connectData.keepAliveInterval = userKeepAliveInterval) :
    (∀ packet ∈ (connectTries userKeepAliveInterval left tries c).2.2,
        Announces packet userKeepAliveInterval.toNat) ∧
      (connectTries userKeepAliveInterval left tries c).2.1.connectData.keepAliveInterval =
        userKeepAliveInterval := by
  induction left generalizing tries c with
  | zero => exact ⟨by simp [connectTries], huser⟩
  | succ left ih =>
      obtain ⟨hafter, hwritten⟩ := connectTry_spec userKeepAliveInterval c (tries 0)
      rw [connectTries]
      generalize connectTry userKeepAliveInterval c (tries 0) = try0 at hafter hwritten
      obtain ⟨outcome, rc, after, written⟩ := try0
      dsimp only at hafter hwritten ⊢
      have hall : ∀ packet ∈ written, Announces packet userKeepAliveInterval.toNat := by
        split at hwritten
        · simp [hwritten]
        · obtain ⟨packet, rfl, hpacket⟩ := hwritten
          rw [huser] at hpacket
          simpa using hpacket
      cases outcome with
      | timeout =>
          obtain ⟨hlater, hend⟩ := ih (fun index => tries (index + 1)) hafter
          exact ⟨fun packet hpacket =>
            (List.mem_append.mp hpacket).elim (hall packet) (hlater packet), hend⟩
      | sendFailure => exact ⟨hall, hafter⟩
      | rejection => exact ⟨hall, hafter⟩
      | acceptance => exact ⟨hall, hafter⟩

/-- Nothing is written exactly when the first send already fails. -/
theorem connectTries_written_nil_iff (userKeepAliveInterval : UInt16) (left : Nat)
    (tries : Nat → ConnectTry) (c : Client) :
    (connectTries userKeepAliveInterval (left + 1) tries c).2.2 = [] ↔
      (connectTry userKeepAliveInterval c (tries 0)).1 = .sendFailure := by
  have hwritten := (connectTry_spec userKeepAliveInterval c (tries 0)).2
  rw [connectTries]
  generalize connectTry userKeepAliveInterval c (tries 0) = try0 at hwritten
  obtain ⟨outcome, rc, after, written⟩ := try0
  dsimp only at hwritten ⊢
  cases outcome with
  | sendFailure => simpa using hwritten
  | timeout =>
      obtain ⟨packet, rfl, _⟩ := by simpa using hwritten
      simp
  | rejection =>
      obtain ⟨packet, rfl, _⟩ := by simpa using hwritten
      simp
  | acceptance =>
      obtain ⟨packet, rfl, _⟩ := by simpa using hwritten
      simp

/-- `CONFIG_MQTT_KEEPALIVE_INTERVAL_MIN` -/
def configMqttKeepaliveIntervalMin : UInt16 := 30

/-- An interval that `iotx_mc_set_connect_params` lets pass. -/
def AllowedInterval (keepAliveInterval : UInt16) : Prop :=
  configMqttKeepaliveIntervalMin ≤ keepAliveInterval ∧
    keepAliveInterval ≤ configMqttKeepaliveIntervalMax

instance (keepAliveInterval : UInt16) : Decidable (AllowedInterval keepAliveInterval) :=
  inferInstanceAs (Decidable (_ ∧ _))

/-- Doubling an allowed interval does not overflow. -/
theorem toNat_announcedKeepAliveInterval {interval : UInt16} (hallowed : AllowedInterval interval) :
    (announcedKeepAliveInterval interval).toNat =
      min (2 * interval.toNat) configMqttKeepaliveIntervalMax.toNat := by
  have hmax : interval.toNat ≤ 1200 := UInt16.le_iff_toNat_le.mp hallowed.2
  have hdouble : (interval * 2).toNat = 2 * interval.toNat := by
    have htwo : (2 : UInt16).toNat = 2 := rfl
    rw [UInt16.toNat_mul, htwo]
    omega
  have hlimit : configMqttKeepaliveIntervalMax.toNat = 1200 := rfl
  rw [announcedKeepAliveInterval]
  split
  · next hlarge =>
      have hlt := UInt16.lt_iff_toNat_lt.mp hlarge
      rw [hlimit]
      omega
  · next hsmall =>
      have hle := mt UInt16.lt_iff_toNat_lt.mpr hsmall
      rw [hdouble, hlimit]
      omega

/-- On every exit the interval is the user's. -/
theorem mqttConnectSession_interval (c : Client) (env : ConnectEnv) :
    (mqttConnectSession c env).2.connectData.keepAliveInterval =
      c.connectData.keepAliveInterval := by
  generalize hannounced :
    c.setKeepAliveInterval (announcedKeepAliveInterval c.connectData.keepAliveInterval) = started
  have hloop : (mqttConnectLoop c.connectData.keepAliveInterval (retryTimeLimit - 1) env.tries
      started).2.connectData.keepAliveInterval = c.connectData.keepAliveInterval := by
    rw [← connectTries_eq, retryTimeLimit, Nat.add_sub_cancel, connectTries]
    have hafter := (connectTry_spec c.connectData.keepAliveInterval started (env.tries 0)).1
    generalize connectTry c.connectData.keepAliveInterval started (env.tries 0) = try0 at hafter
    obtain ⟨outcome, rc, after, written⟩ := try0
    dsimp only at hafter ⊢
    cases outcome with
    | timeout =>
        exact (connectTries_spec c.connectData.keepAliveInterval 7
          (fun index => env.tries (index + 1)) hafter).2
    | sendFailure => exact hafter
    | rejection => exact hafter
    | acceptance => exact hafter
  rw [mqttConnectSession, hannounced]
  dsimp only
  split
  · exact hloop
  · exact hloop

/-- A call announces twice the user's interval in every CONNECT, exactly when the interval
is the maximum, or no CONNECT follows the first one. -/
theorem keepAliveAnnounced_iff (c : Client) (env : ConnectEnv)
    (hallowed : AllowedInterval c.connectData.keepAliveInterval) :
    KeepAliveAnnounced c env ↔
      c.connectData.keepAliveInterval = configMqttKeepaliveIntervalMax ∨
        ¬ ConnectsAgain c env := by
  rw [KeepAliveAnnounced, ConnectsAgain, connectsWritten, retryTimeLimit, Nat.add_sub_cancel,
    connectTries, ← toNat_announcedKeepAliveInterval hallowed]
  simp only [mqttConnectSession_interval, and_true]
  have hmin : 30 ≤ c.connectData.keepAliveInterval.toNat := UInt16.le_iff_toNat_le.mp hallowed.1
  have hmax := toNat_announcedKeepAliveInterval hallowed
  generalize c.connectData.keepAliveInterval = user at hmin hmax ⊢
  obtain ⟨hafter, hwritten⟩ := connectTry_spec user
    (c.setKeepAliveInterval (announcedKeepAliveInterval user)) (env.tries 0)
  generalize connectTry user (c.setKeepAliveInterval (announcedKeepAliveInterval user))
    (env.tries 0) = try0 at hafter hwritten
  obtain ⟨outcome, rc, after, written⟩ := try0
  dsimp only at hafter hwritten ⊢
  have hfirst : ∀ packet ∈ written,
      Announces packet (announcedKeepAliveInterval user).toNat := by
    split at hwritten
    · simp [hwritten]
    · obtain ⟨packet, rfl, hpacket⟩ := hwritten
      rw [List.forall_mem_singleton]
      exact hpacket
  have hlimit : configMqttKeepaliveIntervalMax.toNat = 1200 := rfl
  have hsame : (announcedKeepAliveInterval user).toNat = user.toNat ↔
      user = configMqttKeepaliveIntervalMax := by
    rw [← UInt16.toNat_inj, hmax, hlimit]
    omega
  cases outcome with
  | timeout =>
      have hlater := (connectTries_spec user 7 (fun index => env.tries (index + 1)) hafter).1
      have hsecond := connectTries_written_nil_iff user 6 (fun index => env.tries (index + 1)) after
      simp only [true_and, not_not]
      rw [← hsecond]
      generalize (connectTries user 7 (fun index => env.tries (index + 1)) after).2.2 = later
        at hlater ⊢
      constructor
      · intro hall
        by_cases hnone : later = []
        · exact Or.inr hnone
        · obtain ⟨packet, hpacket⟩ := List.exists_mem_of_ne_nil later hnone
          have hone := (hall packet (List.mem_append_right _ hpacket)).unique
            (hlater packet hpacket)
          exact Or.inl (hsame.mp hone)
      · rintro hcase packet hpacket
        rcases List.mem_append.mp hpacket with hearly | hlate
        · exact hfirst packet hearly
        · rcases hcase with huser | hnone
          · rw [hsame.mpr huser]
            exact hlater packet hlate
          · simp [hnone] at hlate
  | sendFailure => simpa using hfirst
  | rejection => simpa using hfirst
  | acceptance => simpa using hfirst

/-- A client on a new connection, on which the broker sends the stream. -/
def clientOn (stream : List UInt8) : Client :=
  plainClient.setConnection (Network.connect (some stream)).2

/-- Tries without disturbances; the broker accepts a client that connects again. -/
def plainConnectEnv : ConnectEnv :=
  ⟨fun _ => ⟨plainSendEnv, fun _ => plainReadEnv, some plainConnack⟩, 0⟩

/-- A client with an interval of 60 seconds that is accepted at once announces 120. -/
theorem keepAliveAnnounced_accepted : KeepAliveAnnounced (clientOn plainConnack) plainConnectEnv :=
  (keepAliveAnnounced_iff (clientOn plainConnack) plainConnectEnv (by decide)).mpr
    (Or.inr (by decide))

/-- Where the first CONNACK does not come, the second CONNECT announces 60. -/
theorem keepAliveAnnounced_retried : ¬ KeepAliveAnnounced (clientOn []) plainConnectEnv := by
  rintro ⟨hall, _⟩
  have hsecond : [16, 12, 0, 4, 77, 81, 84, 84, 4, 2, 0, 60, 0, 0] ∈
      connectsWritten (clientOn []) plainConnectEnv := by
    decide
  have hannounces : Announces [16, 12, 0, 4, 77, 81, 84, 84, 4, 2, 0, 60, 0, 0] 60 :=
    ⟨16, [12], [0, 4, 77, 81, 84, 84, 4, 2, 0, 60, 0, 0], ⟨by decide, rfl⟩, by decide⟩
  exact absurd ((hall _ hsecond).unique hannounces) (by decide)

end EnosDeviceSdk.Mqtt
