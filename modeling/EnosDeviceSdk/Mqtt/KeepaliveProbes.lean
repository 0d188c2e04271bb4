/-
# The count of unanswered pings

`iotx_mc_keepalive_sub` counts the pings that it sends in `keepalive_probes`,
`iotx_mc_cycle` gives the connection up once the count passes its maximum, and starts the
count again "when any data received from MQTT broker". It tells that data has come from the
type of the packet; a packet of type 0 and a packet that `iotx_mc_read_packet` has drained
because it was too large look to it like a timeout, and one whose buffer could not be
allocated like a failure.

A session is observed here with three notes beside the client: whether a cycle is still due
before the next keepalive, how many pings were written since the last complete packet or
the last connection, and what the last step has brought.
-/

import EnosDeviceSdk.Mqtt.SessionFrame

namespace EnosDeviceSdk.Mqtt.KeepaliveProbes

open EnosDeviceSdk.Infra EnosDeviceSdk.Library

/-! ## Complete packets -/

/-- A whole packet is told by the place where its length field ends. -/
theorem wholePacket_iff (bytes : List UInt8) :
    WholePacket bytes ↔
      bytes ≠ [] ∧ ∃ count, count < 5 ∧
        lengthValue ((bytes.drop 1).take count) = some (bytes.length - 1 - count) := by
  constructor
  · rintro ⟨header, field, body, hshort, hvalue, rfl⟩
    refine ⟨by simp, field.length, by omega, ?_⟩
    rw [List.drop_succ_cons, List.drop_zero, List.take_left, hvalue]
    simp
  · rintro ⟨hnonempty, count, hcount, hvalue⟩
    obtain ⟨header, rest, rfl⟩ := List.exists_cons_of_ne_nil hnonempty
    refine ⟨header, rest.take count, rest.drop count, ?_, ?_, ?_⟩
    · rw [List.length_take]
      omega
    · rw [List.length_drop]
      exact hvalue
    · rw [List.take_append_drop]

instance : DecidablePred WholePacket := fun bytes =>
  decidable_of_iff _ (wholePacket_iff bytes).symm

/-- The bytes that were read from the connection between two states of a client. -/
def received (c after : Client) : List UInt8 :=
  after.ipstack.consumed.drop c.ipstack.consumed.length

theorem received_of_netFrame {c read after : Client} (hframe : NetFrame read after) :
    received c after = received c read := by
  rw [received, received, hframe.consumed]

theorem received_consume (c : Client) (count : Nat) :
    received c (c.consume count) = c.ipstack.incoming.take count := by
  simp [received, Client.consume, Network.consume]

/-- The ways in which a complete packet is read that nobody gets to see: it is too large
and drained to its end, it has the reserved type, or it has no body and the second
allocation of the read buffer fails. -/
inductive DropsPacket (c : Client) (env : ReadEnv) : Prop
  | oversize {header : UInt8} {field rest : List UInt8} {remLen : Nat}
      (hlength : LengthRead c env header field rest remLen) (hmalloc : env.mallocPacket = true)
      (hover : Overflows c remLen)
      (hdrained : DrainGives c.bufSizeReadMax env.bodyReads remLen) (hall : remLen ≤ rest.length)
  | reserved {header : UInt8} {field body rest : List UInt8}
      (hpacket : PacketRead c env header field body rest)
      (htype : mqttHeaderGetType header = MsgType.mqttCptReserved.code)
  | noBuffer {header : UInt8} {field rest : List UInt8}
      (hlength : LengthRead c env header field rest 0) (hmalloc : env.mallocPacket = false)

section Reading

variable {c : Client} {env : ReadEnv}

/-- A packet that is dropped is complete, and its type is reported as the reserved one. -/
theorem DropsPacket.result (hdrops : DropsPacket c env) :
    ∃ rc count buf calls, WholePacket (c.ipstack.incoming.take count) ∧
      rc ≠ stateSysDependNwkClose ∧
      iotxMcReadPacket c env =
        ⟨rc, MsgType.mqttCptReserved.code, buf, performCalls (c.consume count) calls⟩ := by
  cases hdrops with
  | @oversize header field rest remLen hlength hmalloc hover hdrained hall =>
      have hdrain := drainLoop_complete hdrained
        (hlength.incoming.symm ▸ hall :
          remLen ≤ (c.consume (1 + field.length)).ipstack.incoming.length)
      refine ⟨stateSuccess, _, [], env.overflowCalls, hlength.wholePacket hall, by decide, ?_⟩
      rw [iotxMcReadPacket_of_lengthRead hlength,
        @iotxMcReadRest_overflow (c.consume (1 + field.length)) _ _ _ _ _ hmalloc hover hdrain,
        if_pos rfl, Client.consume_consume]
      rfl
  | @reserved header field body rest hpacket htype =>
      refine ⟨stateSuccess, _, header :: (mqttPacketEncode body.length ++ body), [],
        hpacket.toLengthRead.wholePacket (by simp), by decide, ?_⟩
      rw [hpacket.result, htype]
      rfl
  | @noBuffer header field rest hlength hmalloc =>
      refine ⟨stateSysDependMalloc, 1 + field.length, [], [],
        hlength.wholePacket (Nat.zero_le _), by decide, ?_⟩
      rw [iotxMcReadPacket_of_lengthRead hlength, iotxMcReadRest, allocRecvBuffer, hmalloc]
      rfl

/-- What one reading means for the count: no packet is complete, a complete packet is
dropped, or a packet goes to its handler. -/
inductive Receipt (c : Client) (env : ReadEnv) : ReadResult → Prop
  | incomplete {rc : Int} (count : Nat)
      (hincomplete : ¬ WholePacket (c.ipstack.incoming.take count)) :
      Receipt c env ⟨rc, MsgType.mqttCptReserved.code, [], c.consume count⟩
  | dropped {rc : Int} {count : Nat} {buf : List UInt8} (calls : List ApiCall)
      (hdrops : DropsPacket c env) (hwhole : WholePacket (c.ipstack.incoming.take count))
      (hopen : rc ≠ stateSysDependNwkClose) :
      Receipt c env
        ⟨rc, MsgType.mqttCptReserved.code, buf, performCalls (c.consume count) calls⟩
  | handled {count : Nat} {type : UInt8} (buf : List UInt8)
      (hwhole : WholePacket (c.ipstack.incoming.take count))
      (htype : type ≠ MsgType.mqttCptReserved.code) :
      Receipt c env ⟨stateSuccess, type, buf, c.consume count⟩

theorem Receipt.of_drops (hdrops : DropsPacket c env) :
    Receipt c env (iotxMcReadPacket c env) := by
  obtain ⟨rc, count, buf, calls, hwhole, hopen, hresult⟩ := hdrops.result
  exact hresult ▸ .dropped calls hdrops hwhole hopen

theorem not_wholePacket_of_not_framed {bytes : List UInt8} (hopen : ¬ Framed WholePacket bytes) :
    ¬ WholePacket bytes := fun hwhole => hopen (framed_of_frame hwhole)

variable {header : UInt8} {field rest : List UInt8} {remLen : Nat}

/-- A packet that is read whole goes to its handler, unless its type is the reserved one. -/
theorem receipt_of_packetRead {body : List UInt8}
    (hpacket : PacketRead c env header field body rest) :
    Receipt c env (iotxMcReadPacket c env) := by
  by_cases htype : mqttHeaderGetType header = MsgType.mqttCptReserved.code
  · exact .of_drops (.reserved hpacket htype)
  · rw [hpacket.result]
    exact .handled _ (hpacket.toLengthRead.wholePacket (by simp)) htype

/-- A packet that fits the read buffer and is not cut. -/
theorem receipt_of_fits (hlength : LengthRead c env header field rest remLen)
    (hmalloc : env.mallocPacket = true) (hfits : ¬ Overflows c remLen)
    (hcuts : ¬ CutsPacket c env) : Receipt c env (iotxMcReadPacket c env) := by
  have hincoming := hlength.incoming
  by_cases hempty : remLen = 0
  · subst hempty
    have hpacket : PacketRead c env header field [] rest :=
      ⟨hlength, hmalloc, hfits, fun hbody => absurd hbody (Nat.lt_irrefl 0)⟩
    exact receipt_of_packetRead hpacket
  by_cases hgives : (env.bodyReads.headD .fail).Gives remLen ∧ remLen ≤ rest.length
  · have hbody : (rest.take remLen).length = remLen := by
      rw [List.length_take, Nat.min_eq_left hgives.2]
    have hpacket : PacketRead c env header field (rest.take remLen) (rest.drop remLen) := by
      constructor
      · rw [List.take_append_drop, hbody]
        exact hlength
      · exact hmalloc
      · rwa [hbody]
      · rw [hbody]
        exact fun _ => hgives.1
    exact receipt_of_packetRead hpacket
  · have hmisses : ¬ ((env.bodyReads.headD .fail).Gives remLen ∧
        remLen ≤ (c.consume (1 + field.length)).ipstack.incoming.length) := by
      rwa [hincoming]
    rcases Network.read_of_not_gives hmisses with ⟨_, hread⟩ | ⟨count, hbytes, hless, _⟩
    · have hfailed : (c.consume (1 + field.length)).ipstack.read remLen
          (env.bodyReads.headD .fail) =
            (-1, [], (c.consume (1 + field.length)).ipstack.consume 0) := by
        rw [hread, Network.consume_zero]
      rw [iotxMcReadPacket_of_lengthRead hlength,
        @iotxMcReadRest_fits (c.consume (1 + field.length)) _ _ _ _ _ _ hmalloc hfits hfailed,
        if_pos ⟨Nat.pos_of_ne_zero hempty, by decide⟩, Client.consume_zero]
      apply Receipt.incomplete (1 + field.length)
      apply not_wholePacket_of_not_framed
      exact hlength.not_framed 0 (by simpa using Nat.pos_of_ne_zero hempty)
    · rw [hincoming] at hless
      exact absurd (.bodyShort hlength hmalloc hfits hbytes hless) hcuts

/-- A packet whose length is known and that is not cut. -/
theorem receipt_of_lengthRead (hlength : LengthRead c env header field rest remLen)
    (hcuts : ¬ CutsPacket c env) : Receipt c env (iotxMcReadPacket c env) := by
  cases hmalloc : env.mallocPacket with
  | false =>
      by_cases hempty : remLen = 0
      · subst hempty
        exact .of_drops (.noBuffer hlength hmalloc)
      · exact absurd (.noBuffer hlength (Nat.pos_of_ne_zero hempty) hmalloc) hcuts
  | true =>
      by_cases hover : Overflows c remLen
      · by_cases hdrained : DrainGives c.bufSizeReadMax env.bodyReads remLen ∧
            remLen ≤ rest.length
        · exact .of_drops (.oversize hlength hmalloc hover hdrained.1 hdrained.2)
        · exact absurd (.drainShort hlength hmalloc hover hdrained) hcuts
      · exact receipt_of_fits hlength hmalloc hover hcuts

/-- Every reading is one of the three. -/
theorem iotxMcReadPacket_receipt (c : Client) (env : ReadEnv) :
    Receipt c env (iotxMcReadPacket c env) := by
  have hnothing (rc : Int) : Receipt c env ⟨rc, MsgType.mqttCptReserved.code, [], c⟩ := by
    have hincomplete : ¬ WholePacket (c.ipstack.incoming.take 0) := by
      rw [List.take_zero]
      decide
    have hreceipt := @Receipt.incomplete c env rc 0 hincomplete
    rwa [Client.consume_zero] at hreceipt
  by_cases hcuts : CutsPacket c env
  · obtain ⟨rc, count, _, _, hincomplete, hresult⟩ := hcuts.result
    exact hresult ▸ .incomplete count (not_wholePacket_of_not_framed hincomplete)
  cases hmalloc : env.mallocHeader with
  | false =>
      rw [iotxMcReadPacket, allocRecvBuffer, hmalloc]
      exact hnothing _
  | true =>
      by_cases hgives : env.headerRead.Gives 1 ∧ 1 ≤ c.ipstack.incoming.length
      · obtain ⟨header, rest, hstream⟩ :=
          List.exists_cons_of_length_pos (Nat.lt_of_succ_le hgives.2)
        have hheader : HeaderRead c env header rest := ⟨hmalloc, hgives.1, hstream⟩
        obtain ⟨decoded, count, hreading⟩ := exists_lengthReading 4 env.lengthReads rest
        have hresult := iotxMcReadPacket_of_lengthReading hheader hreading
        cases hreading with
        | @complete field later length hsplit hvalue hshort hreads =>
            subst hsplit
            exact receipt_of_lengthRead ⟨hheader, hvalue, hshort, hreads⟩ hcuts
        | @tooLong field later hsplit hmore hfour hreads =>
            subst hsplit
            exact absurd (.lengthTooLong hheader hmore hfour hreads) hcuts
        | @interrupted field later hsplit hmore hless hreads hstop =>
            rw [hresult]
            apply Receipt.incomplete (1 + field.length)
            apply not_wholePacket_of_not_framed
            rw [hstream, hsplit, Nat.add_comm 1, List.take_succ_cons, List.take_left]
            exact not_framed_of_more hmore
      · rw [iotxMcReadPacket, allocRecvBuffer, hmalloc, if_pos rfl]
        rcases Network.read_of_not_gives hgives with ⟨_, hread⟩ | ⟨count, _, hless, hread⟩
        · rw [hread]
          exact hnothing _
        · have hzero : min count c.ipstack.incoming.length = 0 := Nat.lt_one_iff.mp hless
          rw [hread, hzero, Network.consume_zero]
          exact hnothing _

end Reading

/-! ## The session and its notes -/

/-- What the last step has brought: a complete packet, a connection, or neither. -/
inductive Brought
  | nothing | packet | connection
  deriving DecidableEq

/-- A session with its notes. -/
structure Observed where
  client : Client
  cycleDue : Bool
  pings : Nat
  brought : Brought

/-- The session of a client that has just been set up. -/
def Observed.initial (params : MqttParam) : Observed := ⟨iotxMcInit params, false, 0, .nothing⟩

/-- The PINGREQ packet. -/
def pingreq : List UInt8 := [0xC0, 0]

/-- The turn of the keepalive writes a whole PINGREQ. -/
def writesPing (c : Client) (env : PingEnv) : Bool :=
  (iotxMcKeepaliveSub c env).2.ipstack.accepted = c.ipstack.accepted ++ pingreq

/-- The client is waiting to be connected again. -/
def reconnecting (c : Client) : Bool :=
  c.clientState = .disconnectedReconnecting || c.clientState = .connectBlock

/-- The turn of the keepalive connects the client again. -/
def connectsAgain (c : Client) (env : KeepaliveEnv) : Bool :=
  let (_, c) := iotxMcKeepaliveSub c env.ping
  reconnecting c && (iotxMcHandleReconnect c env.reconnect).1 = stateSuccess

/-- The first connection comes about. -/
def connectsFirst (c : Client) (attempts : Nat → Option (List UInt8)) (env : ConnectEnv) : Bool :=
  c.clientState = .initialized && (wrapperMqttConnect c attempts env).1 = stateSuccess

/-- The notes after a step that may bring a connection or write a ping. -/
def Observed.connecting (s : Observed) (client : Client) (cycleDue connects pings : Bool) :
    Observed where
  client := client
  cycleDue := cycleDue
  pings := if connects then 0 else if pings then s.pings + 1 else s.pings
  brought := if connects then .connection else .nothing

/-- The notes after a cycle. -/
def Observed.cycled (s : Observed) (client : Client) : Observed where
  client := client
  cycleDue := false
  pings := if WholePacket (received s.client client) then 0 else s.pings
  brought := if WholePacket (received s.client client) then .packet else .nothing

/-- One step. `wrapper_mqtt_yield` runs a cycle after each turn of the keepalive, so no
further turn is offered before. -/
def step (s : Observed) (action : SessionAction) : Observed :=
  match action with
  | .connect attempts env =>
      s.connecting (sessionStep s.client action) s.cycleDue (connectsFirst s.client attempts env)
        false
  | .keepalive env =>
      if s.cycleDue then s
      else
        s.connecting (sessionStep s.client action) true (connectsAgain s.client env)
          (writesPing s.client env.ping)
  | .cycle _ => s.cycled (sessionStep s.client action)
  | _ => { s with client := sessionStep s.client action, brought := .nothing }

/-! ## Yielding -/

/-- What the environment decides about one turn of the loop of `_mqtt_cycle`. -/
structure TurnEnv where
  cycle : CycleEnv
  repub : Nat → RepubEnv

/-- One turn of the loop of `_mqtt_cycle`. -/
def cycleTurn (c : Client) (env : TurnEnv) : Client :=
  let (rc, c) := iotxMcCycle c env.cycle
  if rc = stateSuccess then mqttPubInfoProc c env.repub else c

/-- What the environment decides about `wrapper_mqtt_yield`: the keepalive and the turns of
the loop, of which there is at least one. -/
structure YieldEnv where
  keepalive : KeepaliveEnv
  first : TurnEnv
  more : List TurnEnv

/-- `wrapper_mqtt_yield` -/
def wrapperMqttYield (c : Client) (timeoutMs : Int) (env : YieldEnv) : Int × Client :=
  if timeoutMs < 0 then (stateUserInputInvalid, c)
  else (stateSuccess, (env.first :: env.more).foldl cycleTurn (iotxMcKeepalive c env.keepalive))

/-- The steps of a turn. -/
def turnActions (c : Client) (env : TurnEnv) : List SessionAction :=
  .cycle env.cycle ::
    if (iotxMcCycle c env.cycle).1 = stateSuccess then [.pubInfoProc env.repub] else []

theorem runFrom_turnActions (s : Observed) (env : TurnEnv) :
    (runFrom step s (turnActions s.client env)).client = cycleTurn s.client env ∧
      (runFrom step s (turnActions s.client env)).cycleDue = false := by
  rw [turnActions, cycleTurn, runFrom_cons]
  dsimp only
  split
  · exact ⟨rfl, rfl⟩
  · exact ⟨rfl, rfl⟩

/-- Turns are steps, and after them no cycle is due. -/
theorem exists_turnsActions (s : Observed) (hdue : s.cycleDue = false) (turns : List TurnEnv) :
    ∃ actions, (runFrom step s actions).client = turns.foldl cycleTurn s.client ∧
      (runFrom step s actions).cycleDue = false := by
  induction turns generalizing s with
  | nil => exact ⟨[], rfl, hdue⟩
  | cons turn rest ih =>
      obtain ⟨hclient, hcycled⟩ := runFrom_turnActions s turn
      obtain ⟨actions, hrest, hend⟩ := ih _ hcycled
      refine ⟨turnActions s.client turn ++ actions, ?_, ?_⟩
      · rw [runFrom_append, hrest, hclient]
        rfl
      · rw [runFrom_append]
        exact hend

/-- Every call of `wrapper_mqtt_yield` is a run of steps, after which no cycle is due. -/
theorem wrapperMqttYield_run (s : Observed) (hdue : s.cycleDue = false) (timeoutMs : Int)
    (env : YieldEnv) :
    ∃ actions, (runFrom step s actions).client = (wrapperMqttYield s.client timeoutMs env).2 ∧
      (runFrom step s actions).cycleDue = false := by
  rw [wrapperMqttYield]
  split
  · exact ⟨[], rfl, hdue⟩
  · generalize hkept : step s (.keepalive env.keepalive) = kept
    have hclient : kept.client = iotxMcKeepalive s.client env.keepalive := by
      rw [← hkept, step, hdue]
      rfl
    obtain ⟨hturn, hcycled⟩ := runFrom_turnActions kept env.first
    obtain ⟨actions, hrest, hend⟩ := exists_turnsActions _ hcycled env.more
    refine ⟨.keepalive env.keepalive :: (turnActions kept.client env.first ++ actions), ?_, ?_⟩
    · rw [runFrom_cons, hkept, runFrom_append, hrest, hturn, hclient]
      rfl
    · rw [runFrom_cons, hkept, runFrom_append]
      exact hend

/-! ## What one step does to the count -/

/-- A turn of the keepalive does not ping, pings, or loses the connection over a ping. -/
inductive PingOutcome (c : Client) : Client → Prop
  | quiet {after : Client} (hprobes : after.keepaliveProbes = c.keepaliveProbes)
      (hstate : after.clientState = c.clientState)
      (haccepted : after.ipstack.accepted = c.ipstack.accepted) : PingOutcome c after
  | pinged {after : Client} (hconnected : c.clientState = .connected)
      (hprobes : after.keepaliveProbes = c.keepaliveProbes + 1)
      (hstate : after.clientState = .connected) : PingOutcome c after
  | lost {after : Client} (hconnected : c.clientState = .connected)
      (hprobes : after.keepaliveProbes = c.keepaliveProbes)
      (hstate : after.clientState = .disconnected)
      (hshort : after.ipstack.accepted ≠ c.ipstack.accepted ++ pingreq) : PingOutcome c after

theorem mqttSerializePingreq_eq {size : Nat} {buf : List UInt8}
    (hok : mqttSerializePingreq size = .ok buf) : buf = pingreq := by
  rw [mqttSerializePingreq, mqttSerializeZero] at hok
  split at hok
  · cases hok
  · rw [← Except.ok.inj hok]
    decide

theorem iotxMcKeepaliveSub_outcome (c : Client) (env : PingEnv) :
    PingOutcome c (iotxMcKeepaliveSub c env).2 := by
  rw [iotxMcKeepaliveSub]
  split
  · exact .quiet rfl rfl rfl
  · next hcheck =>
      have hconnected := connected_of_checkState hcheck
      split
      · exact .quiet rfl rfl rfl
      · generalize htimed : ({ c with nextPingTime := _ } : Client) = timed
        have hprobes : timed.keepaliveProbes = c.keepaliveProbes := htimed ▸ rfl
        have hstate : timed.clientState = c.clientState := htimed ▸ rfl
        have hstack : timed.ipstack = c.ipstack := htimed ▸ rfl
        have hfailed (rc : Int) (hrc : rc < stateSuccess) (hopen : rc ≠ stateSysDependNwkClose) :
            PingOutcome c (if rc < stateSuccess then (rc, disconnectOnNwkClose rc timed)
              else (stateSuccess,
                { timed with keepaliveProbes := timed.keepaliveProbes + 1 })).2 := by
          rw [if_pos hrc, disconnectOnNwkClose, if_neg hopen]
          exact .quiet hprobes hstate (by rw [hstack])
        rcases timed.sendSerialized_cases 0 mqttSerializePingreq stateMqttSerializePingreqError
          1000 env.send with hsend | hsend | ⟨size, buf, hok, hsend⟩ <;>
          rw [← mqttKeepalive] at hsend <;> simp only [hsend]
        · exact hfailed _ (by decide) (by decide)
        · exact hfailed _ (by decide) (by decide)
        · obtain rfl := mqttSerializePingreq_eq hok
          split
          · exact .pinged hconnected (congrArg (· + 1) hprobes) (hstate.trans hconnected)
          · next hshort =>
              have hclosed : stateSysDependNwkClose < stateSuccess := by decide
              rw [if_pos hclosed, disconnectOnNwkClose, if_pos rfl]
              refine .lost hconnected hprobes rfl ?_
              intro hwhole
              apply hshort
              have htaken := congrArg List.length hwhole
              simp only [iotxMcSetClientState, Client.acceptBytes, hstack, List.length_append,
                List.length_take] at htaken
              have hle := bytesAccepted_le (env.send.start + 1000) env.send.writes pingreq.length
              omega

/-- The tries of `_mqtt_connect` leave the count alone. -/
theorem mqttConnectLoop_probes (userKeepAliveInterval : UInt16) (left : Nat)
    (tries : Nat → ConnectTry) (c : Client) :
    (mqttConnectLoop userKeepAliveInterval left tries c).2.keepaliveProbes =
      c.keepaliveProbes := by
  induction left generalizing tries c with
  | zero => rfl
  | succ left ih =>
      have hsend : (mqttConnect c (tries 0).send).2.keepaliveProbes = c.keepaliveProbes :=
        (livenessFrame_sendSerialized c _ _ _ _ (tries 0).send).keepaliveProbes
      have hwaits := (livenessFrame_waitConnackLoop waitConnackMax (tries 0).reads
        ((mqttConnect c (tries 0).send).2.setKeepAliveInterval
          userKeepAliveInterval)).keepaliveProbes
      rw [← iotxMcWaitConnack] at hwaits
      rw [mqttConnectLoop]
      dsimp only
      split
      · exact hsend
      · split
        · exact hwaits.trans hsend
        · split
          · exact (ih _ _).trans (hwaits.trans hsend)
          · exact hwaits.trans hsend

/-- A try to connect starts the count again with success, and leaves it alone and the
client offline otherwise. -/
structure Connecting (c : Client) (result : Int × Client) : Prop where
  success : result.1 = stateSuccess → result.2.keepaliveProbes = 0
  failure : result.1 ≠ stateSuccess →
    result.2.keepaliveProbes = c.keepaliveProbes ∧ result.2.clientState ≠ .connected

theorem connecting_session {c : Client} (hfresh : Fresh c) (env : ConnectEnv) :
    Connecting c (mqttConnectSession c env) := by
  rw [mqttConnectSession]
  dsimp only
  generalize announcedKeepAliveInterval c.connectData.keepAliveInterval = doubled
  have hdoubled : Fresh (c.setKeepAliveInterval doubled) :=
    ⟨hfresh.offline, hfresh.consumed, hfresh.accepted⟩
  have hoffline := (mqttConnectLoop_spec c.connectData.keepAliveInterval (retryTimeLimit - 1)
    env.tries hdoubled).2.1
  have hprobes := mqttConnectLoop_probes c.connectData.keepAliveInterval (retryTimeLimit - 1)
    env.tries (c.setKeepAliveInterval doubled)
  split
  · next hfailed => exact ⟨fun hsuccess => absurd hsuccess hfailed, fun _ => ⟨hprobes, hoffline⟩⟩
  · exact ⟨fun _ => rfl, fun hfailed => absurd rfl hfailed⟩

theorem mqttNwkConnectLoop_probes (left : Nat) (attempts : Nat → Option (List UInt8))
    (c : Client) :
    (mqttNwkConnectLoop left attempts c).2.keepaliveProbes = c.keepaliveProbes := by
  induction left generalizing attempts c with
  | zero => rfl
  | succ left ih =>
      rw [mqttNwkConnectLoop]
      dsimp only
      split
      · exact ih _ _
      · rfl

theorem connecting_nwkConnect {c : Client} (hoffline : c.clientState ≠ .connected)
    (attempts : Nat → Option (List UInt8)) (env : ConnectEnv) :
    Connecting c (mqttConnectSession (mqttNwkConnect c attempts).2 env) := by
  have hsession := connecting_session (mqttNwkConnectLoop_fresh 2 attempts hoffline).1 env
  have hprobes := mqttNwkConnectLoop_probes 3 attempts c
  exact ⟨hsession.success, fun hfailed =>
    ⟨(hsession.failure hfailed).1.trans hprobes, (hsession.failure hfailed).2⟩⟩

theorem connecting_wrapperMqttConnect {c : Client} (hoffline : c.clientState ≠ .connected)
    (attempts : Nat → Option (List UInt8)) (env : ConnectEnv) :
    Connecting c (wrapperMqttConnect c attempts env) := by
  rw [wrapperMqttConnect]
  dsimp only
  split
  · next hfailed =>
      exact ⟨fun hsuccess => absurd hsuccess hfailed, fun _ =>
        ⟨mqttNwkConnectLoop_probes 3 attempts c,
          (mqttNwkConnectLoop_fresh 2 attempts hoffline).1.offline⟩⟩
  · exact connecting_nwkConnect hoffline attempts env

theorem connecting_handleReconnect {c : Client} (hoffline : c.clientState ≠ .connected)
    (env : ReconnectEnv) : Connecting c (iotxMcHandleReconnect c env) := by
  have hclosed : (c.setConnection Network.disconnect).clientState ≠ .connected := hoffline
  have hsession := connecting_nwkConnect hclosed env.attempts env.connect
  have hattempt : Connecting c (iotxMcAttemptReconnect c env) :=
    ⟨hsession.success, hsession.failure⟩
  rw [iotxMcHandleReconnect]
  split
  · have hwaiting : stateMqttWaitReconnTimer ≠ stateSuccess := by decide
    exact ⟨fun hsuccess => absurd hsuccess hwaiting, fun _ => ⟨rfl, hoffline⟩⟩
  · dsimp only
    split
    · next hsuccess => exact ⟨fun _ => hattempt.success hsuccess, fun hfailed => absurd rfl hfailed⟩
    · next hfailed =>
        exact ⟨fun hsuccess => absurd hsuccess hfailed, fun _ => hattempt.failure hfailed⟩

/-- What a turn of the keepalive leaves behind its ping: a count that starts again with a
new connection, and otherwise the count after the ping. -/
structure Kept (pinged after : Client) (connects : Bool) : Prop where
  connection : connects = true → after.keepaliveProbes = 0
  other : connects = false → after.keepaliveProbes = pinged.keepaliveProbes ∧
    (after.clientState = .connected → pinged.clientState = .connected)

/-- The part of the keepalive that connects the client again. -/
theorem kept_reconnect {pinged : Client} (hoffline : pinged.clientState ≠ .connected)
    (env : KeepaliveEnv) :
    Kept pinged
      (let (rc, c) := iotxMcHandleReconnect pinged env.reconnect
        if rc < stateSuccess then c
        else
          let c := performCalls c env.callbackCalls
          { c with
            reconnectParam :=
              { c.reconnectParam with reconnectTimeIntervalMs := iotxMcReconnectIntervalMinMs } })
      (decide ((iotxMcHandleReconnect pinged env.reconnect).1 = stateSuccess)) := by
  have hconnecting := connecting_handleReconnect hoffline env.reconnect
  generalize iotxMcHandleReconnect pinged env.reconnect = result at hconnecting ⊢
  have hprobes := (livenessFrame_performCalls result.2 env.callbackCalls).keepaliveProbes
  have hstate := (sendsWhole_performCalls result.2 env.callbackCalls).connected
  dsimp only
  constructor
  · intro hconnects
    have hsuccess := of_decide_eq_true hconnects
    have hpassed : ¬ result.1 < stateSuccess := by
      rw [hsuccess]
      decide
    rw [if_neg hpassed]
    exact hprobes.trans (hconnecting.success hsuccess)
  · intro hconnects
    obtain ⟨hsame, hoff⟩ := hconnecting.failure (of_decide_eq_false hconnects)
    split
    · exact ⟨hsame, fun hconnected => absurd hconnected hoff⟩
    · exact ⟨hprobes.trans hsame, fun hconnected => absurd (hstate hconnected) hoff⟩

theorem iotxMcKeepalive_kept (c : Client) (env : KeepaliveEnv) :
    Kept (iotxMcKeepaliveSub c env.ping).2 (iotxMcKeepalive c env) (connectsAgain c env) := by
  rw [iotxMcKeepalive, connectsAgain]
  generalize iotxMcKeepaliveSub c env.ping = result
  obtain ⟨rc, pinged⟩ := result
  dsimp only
  cases hstate : pinged.clientState with
  | disconnectedReconnecting =>
      have hreconnecting : reconnecting pinged = true := by simp [reconnecting, hstate]
      rw [hreconnecting, Bool.true_and]
      exact kept_reconnect (by simp [hstate]) env
  | connectBlock =>
      have hreconnecting : reconnecting pinged = true := by simp [reconnecting, hstate]
      rw [hreconnecting, Bool.true_and]
      exact kept_reconnect (by simp [hstate]) env
  | disconnected =>
      have hreconnecting : reconnecting pinged = false := by simp [reconnecting, hstate]
      rw [hreconnecting, Bool.false_and]
      constructor
      · intro hconnects
        cases hconnects
      · intro _
        exact ⟨(livenessFrame_performCalls pinged env.callbackCalls).keepaliveProbes,
          by simp⟩
  | invalid | initialized | connected =>
      have hreconnecting : reconnecting pinged = false := by simp [reconnecting, hstate]
      rw [hreconnecting, Bool.false_and]
      constructor
      · intro hconnects
        cases hconnects
      · intro _
        exact ⟨rfl, id⟩

/-- A cycle leaves the client as it is offline, gives the connection up, reads no complete
packet, drops one, or hands one over. -/
inductive CycleCount (c : Client) (env : CycleEnv) : Client → Prop
  | offline (hoffline : c.clientState ≠ .connected) : CycleCount c env c
  | givesUp {after : Client} (hmany : iotxMcKeepaliveProbeMax < c.keepaliveProbes)
      (hreceived : received c after = []) (hprobes : after.keepaliveProbes = 0)
      (hstate : after.clientState = .disconnected) : CycleCount c env after
  | incomplete {after : Client} (hconnected : c.clientState = .connected)
      (hfew : c.keepaliveProbes ≤ iotxMcKeepaliveProbeMax) (hkeeps : ¬ DropsPacket c env.read)
      (hreceived : ¬ WholePacket (received c after))
      (hprobes : after.keepaliveProbes = c.keepaliveProbes) : CycleCount c env after
  | dropped {after : Client} (hconnected : c.clientState = .connected)
      (hfew : c.keepaliveProbes ≤ iotxMcKeepaliveProbeMax) (hdrops : DropsPacket c env.read)
      (hreceived : WholePacket (received c after))
      (hprobes : after.keepaliveProbes = c.keepaliveProbes) : CycleCount c env after
  | handled {after : Client} (hconnected : c.clientState = .connected)
      (hkeeps : ¬ DropsPacket c env.read) (hreceived : WholePacket (received c after))
      (hprobes : after.keepaliveProbes = 0) : CycleCount c env after

theorem iotxMcCycle_count (c : Client) (env : CycleEnv) :
    CycleCount c env (iotxMcCycle c env).2 := by
  rw [iotxMcCycle]
  by_cases hconnected : c.clientState = .connected
  swap
  · rw [if_pos hconnected]
    exact .offline hconnected
  rw [if_neg (by simp [hconnected])]
  by_cases hfew : c.keepaliveProbes ≤ iotxMcKeepaliveProbeMax
  swap
  · have hmany := UInt8.not_le.mp hfew
    rw [if_pos hmany]
    exact .givesUp hmany (by simp [received]) rfl rfl
  rw [if_neg (UInt8.not_lt.mpr hfew)]
  have hclosing (rc : Int) (after : Client) : received c (disconnectOnNwkClose rc after) =
      received c after ∧
        (disconnectOnNwkClose rc after).keepaliveProbes = after.keepaliveProbes := by
    rw [disconnectOnNwkClose]
    split
    · exact ⟨rfl, rfl⟩
    · exact ⟨rfl, rfl⟩
  by_cases hdrops : DropsPacket c env.read
  · obtain ⟨rc, count, buf, calls, hwhole, _, hresult⟩ := hdrops.result
    have hframe := (sendsWhole_performCalls (c.consume count) calls).toNetFrame
    have hprobes : (performCalls (c.consume count) calls).keepaliveProbes =
        c.keepaliveProbes := (livenessFrame_performCalls (c.consume count) calls).keepaliveProbes
    rw [← received_consume, ← received_of_netFrame hframe] at hwhole
    rw [hresult]
    dsimp only
    split
    · obtain ⟨hreceived, hsame⟩ := hclosing rc (performCalls (c.consume count) calls)
      exact .dropped hconnected hfew hdrops (hreceived.symm ▸ hwhole) (hsame.trans hprobes)
    · rw [if_pos rfl]
      exact .dropped hconnected hfew hdrops hwhole hprobes
  have hreceipt := iotxMcReadPacket_receipt c env.read
  generalize iotxMcReadPacket c env.read = result at hreceipt
  cases hreceipt with
  | dropped calls hdropped => exact absurd hdropped hdrops
  | @incomplete rc count hincomplete =>
      rw [← received_consume] at hincomplete
      dsimp only
      split
      · obtain ⟨hreceived, hprobes⟩ := hclosing rc (c.consume count)
        exact .incomplete hconnected hfew hdrops (hreceived.symm ▸ hincomplete) hprobes
      · rw [if_pos rfl]
        exact .incomplete hconnected hfew hdrops hincomplete rfl
  | @handled count type buf hwhole htype =>
      generalize hfresh : ({ c.consume count with keepaliveProbes := 0 } : Client) = fresh
      have hreceived : received c fresh = received c (c.consume count) := hfresh ▸ rfl
      have hframe := netFrame_dispatch fresh type (Buf.ofBytes buf) env
      have hprobes := (livenessFrame_dispatch fresh type (Buf.ofBytes buf) env).keepaliveProbes
      rw [← received_consume, ← hreceived, ← received_of_netFrame hframe] at hwhole
      dsimp only
      rw [if_neg (by simp), if_neg htype, hfresh]
      refine .handled hconnected hdrops hwhole (hprobes.trans ?_)
      rw [← hfresh]

/-! ## What a session promises -/

/-- What is asked of a session at any time. The count is at most one above the maximum; so
many pings, at most, were written since the last complete packet or connection; a complete
packet has started the count again, and so has a connection. -/
structure Lively (s : Observed) : Prop where
  probes : s.client.keepaliveProbes ≤ iotxMcKeepaliveProbeMax + 1
  pings : s.pings ≤ iotxMcKeepaliveProbeMax.toNat + 1
  restarts : s.brought = .packet → s.client.keepaliveProbes = 0
  fresh : s.brought = .connection → s.client.keepaliveProbes = 0

/-- The invariant of all sessions: a connected client has counted all pings that the last
complete packet or connection left unanswered, and between a cycle and the next keepalive
the count is within its maximum. -/
structure Counted (s : Observed) : Prop where
  probes : s.client.keepaliveProbes ≤ iotxMcKeepaliveProbeMax + 1
  pings : s.pings ≤ iotxMcKeepaliveProbeMax.toNat + 1
  counted : s.client.clientState = .connected → s.pings ≤ s.client.keepaliveProbes.toNat
  within : s.client.clientState = .connected → s.cycleDue = false →
    s.client.keepaliveProbes ≤ iotxMcKeepaliveProbeMax
  fresh : s.brought = .connection → s.client.keepaliveProbes = 0

/-- No cycle with unanswered pings reads a complete packet and drops it. -/
def AnswersCounted (s : Observed) : SessionAction → Prop
  | .cycle env =>
      s.client.clientState = .connected → 0 < s.client.keepaliveProbes →
        s.client.keepaliveProbes ≤ iotxMcKeepaliveProbeMax → ¬ DropsPacket s.client env.read
  | _ => True

theorem toNat_le_of_within {probes : UInt8} (hwithin : probes ≤ iotxMcKeepaliveProbeMax) :
    probes.toNat ≤ 2 := UInt8.le_iff_toNat_le.mp hwithin

/-- Below the maximum a ping more is counted without an overflow. -/
theorem toNat_probes_succ {probes : UInt8} (hwithin : probes ≤ iotxMcKeepaliveProbeMax) :
    (probes + 1).toNat = probes.toNat + 1 := by
  have hsmall := toNat_le_of_within hwithin
  have hone : (1 : UInt8).toNat = 1 := rfl
  rw [UInt8.toNat_add, hone]
  omega

theorem probes_succ_le {probes : UInt8} (hwithin : probes ≤ iotxMcKeepaliveProbeMax) :
    probes + 1 ≤ iotxMcKeepaliveProbeMax + 1 := by
  rw [UInt8.le_iff_toNat_le, toNat_probes_succ hwithin]
  have hsmall := toNat_le_of_within hwithin
  have hthree : (iotxMcKeepaliveProbeMax + 1).toNat = 3 := rfl
  omega

theorem within_le {probes : UInt8} (hwithin : probes ≤ iotxMcKeepaliveProbeMax) :
    probes ≤ iotxMcKeepaliveProbeMax + 1 := by
  have hmax : iotxMcKeepaliveProbeMax ≤ iotxMcKeepaliveProbeMax + 1 := by decide
  exact UInt8.le_trans hwithin hmax

/-- A step that leaves the count alone and does not connect keeps the invariant. -/
theorem Counted.of_frame {s : Observed} (hs : Counted s) {after : Client}
    (hprobes : after.keepaliveProbes = s.client.keepaliveProbes)
    (hstate : after.clientState = .connected → s.client.clientState = .connected) :
    Counted { s with client := after, brought := .nothing } where
  probes := hprobes ▸ hs.probes
  pings := hs.pings
  counted := by
    intro hconnected
    rw [hprobes]
    exact hs.counted (hstate hconnected)
  within := by
    intro hconnected hdue
    rw [hprobes]
    exact hs.within (hstate hconnected) hdue
  fresh := fun hbrought => nomatch hbrought

/-- A new connection starts the count again. -/
theorem Counted.of_connection (s : Observed) {after : Client} (cycleDue pings : Bool)
    (hprobes : after.keepaliveProbes = 0) : Counted (s.connecting after cycleDue true pings) where
  probes := by
    rw [Observed.connecting, hprobes]
    decide
  pings := Nat.zero_le _
  counted := fun _ => Nat.zero_le _
  within := by
    intro _ _
    rw [Observed.connecting, hprobes]
    decide
  fresh := fun _ => hprobes

theorem counted_connect {s : Observed} (hs : Counted s) (attempts : Nat → Option (List UInt8))
    (env : ConnectEnv) : Counted (step s (.connect attempts env)) := by
  rw [step, sessionStep, connectsFirst]
  by_cases hinitialized : s.client.clientState = .initialized
  · have hoffline : s.client.clientState ≠ .connected := by simp [hinitialized]
    have hconnecting := connecting_wrapperMqttConnect hoffline attempts env
    rw [if_pos hinitialized]
    by_cases hsuccess : (wrapperMqttConnect s.client attempts env).1 = stateSuccess
    · simp only [hinitialized, hsuccess, decide_true, Bool.and_true]
      exact .of_connection s _ _ (hconnecting.success hsuccess)
    · simp only [hinitialized, hsuccess, decide_true, decide_false, Bool.and_false]
      obtain ⟨hprobes, hoff⟩ := hconnecting.failure hsuccess
      exact hs.of_frame hprobes fun hconnected => absurd hconnected hoff
  · simp only [hinitialized, decide_false, Bool.false_and, if_false]
    exact hs.of_frame rfl id

theorem counted_keepalive {s : Observed} (hs : Counted s) (env : KeepaliveEnv) :
    Counted (step s (.keepalive env)) := by
  rw [step]
  split
  · exact hs
  next hdue =>
  rw [Bool.not_eq_true] at hdue
  have hkept := iotxMcKeepalive_kept s.client env
  cases hconnects : connectsAgain s.client env with
  | true =>
      rw [hconnects] at hkept
      exact .of_connection s _ _ (hkept.connection rfl)
  | false =>
      rw [hconnects] at hkept
      obtain ⟨hprobes, hstate⟩ := hkept.other rfl
      have houtcome := iotxMcKeepaliveSub_outcome s.client env.ping
      rw [writesPing]
      generalize (iotxMcKeepaliveSub s.client env.ping).2 = pinged at houtcome hprobes hstate ⊢
      cases houtcome with
      | quiet hsame hstill haccepted =>
          have hsilent : decide (pinged.ipstack.accepted =
              s.client.ipstack.accepted ++ pingreq) = false := by
            rw [haccepted]
            simp [pingreq]
          rw [hsilent]
          refine ⟨?_, hs.pings, ?_, ?_, ?_⟩
          · exact (hprobes.trans hsame).symm ▸ hs.probes
          · intro hconnected
            have hbefore := hs.counted (hstill ▸ hstate hconnected)
            rwa [← hprobes.trans hsame] at hbefore
          · intro _ hcycled
            cases hcycled
          · intro hbrought
            cases hbrought
      | pinged hconnected hcounted hstill =>
          have hwithin := hs.within hconnected hdue
          have hsmall := toNat_le_of_within hwithin
          have hbefore := hs.counted hconnected
          have hafter : (iotxMcKeepalive s.client env).keepaliveProbes =
              s.client.keepaliveProbes + 1 := hprobes.trans hcounted
          have hpings : (s.connecting (iotxMcKeepalive s.client env) true false
              (decide (pinged.ipstack.accepted = s.client.ipstack.accepted ++ pingreq))).pings ≤
                s.pings + 1 := by
            rw [Observed.connecting]
            dsimp only
            rw [if_neg (by decide)]
            split <;> omega
          refine ⟨?_, ?_, ?_, ?_, ?_⟩
          · exact hafter.symm ▸ probes_succ_le hwithin
          · have hmax : iotxMcKeepaliveProbeMax.toNat = 2 := rfl
            exact Nat.le_trans hpings (by omega)
          · intro _
            have hcount : (iotxMcKeepalive s.client env).keepaliveProbes.toNat =
                s.client.keepaliveProbes.toNat + 1 := by
              rw [hafter, toNat_probes_succ hwithin]
            exact Nat.le_trans hpings (hcount ▸ Nat.succ_le_succ hbefore)
          · intro _ hcycled
            cases hcycled
          · intro hbrought
            cases hbrought
      | lost hconnected hsame hlost hshort =>
          rw [decide_eq_false hshort]
          refine ⟨?_, hs.pings, ?_, ?_, ?_⟩
          · exact (hprobes.trans hsame).symm ▸ hs.probes
          · intro hback
            have hstill := hstate hback
            rw [hlost] at hstill
            cases hstill
          · intro _ hcycled
            cases hcycled
          · intro hbrought
            cases hbrought

theorem counted_cycle {s : Observed} (hs : Counted s) (env : CycleEnv) :
    Counted (step s (.cycle env)) := by
  rw [step, sessionStep, Observed.cycled]
  have hcount := iotxMcCycle_count s.client env
  generalize (iotxMcCycle s.client env).2 = after at hcount
  cases hcount with
  | offline hoffline =>
      have hnothing : ¬ WholePacket (received s.client s.client) := by
        rw [received, List.drop_length]
        decide
      rw [if_neg hnothing, if_neg hnothing]
      exact ⟨hs.probes, hs.pings, hs.counted, fun hconnected => absurd hconnected hoffline,
        fun hbrought => nomatch hbrought⟩
  | givesUp hmany hreceived hprobes hstate =>
      have hnothing : ¬ WholePacket (received s.client after) := by
        rw [hreceived]
        decide
      have hoff : after.clientState ≠ .connected := by simp [hstate]
      rw [if_neg hnothing, if_neg hnothing]
      refine ⟨?_, hs.pings, fun hconnected => absurd hconnected hoff,
        fun hconnected => absurd hconnected hoff, fun hbrought => nomatch hbrought⟩
      dsimp only
      rw [hprobes]
      decide
  | incomplete hconnected hfew _ hreceived hprobes =>
      rw [if_neg hreceived, if_neg hreceived]
      refine ⟨hprobes ▸ within_le hfew, hs.pings, fun _ => ?_, fun _ _ => hprobes ▸ hfew,
        fun hbrought => nomatch hbrought⟩
      dsimp only
      rw [hprobes]
      exact hs.counted hconnected
  | dropped hconnected hfew hdrops hreceived hprobes =>
      rw [if_pos hreceived, if_pos hreceived]
      exact ⟨hprobes ▸ within_le hfew, Nat.zero_le _, fun _ => Nat.zero_le _,
        fun _ _ => hprobes ▸ hfew, fun hbrought => nomatch hbrought⟩
  | handled hconnected _ hreceived hprobes =>
      rw [if_pos hreceived, if_pos hreceived]
      refine ⟨?_, Nat.zero_le _, fun _ => Nat.zero_le _, fun _ _ => ?_,
        fun hbrought => nomatch hbrought⟩
      · dsimp only
        rw [hprobes]
        decide
      · dsimp only
        rw [hprobes]
        decide

/-- Every step keeps the invariant. -/
theorem counted_step (s : Observed) (action : SessionAction) (hs : Counted s) :
    Counted (step s action) := by
  cases action with
  | connect attempts env => exact counted_connect hs attempts env
  | keepalive env => exact counted_keepalive hs env
  | cycle env => exact counted_cycle hs env
  | call call =>
      exact hs.of_frame (livenessFrame_performCall s.client call).keepaliveProbes
        (sendsWhole_performCall s.client call).connected
  | pubInfoProc env =>
      exact hs.of_frame (livenessFrame_pubInfoProc s.client env).keepaliveProbes
        (sendsWhole_pubInfoProc s.client env).connected
  | disconnect env =>
      refine hs.of_frame ?_ fun hconnected => nomatch hconnected
      rw [sessionStep, iotxMcDisconnect]
      split
      · exact (livenessFrame_sendSerialized s.client _ _ _ _ env).keepaliveProbes
      · rfl

theorem Counted.lively {s : Observed} (hs : Counted s)
    (hrestarts : s.brought = .packet → s.client.keepaliveProbes = 0) : Lively s :=
  ⟨hs.probes, hs.pings, hrestarts, hs.fresh⟩

/-- A cycle keeps the promise exactly when it does not drop a complete packet while pings
are unanswered. -/
theorem cycle_restarts_iff (s : Observed) (env : CycleEnv) :
    ((step s (.cycle env)).brought = .packet →
        (step s (.cycle env)).client.keepaliveProbes = 0) ↔
      AnswersCounted s (.cycle env) := by
  rw [step, sessionStep, Observed.cycled, AnswersCounted]
  have hcount := iotxMcCycle_count s.client env
  generalize (iotxMcCycle s.client env).2 = after at hcount
  have hquiet (hnothing : ¬ WholePacket (received s.client after)) :
      (if WholePacket (received s.client after) then Brought.packet else .nothing) ≠ .packet := by
    rw [if_neg hnothing]
    decide
  cases hcount with
  | offline hoffline =>
      have hnothing : ¬ WholePacket (received s.client s.client) := by
        rw [received, List.drop_length]
        decide
      exact ⟨fun _ hconnected => absurd hconnected hoffline,
        fun _ hbrought => absurd hbrought (hquiet hnothing)⟩
  | givesUp hmany hreceived hprobes hstate =>
      exact ⟨fun _ _ _ hfew => absurd hmany (UInt8.not_lt.mpr hfew), fun _ _ => hprobes⟩
  | incomplete hconnected hfew hkeeps hreceived hprobes =>
      exact ⟨fun _ _ _ _ => hkeeps, fun _ hbrought => absurd hbrought (hquiet hreceived)⟩
  | dropped hconnected hfew hdrops hreceived hprobes =>
      dsimp only
      rw [hprobes]
      constructor
      · intro hzero _ hpositive _ _
        rw [hzero (if_pos hreceived)] at hpositive
        exact absurd hpositive (by decide)
      · intro hanswers _
        by_contra hcounted
        exact hanswers hconnected (UInt8.pos_iff_ne_zero.mpr hcounted) hfew hdrops
  | handled hconnected hkeeps hreceived hprobes =>
      exact ⟨fun _ _ _ _ => hkeeps, fun _ _ => hprobes⟩

/-- A step keeps the promise exactly when it is not a cycle that drops a complete packet
while pings are unanswered. -/
theorem lively_step_iff (s : Observed) (action : SessionAction) (hs : Counted s)
    (hlively : Lively s) : Lively (step s action) ↔ AnswersCounted s action := by
  have hnext := counted_step s action hs
  cases action with
  | cycle env =>
      rw [← cycle_restarts_iff]
      exact ⟨fun hafter => hafter.restarts, hnext.lively⟩
  | keepalive env =>
      refine ⟨fun _ => trivial, fun _ => hnext.lively ?_⟩
      rw [step]
      split
      · exact hlively.restarts
      · intro hbrought
        rw [Observed.connecting] at hbrought
        dsimp only at hbrought
        split at hbrought <;> cases hbrought
  | connect attempts env =>
      refine ⟨fun _ => trivial, fun _ => hnext.lively ?_⟩
      intro hbrought
      rw [step, Observed.connecting] at hbrought
      dsimp only at hbrought
      split at hbrought <;> cases hbrought
  | call call => exact ⟨fun _ => trivial, fun _ => hnext.lively fun hbrought => nomatch hbrought⟩
  | pubInfoProc env =>
      exact ⟨fun _ => trivial, fun _ => hnext.lively fun hbrought => nomatch hbrought⟩
  | disconnect env =>
      exact ⟨fun _ => trivial, fun _ => hnext.lively fun hbrought => nomatch hbrought⟩

/-- The promise holds throughout a session exactly when no cycle of it drops a complete
packet while pings are unanswered. -/
theorem lively_always_iff (params : MqttParam) (actions : List SessionAction) :
    Always step Lively (Observed.initial params) actions ↔
      StepsMeet step AnswersCounted (Observed.initial params) actions := by
  have hzero : (0 : UInt8) ≤ iotxMcKeepaliveProbeMax + 1 := by decide
  have hinitial : Counted (Observed.initial params) :=
    ⟨hzero, Nat.zero_le _, fun _ => Nat.zero_le _,
      fun hconnected => (nomatch hconnected), fun hbrought => nomatch hbrought⟩
  apply always_iff_stepsMeet counted_step lively_step_iff hinitial
  exact hinitial.lively fun hbrought => nomatch hbrought

/-- Parameters with a read buffer of 16 bytes. -/
def smallParams : MqttParam :=
  { plainParams with
    readBufSize := 16
    readBufSize_pos := by decide }

/-- A PUBLISH of 22 bytes, which does not fit the small read buffer. -/
def largePublish : List UInt8 :=
  [0x30, 20, 0, 2, 47, 97] ++ List.replicate 16 120

/-- A turn of the keepalive at the given time whose ping, if one is due, is sent. -/
def plainKeepalive (now : UInt32) : SessionAction :=
  .keepalive ⟨⟨now, now, ⟨true, now, [⟨now, .accept 1024⟩]⟩⟩,
    ⟨now, fun _ => none, ⟨fun _ => ⟨plainSendEnv, fun _ => plainReadEnv, none⟩, now⟩, now⟩,
    [], now⟩

/-- A cycle whose reads get all they ask for, also when a packet is drained in pieces. -/
def drainingCycle : SessionAction :=
  .cycle { plainCycleEnv with
    read := { plainReadEnv with bodyReads := [.bytes 16, .bytes 16] } }

/-- The large PUBLISH is drained to its end after a ping, and the ping stays counted. -/
theorem lively_not_drained :
    ¬ Always step Lively (Observed.initial smallParams)
      [plainConnect (plainConnack ++ largePublish), plainKeepalive 120001, drainingCycle] := by
  intro halways
  have hrestarts := halways.finish.restarts
  revert hrestarts
  decide

end EnosDeviceSdk.Mqtt.KeepaliveProbes
