/-
# What the steps of a session do

One lemma for each function of the session says what it can do to the client: which
part of the stream it reads, what it leaves accepted on the connection, and what
becomes of the outbox. The results about whole sessions use these lemmas and never
unfold the functions.

A step either goes on with the connection there is, or it is over with it: then the
client is offline, or it is connected anew and only whole packets went either way.
-/

import EnosDeviceSdk.Mqtt.Session

namespace EnosDeviceSdk.Mqtt

open EnosDeviceSdk.Infra EnosDeviceSdk.Library

/-! ## Reading -/

theorem SendsWhole.disconnect (c : Client) :
    SendsWhole c (iotxMcSetClientState c .disconnected) :=
  ⟨.of_eq rfl rfl (fun hconnected => nomatch hconnected), .of_eq rfl⟩

/-- A call reads some bytes and may then run callbacks. Unless it reports a closed
connection, the bytes are whole packets or the packet is cut. -/
theorem Reading.spec {c : Client} {env : ReadEnv} {result : ReadResult}
    (hreading : Reading c env result) :
    ∃ count, SendsWhole (c.consume count) result.client ∧
      (result.rc ≠ stateSysDependNwkClose →
        Framed WholePacket (c.ipstack.incoming.take count) ∨
          CutsPacket c env ∧ result.rc < stateSuccess) := by
  cases hreading with
  | idle hopen =>
      refine ⟨0, c.consume_zero.symm ▸ .refl c, fun _ => Or.inl ?_⟩
      rw [List.take_zero]
      exact framed_nil
  | closed count => exact ⟨count, .refl _, fun hopen => absurd rfl hopen⟩
  | @cut rc count hcuts hfailed hopen hincomplete =>
      exact ⟨count, .refl _, fun _ => Or.inr ⟨hcuts, hfailed⟩⟩
  | @skipped rc count calls hwhole hopen =>
      exact ⟨count, sendsWhole_performCalls _ calls, fun _ => Or.inl (framed_of_frame hwhole)⟩
  | @packet header field body rest hpacket =>
      refine ⟨_, .refl _, fun _ => Or.inl (framed_of_frame ?_)⟩
      exact hpacket.toLengthRead.wholePacket (by simp)

/-- The bytes read since are whole packets. -/
def ReadsWhole (c after : Client) : Prop :=
  ∃ bytes, Framed WholePacket bytes ∧ after.ipstack.consumed = c.ipstack.consumed ++ bytes

theorem ReadsWhole.trans {c middle after : Client} (hfirst : ReadsWhole c middle)
    (hsecond : ReadsWhole middle after) : ReadsWhole c after := by
  obtain ⟨first, hfirstFramed, hfirstBytes⟩ := hfirst
  obtain ⟨second, hsecondFramed, hsecondBytes⟩ := hsecond
  exact ⟨first ++ second, hfirstFramed.append hsecondFramed,
    by rw [hsecondBytes, hfirstBytes, List.append_assoc]⟩

/-- What a client that waits for its session may do: it stays offline and writes
nothing. -/
structure Waits (c after : Client) : Prop extends PostsOnly c after where
  offline : after.clientState ≠ .connected
  accepted : after.ipstack.accepted = c.ipstack.accepted

theorem Waits.trans {c middle after : Client} (hfirst : Waits c middle)
    (hsecond : Waits middle after) : Waits c after :=
  ⟨hfirst.toOutboxFrame.trans hsecond.toOutboxFrame, hsecond.offline,
    hsecond.accepted.trans hfirst.accepted⟩

/-- Offline, a call that does not fail reads whole packets. -/
theorem iotxMcReadPacket_offline {c : Client} (hoffline : c.clientState ≠ .connected)
    (env : ReadEnv) :
    Waits c (iotxMcReadPacket c env).client ∧
      (¬ (iotxMcReadPacket c env).rc < stateSuccess →
        ReadsWhole c (iotxMcReadPacket c env).client) := by
  obtain ⟨count, hsends, hread⟩ := (iotxMcReadPacket_reading c env).spec
  have hipstack := hsends.offline hoffline
  have hunread : PostsOnly c (c.consume count) := .of_eq rfl
  refine ⟨⟨hunread.trans hsends.toOutboxFrame,
    fun hconnected => hoffline (hsends.connected hconnected), by rw [hipstack]; rfl⟩, ?_⟩
  intro hsuccess
  have hopen : (iotxMcReadPacket c env).rc ≠ stateSysDependNwkClose := fun hclosed =>
    hsuccess (by rw [hclosed]; decide)
  exact ⟨_, (hread hopen).resolve_right fun hcut => hsuccess hcut.2, by rw [hipstack]; rfl⟩

/-! ## Connecting -/

/-- Waiting for CONNACK reads whole packets when it succeeds. -/
theorem iotxMcWaitConnackLoop_spec (left : Nat) (reads : Nat → ReadEnv) {c : Client}
    (hoffline : c.clientState ≠ .connected) :
    Waits c (iotxMcWaitConnackLoop left reads c).2 ∧
      ((iotxMcWaitConnackLoop left reads c).1 = stateSuccess →
        ReadsWhole c (iotxMcWaitConnackLoop left reads c).2) := by
  induction left generalizing reads c with
  | zero =>
      obtain ⟨hwaits, _⟩ := iotxMcReadPacket_offline hoffline (reads 0)
      rw [iotxMcWaitConnackLoop]
      split
      · next hfailed => exact ⟨hwaits, fun hsuccess => absurd hsuccess (Int.ne_of_lt hfailed)⟩
      · have hclosed : stateSysDependNwkClose ≠ stateSuccess := by decide
        exact ⟨hwaits, fun hsuccess => absurd hsuccess hclosed⟩
  | succ left ih =>
      obtain ⟨hwaits, hread⟩ := iotxMcReadPacket_offline hoffline (reads 0)
      rw [iotxMcWaitConnackLoop]
      split
      · next hfailed => exact ⟨hwaits, fun hsuccess => absurd hsuccess (Int.ne_of_lt hfailed)⟩
      · next hpassed =>
          split
          · obtain ⟨hlater, hlaterRead⟩ := ih (fun index => reads (index + 1)) hwaits.offline
            exact ⟨hwaits.trans hlater, fun hsuccess => (hread hpassed).trans (hlaterRead hsuccess)⟩
          · exact ⟨hwaits, fun _ => hread hpassed⟩

/-- A client that is offline and whose connection has carried nothing yet. -/
structure Fresh (c : Client) : Prop where
  offline : c.clientState ≠ .connected
  consumed : c.ipstack.consumed = []
  accepted : c.ipstack.accepted = []

/-- Only whole packets went over the connection. -/
structure Clean (c : Client) : Prop where
  consumed : Framed WholePacket c.ipstack.consumed
  accepted : Framed SerializedPacket c.ipstack.accepted

theorem ConnectParams.toConnectData_wellFormed (params : ConnectParams) :
    params.toConnectData.WellFormed := by
  have hpointer (string : Option CString) : (MqttString.ofPointer string).OneForm := by
    cases string <;> rfl
  exact ⟨Or.inr rfl, hpointer params.clientId, rfl, rfl, hpointer params.username,
    hpointer params.password⟩

theorem senderSpec_connect (c : Client) (env : SendEnv) : SenderSpec c (mqttConnect c env) :=
  senderSpec_sendSerialized c _ _ _ _ env fun _ _ hok =>
    serializedPacket_connect c.connectData.toConnectData_wellFormed hok

/-- A client that is offline is fresh on a new connection. -/
theorem fresh_connect {c : Client} (hoffline : c.clientState ≠ .connected)
    (stream : Option (List UInt8)) : Fresh (c.setConnection (Network.connect stream).2) := by
  cases stream <;> exact ⟨hoffline, rfl, rfl⟩

/-- On a fresh connection, a CONNECT that was sent and the packets that were read up to the
CONNACK are whole. -/
theorem clean_of_handshake {c sent asked after : Client} {rc : Int} (hfresh : Fresh c)
    (hsender : SenderSpec c (rc, sent)) (hopen : rc ≠ stateSysDependNwkClose)
    (hsame : asked.ipstack = sent.ipstack) (hwaits : Waits asked after)
    (hread : ReadsWhole asked after) : Clean after where
  consumed := by
    obtain ⟨bytes, hframed, hconsumed⟩ := hread
    have hnothing : asked.ipstack.consumed = [] := by
      rw [hsame]
      exact hsender.net.consumed.trans hfresh.consumed
    rw [hnothing, List.nil_append] at hconsumed
    exact hconsumed ▸ hframed
  accepted := by
    obtain ⟨bytes, hframed, haccepted⟩ := hsender.whole hopen
    rw [hfresh.accepted, List.nil_append] at haccepted
    rw [hwaits.accepted, hsame]
    exact haccepted ▸ hframed

/-- The tries of `_mqtt_connect` leave the client offline, and with success only whole
packets went over the last connection. -/
theorem mqttConnectLoop_spec (userKeepAliveInterval : UInt16) (left : Nat)
    (tries : Nat → ConnectTry) {c : Client} (hfresh : Fresh c) :
    PostsOnly c (mqttConnectLoop userKeepAliveInterval left tries c).2 ∧
      (mqttConnectLoop userKeepAliveInterval left tries c).2.clientState ≠ .connected ∧
      ((mqttConnectLoop userKeepAliveInterval left tries c).1 = stateSuccess →
        Clean (mqttConnectLoop userKeepAliveInterval left tries c).2) := by
  induction left generalizing tries c with
  | zero =>
      have hexceeded : stateMqttConnRetryExceedMax ≠ stateSuccess := by decide
      exact ⟨.refl c, hfresh.offline, fun hsuccess => absurd hsuccess hexceeded⟩
  | succ left ih =>
      rcases hconnect : mqttConnect c (tries 0).send with ⟨rc, sent⟩
      have hsender : SenderSpec c (rc, sent) := hconnect ▸ senderSpec_connect c (tries 0).send
      have hoffline : sent.clientState ≠ .connected := fun hconnected =>
        hfresh.offline (hsender.net.connected hconnected)
      rw [mqttConnectLoop, hconnect]
      dsimp only
      split
      · next hfailed =>
          exact ⟨hsender.outbox.trans (.of_eq rfl), hoffline,
            fun hsuccess => absurd hsuccess (Int.ne_of_lt hfailed)⟩
      · next hpassed =>
          have hopen : rc ≠ stateSysDependNwkClose := by
            rintro rfl
            exact hpassed (by decide)
          generalize hasked : sent.setKeepAliveInterval userKeepAliveInterval = asked
          have hwaiting : asked.clientState ≠ .connected := hasked ▸ hoffline
          have hkept : PostsOnly sent asked := hasked ▸ .of_eq rfl
          have hsame : asked.ipstack = sent.ipstack := hasked ▸ rfl
          obtain ⟨hwaits, hread⟩ :=
            iotxMcWaitConnackLoop_spec waitConnackMax (tries 0).reads hwaiting
          rw [← iotxMcWaitConnack] at hwaits hread
          generalize iotxMcWaitConnack asked (tries 0).reads = waited at hwaits hread ⊢
          have houtbox : PostsOnly c waited.2 :=
            (hsender.outbox.trans hkept).trans hwaits.toOutboxFrame
          split
          · next hrejected =>
              have hne : waited.1 ≠ stateSuccess := by
                intro hsuccess
                rw [hsuccess] at hrejected
                exact absurd hrejected (by decide)
              exact ⟨houtbox.trans (.of_eq rfl), hwaits.offline,
                fun hsuccess => absurd hsuccess hne⟩
          · split
            · have hnext := fresh_connect hwaits.offline (tries 0).reconnect
              have hrenewed : PostsOnly c
                  (waited.2.setConnection (Network.connect (tries 0).reconnect).2) :=
                houtbox.trans (.of_eq rfl)
              obtain ⟨hlater, hspec⟩ := ih (fun index => tries (index + 1)) hnext
              exact ⟨hrenewed.trans hlater, hspec⟩
            · next hsuccess =>
                rw [not_not] at hsuccess
                exact ⟨houtbox, hwaits.offline, fun _ =>
                  clean_of_handshake hfresh hsender hopen hsame hwaits (hread hsuccess)⟩

/-- The client's former connection is over. It is offline, or connected anew and only
whole packets went over the new connection. -/
structure Renewed (c after : Client) : Prop extends PostsOnly c after where
  clean : after.clientState = .connected → Clean after

theorem mqttConnectSession_renewed {c : Client} (hfresh : Fresh c) (env : ConnectEnv) :
    Renewed c (mqttConnectSession c env).2 := by
  rw [mqttConnectSession]
  dsimp only
  generalize announcedKeepAliveInterval c.connectData.keepAliveInterval = doubled
  have hdoubled : Fresh (c.setKeepAliveInterval doubled) :=
    ⟨hfresh.offline, hfresh.consumed, hfresh.accepted⟩
  have hkept : PostsOnly c (c.setKeepAliveInterval doubled) := .of_eq rfl
  obtain ⟨houtbox, hoffline, hclean⟩ :=
    mqttConnectLoop_spec c.connectData.keepAliveInterval (retryTimeLimit - 1) env.tries hdoubled
  split
  · exact ⟨hkept.trans houtbox, fun hconnected => absurd hconnected hoffline⟩
  · next hsuccess =>
      rw [not_not] at hsuccess
      exact ⟨(hkept.trans houtbox).trans (.of_eq rfl),
        fun _ => ⟨(hclean hsuccess).consumed, (hclean hsuccess).accepted⟩⟩

/-- A session that has come about leaves the client connected. -/
theorem mqttConnectSession_connected {c : Client} {env : ConnectEnv}
    (hsuccess : (mqttConnectSession c env).1 = stateSuccess) :
    (mqttConnectSession c env).2.clientState = .connected := by
  rw [mqttConnectSession] at hsuccess ⊢
  dsimp only at hsuccess ⊢
  split at hsuccess
  · next hfailed => exact absurd hsuccess hfailed
  · next hdone => rw [if_neg hdone]

/-- Looking for a network connection leaves a client with nothing on its connection. -/
theorem mqttNwkConnectLoop_fresh (left : Nat) (attempts : Nat → Option (List UInt8)) {c : Client}
    (hoffline : c.clientState ≠ .connected) :
    Fresh (mqttNwkConnectLoop (left + 1) attempts c).2 ∧
      (mqttNwkConnectLoop (left + 1) attempts c).2.listPubWaitAck = c.listPubWaitAck := by
  induction left generalizing attempts c with
  | zero =>
      rw [mqttNwkConnectLoop]
      dsimp only
      split
      · exact ⟨⟨hoffline, rfl, rfl⟩, rfl⟩
      · exact ⟨fresh_connect hoffline (attempts 0), rfl⟩
  | succ left ih =>
      have hclosed : (c.setConnection Network.disconnect).clientState ≠ .connected := hoffline
      rw [mqttNwkConnectLoop]
      dsimp only
      split
      · exact ih (fun index => attempts (index + 1)) hclosed
      · exact ⟨fresh_connect hoffline (attempts 0), rfl⟩

/-- A session on whatever network connection is found. -/
theorem renewed_nwkConnect {c : Client} (hoffline : c.clientState ≠ .connected)
    (attempts : Nat → Option (List UInt8)) (env : ConnectEnv) :
    Renewed c (mqttConnectSession (mqttNwkConnect c attempts).2 env).2 := by
  obtain ⟨hfound, hlist⟩ := mqttNwkConnectLoop_fresh 2 attempts hoffline
  have hrenewed := mqttConnectSession_renewed hfound env
  exact ⟨(OutboxFrame.of_eq hlist).trans hrenewed.toOutboxFrame, hrenewed.clean⟩

theorem Renewed.of_outbox {c middle after : Client} (hfirst : PostsOnly c middle)
    (hsecond : Renewed middle after) : Renewed c after :=
  ⟨hfirst.trans hsecond.toOutboxFrame, hsecond.clean⟩

/-- Calls on a new connection keep it clean. -/
theorem Renewed.sends {c middle after : Client} (hfirst : Renewed c middle)
    (hsecond : SendsWhole middle after) : Renewed c after where
  toOutboxFrame := hfirst.toOutboxFrame.trans hsecond.toOutboxFrame
  clean hconnected := by
    have hclean := hfirst.clean (hsecond.connected hconnected)
    obtain ⟨bytes, hframed, haccepted⟩ := hsecond.whole hconnected
    exact ⟨by rw [hsecond.consumed]; exact hclean.consumed,
      by rw [haccepted]; exact hclean.accepted.append hframed⟩

/-- The first connection of a client that has been set up. -/
theorem wrapperMqttConnect_renewed {c : Client} (hoffline : c.clientState ≠ .connected)
    (attempts : Nat → Option (List UInt8)) (env : ConnectEnv) :
    Renewed c (wrapperMqttConnect c attempts env).2 := by
  obtain ⟨hfound, hlist⟩ := mqttNwkConnectLoop_fresh 2 attempts hoffline
  rw [wrapperMqttConnect]
  dsimp only
  split
  · exact ⟨.of_eq hlist, fun hconnected => absurd hconnected hfound.offline⟩
  · exact renewed_nwkConnect hoffline attempts env

/-! ## Keeping alive -/

theorem senderSpec_keepalive (c : Client) (env : SendEnv) : SenderSpec c (mqttKeepalive c env) :=
  senderSpec_sendSerialized c _ _ _ _ env fun _ _ hok => serializedPacket_zero hok

theorem sendsWhole_keepaliveSub (c : Client) (env : PingEnv) :
    SendsWhole c (iotxMcKeepaliveSub c env).2 := by
  rw [iotxMcKeepaliveSub]
  split
  · exact .refl c
  · next hcheck =>
      split
      · exact .refl c
      · generalize htimed : ({ c with nextPingTime := _ } : Client) = timed
        have hkept : SendsWhole c timed := htimed ▸ ⟨.of_eq rfl rfl id, .of_eq rfl⟩
        have hconnected : timed.clientState = .connected :=
          htimed ▸ connected_of_checkState hcheck
        refine hkept.trans ?_
        rcases hsend : mqttKeepalive timed env.send with ⟨rc, sent⟩
        have hsender : SenderSpec timed (rc, sent) := hsend ▸ senderSpec_keepalive timed env.send
        have hsends := hsender.call hconnected 0
        simp only [hsend]
        split
        · next hfailed => rwa [if_pos hfailed] at hsends
        · next hsuccess =>
            rw [if_neg hsuccess] at hsends
            exact hsends.trans ⟨.of_eq rfl rfl id, .of_eq rfl⟩

/-- Reconnecting either waits for its timer or renews the connection. -/
theorem iotxMcHandleReconnect_renewed {c : Client} (hoffline : c.clientState ≠ .connected)
    (env : ReconnectEnv) : Renewed c (iotxMcHandleReconnect c env).2 := by
  have hclosed : (c.setConnection Network.disconnect).clientState ≠ .connected := hoffline
  have hkept : PostsOnly c (c.setConnection Network.disconnect) := .of_eq rfl
  have hattempt : Renewed c (iotxMcAttemptReconnect c env).2 :=
    .of_outbox hkept (renewed_nwkConnect hclosed env.attempts env.connect)
  rw [iotxMcHandleReconnect]
  split
  · exact ⟨.refl c, fun hconnected => absurd hconnected hoffline⟩
  · dsimp only
    split
    · next hsuccess =>
        have hclean := hattempt.clean (mqttConnectSession_connected hsuccess)
        exact ⟨hattempt.toOutboxFrame.trans (.of_eq rfl),
          fun _ => ⟨hclean.consumed, hclean.accepted⟩⟩
    · exact hattempt.sends ⟨.of_eq rfl rfl id, .of_eq rfl⟩

/-- A turn of the keepalive goes on with the connection or renews it. -/
theorem iotxMcKeepalive_cases (c : Client) (env : KeepaliveEnv) :
    SendsWhole c (iotxMcKeepalive c env) ∨ Renewed c (iotxMcKeepalive c env) := by
  rcases hsub : iotxMcKeepaliveSub c env.ping with ⟨rc, pinged⟩
  have hping : SendsWhole c pinged := by
    have hspec := sendsWhole_keepaliveSub c env.ping
    rwa [hsub] at hspec
  rw [iotxMcKeepalive, hsub]
  dsimp only
  have hreconnect (hoffline : pinged.clientState ≠ .connected) :
      Renewed c
        (if (iotxMcHandleReconnect pinged env.reconnect).1 < stateSuccess then
          (iotxMcHandleReconnect pinged env.reconnect).2
        else
          let c := performCalls (iotxMcHandleReconnect pinged env.reconnect).2 env.callbackCalls
          { c with
            reconnectParam :=
              { c.reconnectParam with
                reconnectTimeIntervalMs := iotxMcReconnectIntervalMinMs } }) := by
    have hrenewed := iotxMcHandleReconnect_renewed hoffline env.reconnect
    refine .of_outbox hping.toOutboxFrame ?_
    split
    · exact hrenewed
    · exact (hrenewed.sends (sendsWhole_performCalls _ env.callbackCalls)).sends
        ⟨.of_eq rfl rfl id, .of_eq rfl⟩
  cases hstate : pinged.clientState with
  | disconnectedReconnecting => exact Or.inr (hreconnect (by simp [hstate]))
  | connectBlock => exact Or.inr (hreconnect (by simp [hstate]))
  | disconnected =>
      have hcalls := sendsWhole_performCalls pinged env.callbackCalls
      exact Or.inr ⟨(hping.toOutboxFrame.trans hcalls.toOutboxFrame).trans (.of_eq rfl),
        by simp⟩
  | invalid => exact Or.inl hping
  | initialized => exact Or.inl hping
  | connected => exact Or.inl hping

/-- The end of a session leaves the list of waiting publishes alone. -/
theorem postsOnly_disconnect (c : Client) (env : SendEnv) :
    PostsOnly c (iotxMcDisconnect c env) := by
  refine .of_eq ?_
  rw [iotxMcDisconnect]
  split
  · obtain ⟨bytes, hsend⟩ := c.sendSerialized_frame 0 mqttSerializeDisconnect stateSuccess
      c.requestTimeoutMs env
    rw [mqttDisconnect, hsend]
    rfl
  · rfl

/-! ## Sending the waiting publishes again -/

/-- What is stored in the outbox of a list is whole packets. -/
theorem serializedPacket_of_mem_outboxOf {list : List PubInfo} {entry : Nat × List UInt8}
    (hentry : entry ∈ outboxOf list) : SerializedPacket entry.2 := by
  obtain ⟨node, _, rfl⟩ := List.mem_map.mp hentry
  exact node.buf_serialized

/-- A client that is offline sends nothing again. -/
theorem mqttPubInfoProcLoop_offline {c : Client} (hoffline : c.clientState ≠ .connected)
    (list : List PubInfo) (env : Nat → RepubEnv) : (mqttPubInfoProcLoop c list env).1 = c := by
  induction list generalizing env with
  | nil => rfl
  | cons node rest ih =>
      rw [mqttPubInfoProcLoop]
      split
      · exact ih fun index => env (index + 1)
      · rw [if_pos (by simp [hoffline])]
        exact ih fun index => env (index + 1)

theorem sendsWhole_pubInfoProc (c : Client) (env : Nat → RepubEnv) :
    SendsWhole c (mqttPubInfoProc c env) := by
  obtain ⟨⟨sent, bytes, hsent, hbytes⟩, hkept, hlength⟩ :=
    mqttPubInfoProcLoop_spec c c.listPubWaitAck env
  have houtbox : PostsOnly c (mqttPubInfoProc c env) :=
    ⟨Nat.le_trans hlength, [], by simp, by rw [runFrom_nil]; exact hkept⟩
  have hoffline (hclosed : c.clientState ≠ .connected) :
      (mqttPubInfoProc c env).ipstack = c.ipstack := by
    rw [mqttPubInfoProc]
    dsimp only
    rw [mqttPubInfoProcLoop_offline hclosed]
  have hframed : Framed SerializedPacket (storedBytes sent) := by
    refine ⟨sent.map Prod.snd, fun piece hpiece => ?_, rfl⟩
    obtain ⟨entry, hentry, rfl⟩ := List.mem_map.mp hpiece
    exact serializedPacket_of_mem_outboxOf (hsent.subset hentry)
  rcases hbytes with ⟨rfl, hafter⟩ | ⟨_, hafter⟩
  · refine ⟨⟨⟨?_, ?_, ?_, ?_⟩, fun _ => ⟨storedBytes sent, hframed, ?_⟩, hoffline⟩, houtbox⟩ <;>
      simp [mqttPubInfoProc, hafter, Client.acceptBytes]
  · refine ⟨⟨⟨?_, ?_, ?_, ?_⟩, fun hconnected => ?_, hoffline⟩, houtbox⟩
    · simp [mqttPubInfoProc, hafter, Client.acceptBytes, iotxMcSetClientState]
    · simp [mqttPubInfoProc, hafter, Client.acceptBytes, iotxMcSetClientState]
    · simp [mqttPubInfoProc, hafter, Client.acceptBytes, iotxMcSetClientState]
    · simp [mqttPubInfoProc, hafter, Client.acceptBytes, iotxMcSetClientState]
    · simp [mqttPubInfoProc, hafter, Client.acceptBytes, iotxMcSetClientState] at hconnected

/-! ## Handling a packet -/

theorem senderSpec_puback (c : Client) (msgId : Nat) (type : MsgType) (env : SendEnv) :
    SenderSpec c (mqttPuback c msgId type env) := by
  rw [mqttPuback]
  split
  · exact senderSpec_sendSerialized c _ _ _ _ env fun _ _ hok => serializedPacket_ack hok
  · exact senderSpec_refl c _

/-- Marking the entries of an id writes nothing. -/
theorem writesWhole_mask (c : Client) (msgId : Nat) :
    WritesWhole c (iotxMcMaskPubInfoFrom c msgId) := .of_eq rfl rfl id

/-- The handler of a QoS 1 PUBLISH runs the callbacks and then acknowledges. -/
theorem iotxMcDispatch_publish (c : Client) {buf : Buf} {msg : TopicMsg} (env : CycleEnv)
    (hmsg : iotxMcRecvPublishMsg buf = .ok msg) (hqos : msg.qos = 1) :
    iotxMcDispatch c MsgType.publish.code buf env =
      mqttPuback (performCalls c env.callbackCalls) msg.packetId .puback env.puback := by
  rw [iotxMcDispatch, if_neg (by decide), if_neg (by decide), if_neg (by decide), if_pos rfl,
    iotxMcHandleRecvPublish, hmsg]
  dsimp only
  rw [hqos, if_neg (by decide), if_pos rfl]

/-- Every handler writes whole packets, except for the PUBACK behind a QoS 1 PUBLISH. -/
theorem iotxMcDispatch_writes (c : Client) (packetType : UInt8) (buf : Buf) (env : CycleEnv) :
    WritesWhole c (iotxMcDispatch c packetType buf env).2 ∨
      ∃ msg, packetType = MsgType.publish.code ∧ iotxMcRecvPublishMsg buf = .ok msg ∧
        msg.qos = 1 := by
  have hcalls (middle : Client) : WritesWhole middle (performCalls middle env.callbackCalls) :=
    (sendsWhole_performCalls middle env.callbackCalls).toWritesWhole
  rw [iotxMcDispatch]
  split
  · exact Or.inl (.refl c)
  split
  · rw [iotxMcHandleRecvPuback]
    dsimp only
    split
    · exact Or.inl (.refl c)
    · exact Or.inl ((writesWhole_mask c _).trans (hcalls _))
  split
  · rw [iotxMcHandleRecvSuback]
    split
    · exact Or.inl (.refl c)
    · exact Or.inl (hcalls c)
  split
  · next hpublish =>
      rw [iotxMcHandleRecvPublish]
      cases hmsg : iotxMcRecvPublishMsg buf with
      | error code => exact Or.inl (.refl c)
      | ok msg =>
          dsimp only
          split
          · exact Or.inl (hcalls c)
          · split
            · next hqos => exact Or.inr ⟨msg, hpublish, rfl, hqos⟩
            · split
              · rw [mqttPuback, if_neg (by decide)]
                exact Or.inl (hcalls c)
              · exact Or.inl (hcalls c)
  split
  · rw [iotxMcHandleRecvUnsuback]
    split
    · exact Or.inl (.refl c)
    · exact Or.inl (hcalls c)
  split
  · exact Or.inl (.refl c)
  · exact Or.inl (.refl c)

/-- No handler reads, or brings the client online. -/
theorem netFrame_dispatch (c : Client) (packetType : UInt8) (buf : Buf) (env : CycleEnv) :
    NetFrame c (iotxMcDispatch c packetType buf env).2 := by
  rcases iotxMcDispatch_writes c packetType buf env with hwrites | ⟨msg, rfl, hmsg, hqos⟩
  · exact hwrites.toNetFrame
  · rw [iotxMcDispatch_publish c env hmsg hqos]
    exact (sendsWhole_performCalls c env.callbackCalls).toNetFrame.trans
      (senderSpec_puback _ _ _ _).net

theorem outboxFrame_mask (c : Client) (msgId : Nat) :
    OutboxFrame (· = msgId) c (iotxMcMaskPubInfoFrom c msgId) :=
  ⟨fun hbounded => by simpa [iotxMcMaskPubInfoFrom] using hbounded, [.ack msgId],
    fun id hack => by simpa using hack, outboxOf_mask c msgId⟩

/-- The id that the PUBACK handler acknowledges. -/
def ackedId (buf : Buf) (env : CycleEnv) : Nat :=
  (mqttDeserializeAck buf).packetid.getD env.mypacketid

theorem outboxFrame_dispatch (c : Client) (packetType : UInt8) (buf : Buf) (env : CycleEnv) :
    OutboxFrame (fun id => packetType = MsgType.puback.code ∧ id = ackedId buf env) c
      (iotxMcDispatch c packetType buf env).2 := by
  have hposts {before after : Client} (hframe : PostsOnly before after) :
      OutboxFrame (fun id => packetType = MsgType.puback.code ∧ id = ackedId buf env)
        before after := hframe.mono fun _ => False.elim
  have hcalls (middle : Client) :=
    hposts (sendsWhole_performCalls middle env.callbackCalls).toOutboxFrame
  have hpuback (middle : Client) (msgId : Nat) (type : MsgType) :=
    hposts (senderSpec_puback middle msgId type env.puback).outbox
  rw [iotxMcDispatch]
  split
  · exact .refl c
  split
  · next htype =>
      rw [iotxMcHandleRecvPuback]
      dsimp only
      split
      · exact .refl c
      · exact ((outboxFrame_mask c (ackedId buf env)).mono fun id hid => ⟨htype, hid⟩).trans
          (hcalls _)
  split
  · rw [iotxMcHandleRecvSuback]
    split
    · exact .refl c
    · exact hcalls c
  split
  · rw [iotxMcHandleRecvPublish]
    cases iotxMcRecvPublishMsg buf with
    | error code => exact .refl c
    | ok msg =>
        dsimp only
        split
        · exact hcalls c
        · split
          · exact (hcalls c).trans (hpuback _ _ _)
          · split
            · exact (hcalls c).trans (hpuback _ _ _)
            · exact hcalls c
  split
  · rw [iotxMcHandleRecvUnsuback]
    split
    · exact .refl c
    · exact hcalls c
  split
  · exact .refl c
  · exact .refl c

/-! ## The receive cycle -/

/-- The read buffer with a packet in it. -/
def packetBuffer (header : UInt8) (body : List UInt8) : Buf :=
  Buf.ofBytes (header :: (mqttPacketEncode body.length ++ body))

/-- The client whose handler a packet is given to. -/
def Client.handPacket (c : Client) (field body : List UInt8) : Client :=
  { c.consume (1 + field.length + body.length) with keepaliveProbes := 0 }

/-- The cycle reads a whole packet and hands it to its handler. -/
structure HandlesPacket (c : Client) (env : CycleEnv) (header : UInt8)
    (field body rest : List UInt8) : Prop
    extends PacketRead c env.read header field body rest where
  connected : c.clientState = .connected
  probes : c.keepaliveProbes ≤ iotxMcKeepaliveProbeMax
  type : mqttHeaderGetType header ≠ MsgType.mqttCptReserved.code

/-- What a cycle can do: it reads nothing; it reads bytes that no handler sees, whole
packets where the client stays connected, unless it cuts one; or it reads one packet
and hands it to its handler. -/
inductive CycleOutcome (c : Client) (env : CycleEnv) : Client → Prop
  | unread {after : Client} (hsends : SendsWhole c after) : CycleOutcome c env after
  | unhandled {count : Nat} {after : Client} (hconnected : c.clientState = .connected)
      (hprobes : c.keepaliveProbes ≤ iotxMcKeepaliveProbeMax)
      (hsends : SendsWhole (c.consume count) after)
      (hread : after.clientState = .connected →
        Framed WholePacket (c.ipstack.incoming.take count) ∨ CutsPacket c env.read) :
      CycleOutcome c env after
  | handled {header : UInt8} {field body rest : List UInt8}
      (hpacket : HandlesPacket c env header field body rest) :
      CycleOutcome c env
        (iotxMcDispatch (c.handPacket field body) (mqttHeaderGetType header)
          (packetBuffer header body) env).2

theorem iotxMcCycle_outcome (c : Client) (env : CycleEnv) :
    CycleOutcome c env (iotxMcCycle c env).2 := by
  rw [iotxMcCycle]
  by_cases hconnected : c.clientState = .connected
  swap
  · rw [if_pos hconnected]
    exact .unread (.refl c)
  rw [if_neg (by simp [hconnected])]
  by_cases hprobes : c.keepaliveProbes ≤ iotxMcKeepaliveProbeMax
  swap
  · rw [if_pos (UInt8.not_le.mp hprobes)]
    exact .unread ⟨.of_eq rfl rfl (by simp), .of_eq rfl⟩
  rw [if_neg (UInt8.not_lt.mpr hprobes)]
  have hreading := iotxMcReadPacket_reading c env.read
  generalize iotxMcReadPacket c env.read = result at hreading ⊢
  obtain ⟨count, hsends, hread⟩ := hreading.spec
  dsimp only
  split
  · rw [disconnectOnNwkClose]
    split
    · exact .unhandled hconnected hprobes (hsends.trans (.disconnect _))
        fun hstill => by cases hstill
    · next hopen =>
        exact .unhandled hconnected hprobes hsends fun _ => (hread hopen).imp_right And.left
  · next hsuccess =>
      rw [not_not] at hsuccess
      have hopen : result.rc ≠ stateSysDependNwkClose := by
        rw [hsuccess]
        decide
      split
      · exact .unhandled hconnected hprobes hsends fun _ => (hread hopen).imp_right And.left
      · next htype =>
          cases hreading with
          | packet hpacket => exact .handled ⟨hpacket, hconnected, hprobes, htype⟩
          | idle => exact absurd rfl htype
          | closed => exact absurd rfl htype
          | cut => exact absurd rfl htype
          | skipped => exact absurd rfl htype

/-- A cycle that hands over a packet does what its handler does. -/
theorem HandlesPacket.cycle_eq {c : Client} {env : CycleEnv} {header : UInt8}
    {field body rest : List UInt8} (hpacket : HandlesPacket c env header field body rest) :
    iotxMcCycle c env =
      iotxMcDispatch (c.handPacket field body) (mqttHeaderGetType header)
        (packetBuffer header body) env := by
  rw [iotxMcCycle, if_neg (by simp [hpacket.connected]), if_neg (UInt8.not_lt.mpr hpacket.probes),
    hpacket.result]
  dsimp only
  rw [if_neg (by simp), if_neg hpacket.type]
  rfl

/-- A packet that is cut leaves the client connected, in the middle of the packet. -/
theorem iotxMcCycle_of_cutsPacket {c : Client} {env : CycleEnv}
    (hconnected : c.clientState = .connected)
    (hprobes : c.keepaliveProbes ≤ iotxMcKeepaliveProbeMax)
    (hcuts : CutsPacket c env.read) :
    ∃ count, (iotxMcCycle c env).2 = c.consume count ∧
      ¬ Framed WholePacket (c.ipstack.incoming.take count) := by
  obtain ⟨rc, count, hfailed, hopen, hincomplete, hresult⟩ := hcuts.result
  refine ⟨count, ?_, hincomplete⟩
  rw [iotxMcCycle, if_neg (by simp [hconnected]), if_neg (UInt8.not_lt.mpr hprobes), hresult]
  dsimp only
  rw [if_pos (Int.ne_of_lt hfailed), disconnectOnNwkClose, if_neg hopen]

end EnosDeviceSdk.Mqtt
