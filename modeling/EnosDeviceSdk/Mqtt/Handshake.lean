/-
# Nothing is written to a connection before its handshake

A connection begins with the CONNECT of the driver, and the requests of the callers have
to wait for the CONNACK. `wrapper_mqtt_publish`, `wrapper_mqtt_subscribe` and
`wrapper_mqtt_unsubscribe` look at the state of the client for that. Between the look and
the write the driver may lose the connection and open the next one, and then the request
comes before the CONNECT.

The driver alone keeps the order, and a caller keeps it as long as it writes to the
connection that its look saw, or a second look would find the client connected.
-/

import EnosDeviceSdk.Mqtt.Threads

namespace EnosDeviceSdk.Mqtt.Threads

open EnosDeviceSdk.Library

/-- The present connection was written to in order: a CONNECT comes first, and a request
only after the CONNACK was accepted. -/
def InOrder (w : World) : Prop :=
  (∀ chunk, w.shared.wire.head? = some chunk → chunk.kind = .connect) ∧
    ∀ chunk ∈ w.shared.wire, IsRequest chunk.kind → chunk.accepted = true

instance (w : World) : Decidable (InOrder w) :=
  inferInstanceAs (Decidable ((∀ chunk, w.shared.wire.head? = some chunk → _) ∧ _))

/-- A caller that is about to write to an open connection has it from its state check, or
the client is connected. -/
def Fresh (s : Shared) : CallerPc → Prop
  | .sending _ checkedOn _ _ =>
      s.isOpen = true → checkedOn = s.epoch ∨ s.clientState = .connected
  | _ => True

instance (s : Shared) : DecidablePred (Fresh s)
  | .sending _ _ _ _ => inferInstanceAs (Decidable (_ → _ ∨ _))
  | .idle | .lockListPub _ | .lockWriteBuf _ _ | .unlock _ _ | .failed _ => .isTrue trivial

/-- A write of a caller is fresh. -/
def WritesFresh (w : World) : Action → Prop
  | .caller index (.accept _) => Fresh w.shared (w.callers index)
  | _ => True

instance (w : World) : DecidablePred (WritesFresh w)
  | .caller index (.accept _) => inferInstanceAs (Decidable (Fresh w.shared (w.callers index)))
  | .driver _ | .caller _ .ok | .caller _ .fail | .caller _ .refuse | .caller _ (.send _)
  | .caller _ (.call _) => .isTrue trivial

/-! ## What holds of the shared state -/

/-- The client is connected only after a handshake, and a handshake starts with CONNECT. -/
structure Sound (s : Shared) : Prop where
  head : ∀ chunk, s.wire.head? = some chunk → chunk.kind = .connect
  requests : ∀ chunk ∈ s.wire, IsRequest chunk.kind → chunk.accepted = true
  accepted : s.accepted = true → s.isOpen = true ∧ s.wire ≠ []
  connected : s.clientState = .connected → s.accepted = true

namespace Sound

variable {s : Shared}

theorem connect (hstate : s.clientState ≠ .connected) :
    Sound s.connect where
  head := by simp [Shared.connect]
  requests := by simp [Shared.connect]
  accepted := by simp [Shared.connect]
  connected := fun hconnected => absurd hconnected hstate

theorem disconnect (hstate : s.clientState ≠ .connected) : Sound s.disconnect where
  head := by simp [Shared.disconnect]
  requests := by simp [Shared.disconnect]
  accepted := by simp [Shared.disconnect]
  connected := fun hconnected => absurd hconnected hstate

theorem accept (hsound : Sound s) (hopen : s.isOpen = true) (hwire : s.wire ≠ []) :
    Sound { s with accepted := true } where
  head := hsound.head
  requests := hsound.requests
  accepted := fun _ => ⟨hopen, hwire⟩
  connected := fun _ => rfl

theorem setClientState (hsound : Sound s) {newState : ClientState}
    (hstate : newState = .connected → s.accepted = true) :
    Sound (s.setClientState newState) where
  head := hsound.head
  requests := hsound.requests
  accepted := hsound.accepted
  connected := hstate

/-- A chunk may follow where it is part of a CONNECT or the handshake is over. -/
theorem write (hsound : Sound s) (kind : MsgType) (count : Nat)
    (hkind : kind = .connect ∨ s.accepted = true) : Sound (s.write kind count) := by
  rw [Shared.write]
  split
  · exact hsound
  · constructor
    · intro chunk hhead
      cases hwire : s.wire with
      | nil =>
          rw [hwire] at hhead
          obtain rfl : (⟨kind, s.accepted⟩ : Chunk) = chunk := by simpa using hhead
          exact hkind.resolve_right fun haccepted => (hsound.accepted haccepted).2 hwire
      | cons first rest =>
          apply hsound.head
          rw [hwire] at hhead ⊢
          exact hhead
    · intro chunk hchunk hrequest
      rcases List.mem_append.mp hchunk with hold | hnew
      · exact hsound.requests chunk hold hrequest
      · obtain rfl := List.mem_singleton.mp hnew
        rcases hkind with hconnect | haccepted
        · have hkinds : IsRequest .connect := hconnect ▸ hrequest
          exact absurd hkinds (by decide)
        · exact haccepted
    · intro haccepted
      exact ⟨(hsound.accepted haccepted).1, by simp⟩
    · exact hsound.connected

/-- Mutexes and callbacks play no part, and a client may always lose its connection. -/
theorem of_same (hsound : Sound s) {t : Shared}
    (hstate : t.clientState = .connected → s.clientState = .connected)
    (hopen : t.isOpen = s.isOpen) (haccepted : t.accepted = s.accepted)
    (hwire : t.wire = s.wire) : Sound t where
  head := by rw [hwire]; exact hsound.head
  requests := by rw [hwire]; exact hsound.requests
  accepted := by rw [haccepted, hopen, hwire]; exact hsound.accepted
  connected := by rw [haccepted]; exact fun hconnected => hsound.connected (hstate hconnected)

end Sound

/-! ## The driver -/

/-- What the driver knows of the shared state where it stands. While it has no connection
to offer, the client is not connected; where it writes a packet other than CONNECT, the
handshake is over. -/
def DriverKnows (s : Shared) : DriverPc → Prop
  | .nwkConnect _ _ | .nwkDisconnect _ _ | .lockWriteBuf (.connect _ _) | .connectDisconnect
  | .retryDisconnect _ _ | .retryConnect _ _ | .attemptReconnect | .disconnectCallback
  | .closeLost => s.clientState ≠ .connected
  | .sending (.connect _ _) length sent =>
      s.clientState ≠ .connected ∧ 0 < length ∧ (0 < sent → s.wire ≠ [])
  | .unlockWriteBuf (.connect _ _) sent =>
      s.clientState ≠ .connected ∧ (sent = true → s.wire ≠ [])
  | .waitConnack _ _ => s.clientState ≠ .connected ∧ s.wire ≠ []
  | .lockWriteBuf _ | .sending _ _ _ | .unlockWriteBuf _ _ | .setConnected _
  | .setReconnected | .cycleRead => s.accepted = true
  | _ => True

/-- A write that takes something leaves something. -/
theorem wire_write_ne_nil {s : Shared} {kind : MsgType} {count : Nat}
    (hsome : s.wire ≠ [] ∨ 0 < count) : (s.write kind count).wire ≠ [] := by
  rw [Shared.write]
  split
  · next hzero => exact hsome.resolve_right (by omega)
  · simp

/-- The connecting steps. -/
theorem connectStep_sound {s : Shared} (hsound : Sound s) (choice : Choice) {pc : DriverPc}
    (hknows : DriverKnows s pc) :
    Sound (connectStep s choice pc).1 ∧
      DriverKnows (connectStep s choice pc).1 (connectStep s choice pc).2 := by
  cases pc with
  | nwkConnect first left =>
      rw [connectStep]
      split
      · exact ⟨Sound.connect hknows, hknows⟩
      · exact ⟨hsound, hknows⟩
  | nwkDisconnect first left =>
      cases left with
      | zero =>
          cases first with
          | true => exact ⟨Sound.disconnect hknows, trivial⟩
          | false => exact ⟨Sound.disconnect hknows, hknows⟩
      | succ left => exact ⟨Sound.disconnect hknows, hknows⟩
  | waitConnack first left =>
      obtain ⟨hstate, hwire⟩ := hknows
      rw [connectStep]
      split
      · next hok => exact ⟨hsound.accept hok.2 hwire, rfl⟩
      · split
        · exact ⟨hsound, hstate⟩
        · exact ⟨hsound, hstate⟩
  | connectDisconnect => exact ⟨Sound.disconnect hknows, trivial⟩
  | retryDisconnect first left => exact ⟨Sound.disconnect hknows, hknows⟩
  | retryConnect first left =>
      have hstate : s.clientState ≠ .connected := hknows
      have hnext : Sound (if choice = .ok then s.connect else s) ∧
          (if choice = .ok then s.connect else s).clientState ≠ .connected := by
        split
        · exact ⟨Sound.connect hstate, hstate⟩
        · exact ⟨hsound, hstate⟩
      cases left with
      | zero => exact ⟨hnext.1, trivial⟩
      | succ left => exact hnext
  | setConnected first =>
      have hnext : Sound (s.setClientState .connected) := hsound.setClientState fun _ => hknows
      cases first with
      | true => exact ⟨hnext, trivial⟩
      | false => exact ⟨hnext, hknows⟩
  | setReconnected => exact ⟨hsound.setClientState (fun _ => hknows), trivial⟩
  | reconnectCallback => exact ⟨hsound.of_same id rfl rfl rfl, trivial⟩
  | _ => exact ⟨hsound, hknows⟩

/-- A write of the driver, the last one of its packet or not. -/
theorem sending_sound {s : Shared} (hsound : Sound s) {job : Job} {length sent : Nat}
    (hknows : DriverKnows s (.sending job length sent)) (taken : Nat) :
    Sound (s.write job.kind taken) ∧
      DriverKnows (s.write job.kind taken) (.sending job length (sent + taken)) ∧
      (sent + taken = length →
        DriverKnows (s.write job.kind taken) (.unlockWriteBuf job true)) := by
  cases job with
  | connect first left =>
      obtain ⟨hstate, hlength, hsent⟩ := hknows
      have hstate' : (s.write .connect taken).clientState ≠ .connected := by
        rwa [Shared.clientState_write]
      have hwire : 0 < sent + taken → (s.write .connect taken).wire ≠ [] := by
        intro hsome
        apply wire_write_ne_nil
        rcases Nat.eq_zero_or_pos taken with hzero | hpositive
        · exact Or.inl (hsent (by omega))
        · exact Or.inr hpositive
      refine ⟨hsound.write _ taken (Or.inl rfl), ⟨hstate', hlength, hwire⟩, ?_⟩
      intro hall
      exact ⟨hstate', fun _ => hwire (by omega)⟩
  | _ =>
      have haccepted : s.accepted = true := hknows
      have hknows' (kind : MsgType) : (s.write kind taken).accepted = true := by
        rwa [Shared.accepted_write]
      exact ⟨hsound.write _ taken (Or.inr haccepted), hknows' _, fun _ => hknows' _⟩

/-- Sending a packet under `lock_write_buf`. -/
theorem sendStep_sound {s : Shared} (hsound : Sound s) (choice : Choice) {pc : DriverPc}
    (hknows : DriverKnows s pc) :
    Sound (sendStep s choice pc).1 ∧
      DriverKnows (sendStep s choice pc).1 (sendStep s choice pc).2 := by
  cases pc with
  | lockWriteBuf job =>
      unfold sendStep
      dsimp only
      split
      · exact ⟨hsound, hknows⟩
      · split
        · refine ⟨hsound.of_same id rfl rfl rfl, ?_⟩
          cases job with
          | connect first left =>
              exact ⟨hknows, Nat.succ_pos _, fun hsent => absurd hsent (Nat.lt_irrefl 0)⟩
          | _ => exact hknows
        · refine ⟨hsound, ?_⟩
          cases job with
          | connect first left => exact hknows
          | _ => trivial
  | sending job length sent =>
      have hfailed : Sound s ∧ DriverKnows s (.unlockWriteBuf job false) := by
        refine ⟨hsound, ?_⟩
        cases job with
        | connect first left => exact ⟨hknows.1, fun hsent => absurd hsent (by decide)⟩
        | _ => exact hknows
      unfold sendStep
      dsimp only
      split
      · next count =>
          split
          · obtain ⟨hwrite, hmore, hlast⟩ :=
              sending_sound hsound hknows (min count (length - sent))
            split
            · next hall => exact ⟨hwrite, hlast hall⟩
            · exact ⟨hwrite, hmore⟩
          · exact hfailed
      · exact hfailed
  | unlockWriteBuf job sent =>
      refine ⟨hsound.of_same id rfl rfl rfl, ?_⟩
      cases job with
      | connect first left =>
          cases sent with
          | true => exact ⟨hknows.1, hknows.2 rfl⟩
          | false => exact hknows.1
      | _ => cases sent <;> trivial
  | _ => exact ⟨hsound, hknows⟩

/-- The steps of `iotx_mc_keepalive`. -/
theorem keepaliveStep_sound {s : Shared} (hsound : Sound s) (choice : Choice) {pc : DriverPc}
    (hknows : DriverKnows s pc) :
    Sound (keepaliveStep s choice pc).1 ∧
      DriverKnows (keepaliveStep s choice pc).1 (keepaliveStep s choice pc).2 := by
  cases pc with
  | keepaliveSub =>
      rw [keepaliveStep]
      split
      · next hok => exact ⟨hsound, hsound.connected hok.1⟩
      · exact ⟨hsound, trivial⟩
  | pingFailed => exact ⟨hsound.setClientState (fun himpossible => nomatch himpossible), trivial⟩
  | keepalive =>
      rw [keepaliveStep]
      split
      · next hstate =>
          split
          · exact ⟨hsound, by rw [DriverKnows, hstate]; decide⟩
          · exact ⟨hsound, trivial⟩
      · next hstate =>
          split
          · exact ⟨hsound, by rw [DriverKnows, hstate]; decide⟩
          · exact ⟨hsound, trivial⟩
      · next hstate => exact ⟨hsound, by rw [DriverKnows, hstate]; decide⟩
      · exact ⟨hsound, trivial⟩
  | attemptReconnect => exact ⟨Sound.disconnect hknows, hknows⟩
  | disconnectCallback => exact ⟨hsound.of_same id rfl rfl rfl, hknows⟩
  | closeLost => exact ⟨Sound.disconnect hknows, trivial⟩
  | setReconnecting =>
      exact ⟨hsound.setClientState (fun himpossible => nomatch himpossible), trivial⟩
  | _ => exact ⟨hsound, hknows⟩

/-- The steps of `_mqtt_cycle`. -/
theorem cycleStep_sound {s : Shared} (hsound : Sound s) (choice : Choice) {pc : DriverPc}
    (hknows : DriverKnows s pc) :
    Sound (cycleStep s choice pc).1 ∧
      DriverKnows (cycleStep s choice pc).1 (cycleStep s choice pc).2 := by
  cases pc with
  | cycle =>
      rw [cycleStep]
      split
      · exact ⟨hsound, trivial⟩
      · split
        · next hstate => exact ⟨hsound, hsound.connected hstate⟩
        · exact ⟨hsound, trivial⟩
  | cycleRead =>
      unfold cycleStep
      dsimp only
      split
      · exact ⟨hsound, trivial⟩
      · exact ⟨hsound, trivial⟩
      · exact ⟨hsound, hknows⟩
      · exact ⟨hsound, trivial⟩
  | cycleFailed =>
      exact ⟨hsound.setClientState (fun himpossible => nomatch himpossible), trivial⟩
  | pubInfoLock =>
      rw [cycleStep]
      split
      · exact ⟨hsound, trivial⟩
      · exact ⟨hsound.of_same id rfl rfl rfl, trivial⟩
  | pubInfoProc =>
      unfold cycleStep
      dsimp only
      split
      · split
        · next hstate => exact ⟨hsound, hsound.connected hstate⟩
        · exact ⟨hsound, trivial⟩
      · exact ⟨hsound, trivial⟩
  | republishFailed =>
      exact ⟨hsound.setClientState (fun himpossible => nomatch himpossible), trivial⟩
  | pubInfoUnlock => exact ⟨hsound.of_same id rfl rfl rfl, trivial⟩
  | _ => exact ⟨hsound, hknows⟩

/-- Whatever the driver does keeps the order and what the driver knows. -/
theorem driverStep_sound {s : Shared} (hsound : Sound s) (choice : Choice) {pc : DriverPc}
    (hknows : DriverKnows s pc) :
    Sound (driverStep s choice pc).1 ∧
      DriverKnows (driverStep s choice pc).1 (driverStep s choice pc).2 := by
  cases pc with
  | nwkConnect _ _ | nwkDisconnect _ _ | waitConnack _ _ | connectDisconnect
  | retryDisconnect _ _ | retryConnect _ _ | setConnected _ | setReconnected
  | reconnectCallback => exact connectStep_sound hsound choice hknows
  | lockWriteBuf _ | sending _ _ _ | unlockWriteBuf _ _ =>
      exact sendStep_sound hsound choice hknows
  | keepaliveSub | pingFailed | keepalive | attemptReconnect | disconnectCallback
  | closeLost | setReconnecting => exact keepaliveStep_sound hsound choice hknows
  | cycle | cycleRead | cycleFailed | pubInfoLock | pubInfoProc | republishFailed
  | pubInfoUnlock => exact cycleStep_sound hsound choice hknows

/-! ## The callers -/

/-- What a call knows of the connection that its state check saw: while it is open, its
handshake is over. -/
def CallerKnows (s : Shared) : CallerPc → Prop
  | .lockListPub checkedOn | .lockWriteBuf _ checkedOn | .sending _ checkedOn _ _ =>
      checkedOn ≤ s.epoch ∧ (checkedOn = s.epoch → s.isOpen = true → s.accepted = true)
  | _ => True

/-- How the connection may change under a call: it is replaced by a later one, it is
closed, or it stays and keeps its handshake. -/
def Succeeds (s t : Shared) : Prop :=
  s.epoch < t.epoch ∨
    t.epoch = s.epoch ∧
      (t.isOpen = true → s.isOpen = true ∧ (s.accepted = true → t.accepted = true))

theorem Succeeds.of_same {s t : Shared} (hepoch : t.epoch = s.epoch)
    (hopen : t.isOpen = s.isOpen) (haccepted : t.accepted = s.accepted) : Succeeds s t :=
  Or.inr ⟨hepoch, by rw [hopen, haccepted]; exact fun hisOpen => ⟨hisOpen, id⟩⟩

theorem succeeds_write (s : Shared) (kind : MsgType) (count : Nat) :
    Succeeds s (s.write kind count) := by
  rw [Shared.write]
  split
  · exact Succeeds.of_same rfl rfl rfl
  · exact Succeeds.of_same rfl rfl rfl

theorem driverStep_succeeds (s : Shared) (choice : Choice) (pc : DriverPc) :
    Succeeds s (driverStep s choice pc).1 := by
  cases pc
  all_goals
    simp only [driverStep, connectStep, sendStep, keepaliveStep, cycleStep]
    repeat' split
  all_goals first
    | exact succeeds_write _ _ _
    | exact Succeeds.of_same rfl rfl rfl
    | simp [Succeeds, Shared.connect, Shared.disconnect]

/-- What a call knows outlives the steps of the others. -/
theorem CallerKnows.succeeds {s t : Shared} (hsucceeds : Succeeds s t) (pc : CallerPc)
    (hknows : CallerKnows s pc) : CallerKnows t pc := by
  have hlater (checkedOn : Nat)
      (hchecked : checkedOn ≤ s.epoch ∧
        (checkedOn = s.epoch → s.isOpen = true → s.accepted = true)) :
      checkedOn ≤ t.epoch ∧ (checkedOn = t.epoch → t.isOpen = true → t.accepted = true) := by
    rcases hsucceeds with hnewer | ⟨hsame, hkept⟩
    · exact ⟨by omega, by omega⟩
    · rw [hsame]
      refine ⟨hchecked.1, fun hcurrent hopen => ?_⟩
      obtain ⟨hwasOpen, haccepted⟩ := hkept hopen
      exact haccepted (hchecked.2 hcurrent hwasOpen)
  cases pc with
  | lockListPub checkedOn => exact hlater checkedOn hknows
  | lockWriteBuf kind checkedOn => exact hlater checkedOn hknows
  | sending kind checkedOn length sent => exact hlater checkedOn hknows
  | _ => trivial

/-- A caller keeps the order where it writes to the connection that it saw, or to one
whose handshake is over. -/
theorem callerStep_sound {s : Shared} (hsound : Sound s) (self : Party) (choice : Choice)
    {pc : CallerPc} (hknows : CallerKnows s pc)
    (hfresh : ∀ count, choice = .accept count → Fresh s pc) :
    Sound (callerStep s self choice pc).1 ∧ Succeeds s (callerStep s self choice pc).1 ∧
      CallerKnows (callerStep s self choice pc).1 (callerStep s self choice pc).2 := by
  have hstays : Succeeds s s := Succeeds.of_same rfl rfl rfl
  cases pc with
  | idle =>
      unfold callerStep
      dsimp only
      split
      · split
        · exact ⟨hsound, hstays, trivial⟩
        · next hchecked =>
            have hconnected : s.clientState = .connected := by
              by_contra hoffline
              exact hchecked (Or.inr hoffline)
            have haccepted := hsound.connected hconnected
            split
            · exact ⟨hsound, hstays, Nat.le_refl _, fun _ _ => haccepted⟩
            · exact ⟨hsound, hstays, Nat.le_refl _, fun _ _ => haccepted⟩
      · exact ⟨hsound, hstays, trivial⟩
  | lockListPub checkedOn =>
      unfold callerStep
      dsimp only
      split
      · exact ⟨hsound, hstays, trivial⟩
      · split
        · exact ⟨hsound, hstays, hknows⟩
        · exact ⟨hsound.of_same id rfl rfl rfl, Succeeds.of_same rfl rfl rfl, hknows⟩
  | lockWriteBuf kind checkedOn =>
      unfold callerStep
      dsimp only
      split
      · exact ⟨hsound, hstays, hknows⟩
      · split
        · exact ⟨hsound.of_same id rfl rfl rfl, Succeeds.of_same rfl rfl rfl, hknows⟩
        · exact ⟨hsound.of_same id rfl rfl rfl, Succeeds.of_same rfl rfl rfl, trivial⟩
  | sending kind checkedOn length sent =>
      unfold callerStep
      dsimp only
      split
      · next count =>
          split
          · next hopen =>
              have haccepted : s.accepted = true := by
                rcases hfresh count rfl hopen with hcurrent | hconnected
                · exact hknows.2 hcurrent hopen
                · exact hsound.connected hconnected
              have hwrite := hsound.write kind (min count (length - sent)) (Or.inr haccepted)
              have hsucceeds := succeeds_write s kind (min count (length - sent))
              split
              · exact ⟨hwrite, hsucceeds, trivial⟩
              · exact ⟨hwrite, hsucceeds, CallerKnows.succeeds hsucceeds
                  (.sending kind checkedOn length sent) hknows⟩
          · exact ⟨hsound, hstays, trivial⟩
      · exact ⟨hsound, hstays, trivial⟩
  | unlock kind failedOn =>
      refine ⟨hsound.of_same id rfl rfl rfl, Succeeds.of_same rfl rfl rfl, ?_⟩
      cases failedOn <;> trivial
  | failed failedOn =>
      exact ⟨hsound.of_same (fun himpossible => nomatch himpossible) rfl rfl rfl,
        Succeeds.of_same rfl rfl rfl, trivial⟩

/-- What a step of a caller cannot do: connect the client, take something off the wire or
undo a handshake. -/
structure Harmless (s t : Shared) : Prop where
  connected : t.clientState = .connected → s.clientState = .connected
  wire : s.wire ≠ [] → t.wire ≠ []
  accepted : s.accepted = true → t.accepted = true

theorem harmless_write (s : Shared) (kind : MsgType) (count : Nat) :
    Harmless s (s.write kind count) where
  connected := by rw [Shared.clientState_write]; exact id
  wire := fun hwire => wire_write_ne_nil (Or.inl hwire)
  accepted := by rw [Shared.accepted_write]; exact id

theorem callerStep_harmless (s : Shared) (self : Party) (choice : Choice) (pc : CallerPc) :
    Harmless s (callerStep s self choice pc).1 := by
  cases pc
  all_goals
    simp only [callerStep]
    repeat' split
  all_goals first
    | exact harmless_write _ _ _
    | exact Harmless.mk id id id
    | exact Harmless.mk (fun himpossible => nomatch himpossible) id id

/-- What the driver knows outlives the steps of the callers. -/
theorem DriverKnows.harmless {s t : Shared} (hharmless : Harmless s t) (pc : DriverPc)
    (hknows : DriverKnows s pc) : DriverKnows t pc := by
  have hstate (hoffline : s.clientState ≠ .connected) : t.clientState ≠ .connected :=
    fun hconnected => hoffline (hharmless.connected hconnected)
  cases pc with
  | nwkConnect _ _ | nwkDisconnect _ _ | connectDisconnect | retryDisconnect _ _
  | retryConnect _ _ | attemptReconnect | disconnectCallback | closeLost =>
      exact hstate hknows
  | waitConnack _ _ => exact ⟨hstate hknows.1, hharmless.wire hknows.2⟩
  | lockWriteBuf job =>
      cases job with
      | connect first left => exact hstate hknows
      | _ => exact hharmless.accepted hknows
  | sending job length sent =>
      cases job with
      | connect first left =>
          exact ⟨hstate hknows.1, hknows.2.1, fun hsome => hharmless.wire (hknows.2.2 hsome)⟩
      | _ => exact hharmless.accepted hknows
  | unlockWriteBuf job sent =>
      cases job with
      | connect first left =>
          exact ⟨hstate hknows.1, fun hsent => hharmless.wire (hknows.2 hsent)⟩
      | _ => exact hharmless.accepted hknows
  | setConnected _ | setReconnected | cycleRead => exact hharmless.accepted hknows
  | _ => trivial

/-! ## Runs -/

/-- What holds between any two steps. -/
structure Ordered (w : World) : Prop where
  sound : Sound w.shared
  driver : DriverKnows w.shared w.driver
  callers : ∀ index, CallerKnows w.shared (w.callers index)

theorem ordered_start : Ordered start where
  sound := by constructor <;> simp [start]
  driver := by simp [start, DriverKnows]
  callers := fun _ => trivial

/-- A step keeps the order where its write, if it is one of a caller, is fresh. -/
theorem ordered_step (w : World) (action : Action) (hordered : Ordered w)
    (hfresh : WritesFresh w action) : Ordered (step w action) := by
  cases action with
  | driver choice =>
      have hsucceeds := driverStep_succeeds w.shared choice w.driver
      obtain ⟨hsound, hknows⟩ := driverStep_sound hordered.sound choice hordered.driver
      exact ⟨hsound, hknows, fun index => (hordered.callers index).succeeds hsucceeds⟩
  | caller index choice =>
      obtain ⟨hsound, hsucceeds, hknows⟩ :=
        callerStep_sound hordered.sound (.caller index) choice (hordered.callers index) (by
          intro count hchoice
          rw [hchoice] at hfresh
          exact hfresh)
      refine ⟨hsound, hordered.driver.harmless (callerStep_harmless _ _ _ _), ?_⟩
      intro other
      by_cases hself : other = index
      · rw [hself]
        simpa [step] using hknows
      · have hother := (hordered.callers other).succeeds hsucceeds
        simpa [step, hself] using hother

/-- In a run in which every write of a caller goes to the connection that the caller's
state check saw, or finds the client connected, every connection is written to in order. -/
theorem inOrder_of_writesFresh (actions : List Action)
    (hfresh : StepsMeet step WritesFresh start actions) :
    Always step InOrder start actions := by
  have halways := always_of_stepsMeet ordered_step ordered_start hfresh
  exact halways.mono fun reached hordered => ⟨hordered.sound.head, hordered.sound.requests⟩

/-- A caller publishes eight bytes on the first connection. -/
theorem inOrder_connect_publish :
    Always step InOrder start
      (connectRun ++ [.caller 0 (.call .publish), .caller 0 .ok, .caller 0 (.send 8),
        .caller 0 (.accept 8)]) :=
  inOrder_of_writesFresh _ (by decide)

/-- A caller finds the client connected, the driver loses the connection and opens the
next one, and the PUBLISH of the caller comes before the CONNECT. -/
theorem publish_before_connect :
    ¬ ∀ actions, Always step InOrder start actions := by
  intro halways
  have hrun := (halways (connectRun ++ [.caller 0 (.call .publish)] ++ lossRun ++ attemptRun ++
    [.caller 0 .ok, .caller 0 (.send 8), .caller 0 (.accept 8)])).finish
  revert hrun
  decide

end EnosDeviceSdk.Mqtt.Threads
