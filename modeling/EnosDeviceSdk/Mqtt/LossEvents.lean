/-
# The callbacks for a lost and a restored connection

`iotx_mc_keepalive` tells the application of a loss when it finds the client disconnected,
and of the recovery when it has reconnected it. The two callbacks alternate as long as the
state of the client says which of the two is due.

Every API function sets the state to disconnected after a failed send, whatever the driver
has done meanwhile. While the driver waits for a reconnection this makes it report the loss
a second time, and after the reconnection it loses the new connection for the failure of an
old one.
-/

import EnosDeviceSdk.Mqtt.Threads

namespace EnosDeviceSdk.Mqtt.Threads

open EnosDeviceSdk.Library

/-- The event that is due after some number of events. -/
def due (count : Nat) : Event := if count % 2 = 0 then .disconnect else .reconnect

/-- The events alternate, and a loss comes first. -/
def Alternating (events : List Event) : Prop :=
  events = (List.range events.length).map due

instance : DecidablePred Alternating := fun events =>
  inferInstanceAs (Decidable (events = (List.range events.length).map due))

theorem alternating_append {events : List Event} (halternating : Alternating events) :
    Alternating (events ++ [due events.length]) := by
  rw [Alternating, List.length_append, List.length_singleton, List.range_succ, List.map_append,
    ← halternating]
  rfl

/-- The callbacks alternate, and no failed send has disconnected the client from a later
connection than its own. -/
def InStep (w : World) : Prop :=
  Alternating w.shared.events ∧
    ∀ setback ∈ w.shared.setbacks, setback.failedOn = setback.epoch

instance : DecidablePred InStep := fun _ => inferInstanceAs (Decidable (_ ∧ _))

/-- A failed call that is about to set the state finds the client disconnected, or
connected and still on the connection on which the send failed. -/
def Timely (s : Shared) : CallerPc → Prop
  | .failed failedOn =>
      s.clientState = .disconnected ∨ s.clientState = .connected ∧ failedOn = s.epoch
  | _ => True

instance (s : Shared) : DecidablePred (Timely s)
  | .failed _ => inferInstanceAs (Decidable (_ ∨ _))
  | .idle | .lockListPub _ | .lockWriteBuf _ _ | .sending _ _ _ _ | .unlock _ _ => .isTrue trivial

/-- The failures of the callers are recorded in time. -/
def RecordsTimely (w : World) : Action → Prop
  | .caller index _ => Timely w.shared (w.callers index)
  | .driver _ => True

instance (w : World) : DecidablePred (RecordsTimely w)
  | .caller index _ => inferInstanceAs (Decidable (Timely w.shared (w.callers index)))
  | .driver _ => .isTrue trivial

/-! ## Phases -/

/-- A loss is due, and the first connection has not come about. -/
def Initial (s : Shared) : Prop := due s.events.length = .disconnect ∧ s.clientState = .initialized

/-- A loss is due, and there is a connection to lose. -/
def Up (s : Shared) : Prop :=
  due s.events.length = .disconnect ∧
    (s.clientState = .connected ∨ s.clientState = .disconnected)

/-- A loss is due, and the driver has found it. -/
def Lost (s : Shared) : Prop :=
  due s.events.length = .disconnect ∧ s.clientState = .disconnected

/-- The loss is reported, and the driver is about to note that it reconnects. -/
def Reported (s : Shared) : Prop :=
  due s.events.length = .reconnect ∧ s.clientState = .disconnected

/-- The loss is reported, and the driver reconnects. -/
def Down (s : Shared) : Prop :=
  due s.events.length = .reconnect ∧ s.clientState = .disconnectedReconnecting

/-- The client is connected again, and this is not reported yet. -/
def Back (s : Shared) : Prop :=
  due s.events.length = .reconnect ∧
    (s.clientState = .connected ∨ s.clientState = .disconnected)

/-- The driver is connecting, for the first time or again. -/
def Connecting (s : Shared) : Bool → Prop
  | true => Initial s
  | false => Down s

/-- The phase in which the driver stands at a point of the source. -/
def InPhase (s : Shared) : DriverPc → Prop
  | .nwkConnect first _ | .nwkDisconnect first _ | .waitConnack first _
  | .retryDisconnect first _ | .retryConnect first _ | .setConnected first
  | .lockWriteBuf (.connect first _) | .sending (.connect first _) _ _
  | .unlockWriteBuf (.connect first _) _ => Connecting s first
  | .attemptReconnect => Down s
  | .setReconnected | .reconnectCallback => Back s
  | .disconnectCallback => Lost s
  | .closeLost | .setReconnecting => Reported s
  | .lockWriteBuf _ | .sending _ _ _ | .unlockWriteBuf _ _ | .pingFailed | .cycleRead
  | .cycleFailed | .republishFailed => Up s
  | .connectDisconnect | .keepaliveSub | .keepalive | .cycle | .pubInfoLock | .pubInfoProc
  | .pubInfoUnlock => Initial s ∨ Up s ∨ Down s

theorem Connecting.any {s : Shared} {first : Bool} (hphase : Connecting s first) :
    Initial s ∨ Up s ∨ Down s := by
  cases first with
  | true => exact Or.inl hphase
  | false => exact Or.inr (Or.inr hphase)

/-- A phase is told by the events and the state of the client. -/
theorem InPhase.of_same {s t : Shared} {pc : DriverPc} (hphase : InPhase s pc)
    (hevents : t.events = s.events) (hstate : t.clientState = s.clientState) : InPhase t pc := by
  have hsame : InPhase t pc = InPhase s pc := by
    cases pc with
    | lockWriteBuf job | sending job _ _ | unlockWriteBuf job _ =>
        cases job with
        | connect first left =>
            cases first <;> simp only [InPhase, Connecting, Initial, Down, hevents, hstate]
        | _ => simp only [InPhase, Up, hevents, hstate]
    | nwkConnect first _ | nwkDisconnect first _ | waitConnack first _
    | retryDisconnect first _ | retryConnect first _ | setConnected first =>
        cases first <;> simp only [InPhase, Connecting, Initial, Down, hevents, hstate]
    | _ =>
        simp only [InPhase, Initial, Up, Lost, Reported, Down, Back, hevents, hstate]
  rwa [hsame]

/-- After a callback the other event is due. -/
theorem due_callback (s : Shared) (event : Event) :
    due (s.callback event).events.length =
      if due s.events.length = .disconnect then .reconnect else .disconnect := by
  simp only [Shared.callback, List.length_append, List.length_singleton, due]
  rcases Nat.mod_two_eq_zero_or_one s.events.length with heven | hodd
  · have hnext : (s.events.length + 1) % 2 = 1 := by omega
    simp [heven, hnext]
  · have hnext : (s.events.length + 1) % 2 = 0 := by omega
    simp [hodd, hnext]

/-- A client that neither waits for its first connection nor reconnects is up. -/
theorem up_of_state {s : Shared} (hphase : Initial s ∨ Up s ∨ Down s)
    (hinitialized : s.clientState ≠ .initialized)
    (hreconnecting : s.clientState ≠ .disconnectedReconnecting) : Up s := by
  rcases hphase with hinitial | hup | hdown
  · exact absurd hinitial.2 hinitialized
  · exact hup
  · exact absurd hdown.2 hreconnecting

/-- A client that does not wait for its first connection and has none to lose is down. -/
theorem down_of_state {s : Shared} (hphase : Initial s ∨ Up s ∨ Down s)
    (hinitialized : s.clientState ≠ .initialized) (hconnected : s.clientState ≠ .connected)
    (hdisconnected : s.clientState ≠ .disconnected) : Down s := by
  rcases hphase with hinitial | hup | hdown
  · exact absurd hinitial.2 hinitialized
  · exact hup.2.elim (absurd · hconnected) (absurd · hdisconnected)
  · exact hdown

/-- A client that is found connected is up. -/
theorem up_of_connected {s : Shared} (hphase : Initial s ∨ Up s ∨ Down s)
    (hconnected : s.clientState = .connected) : Up s := by
  apply up_of_state hphase <;> rw [hconnected] <;> decide

/-! ## The driver -/

/-- The connecting steps. -/
theorem connectStep_inPhase {s : Shared} (choice : Choice) {pc : DriverPc}
    (hphase : InPhase s pc) :
    InPhase (connectStep s choice pc).1 (connectStep s choice pc).2 := by
  cases pc with
  | nwkConnect first left =>
      have hconnect : Connecting s.connect first := by cases first <;> exact hphase
      rw [connectStep]
      split
      · exact hconnect
      · exact hphase
  | nwkDisconnect first left =>
      cases first with
      | true =>
          cases left with
          | zero => exact Or.inl hphase
          | succ left => exact hphase
      | false => cases left <;> exact hphase
  | waitConnack first left =>
      have haccept : Connecting { s with accepted := true } first := by
        cases first <;> exact hphase
      rw [connectStep]
      split
      · exact haccept
      · split
        · exact hphase.any
        · exact hphase
  | connectDisconnect => exact hphase
  | retryDisconnect first left => cases first <;> exact hphase
  | retryConnect first left =>
      have hnext : Connecting (if choice = .ok then s.connect else s) first := by
        split
        · cases first <;> exact hphase
        · exact hphase
      cases left with
      | zero => exact hnext.any
      | succ left => exact hnext
  | setConnected first =>
      cases first with
      | true => exact Or.inr (Or.inl ⟨hphase.1, Or.inl rfl⟩)
      | false => exact ⟨hphase.1, Or.inl rfl⟩
  | setReconnected => exact ⟨hphase.1, Or.inl rfl⟩
  | reconnectCallback =>
      have hdue := due_callback s .reconnect
      rw [hphase.1] at hdue
      exact Or.inr (Or.inl ⟨hdue, hphase.2⟩)
  | _ => exact hphase

/-- Sending a packet under `lock_write_buf`. -/
theorem sendStep_inPhase {s : Shared} (choice : Choice) {pc : DriverPc}
    (hphase : InPhase s pc) : InPhase (sendStep s choice pc).1 (sendStep s choice pc).2 := by
  cases pc with
  | lockWriteBuf job =>
      unfold sendStep
      dsimp only
      split
      · exact hphase
      · split
        · cases job with
          | connect first left => cases first <;> exact hphase
          | _ => exact hphase
        · cases job with
          | connect first left => exact hphase.any
          | ping => exact Or.inr (Or.inl hphase)
          | puback => exact Or.inr (Or.inl hphase)
          | republish => exact Or.inr (Or.inl hphase)
  | sending job length sent =>
      have hdone (sent : Bool) : InPhase s (.unlockWriteBuf job sent) := by
        cases job <;> exact hphase
      have hmore (sent : Nat) : InPhase s (.sending job length sent) := by
        cases job <;> exact hphase
      unfold sendStep
      dsimp only
      split
      · split
        · split
          · exact (hdone true).of_same (Shared.events_write _ _ _) (Shared.clientState_write _ _ _)
          · exact (hmore _).of_same (Shared.events_write _ _ _) (Shared.clientState_write _ _ _)
        · exact hdone false
      · exact hdone false
  | unlockWriteBuf job sent =>
      have hnext : InPhase s (job.next sent) := by
        cases job with
        | connect first left =>
            cases sent with
            | true => exact hphase
            | false => exact hphase.any
        | ping =>
            cases sent with
            | true => exact Or.inr (Or.inl hphase)
            | false => exact hphase
        | puback => cases sent <;> exact Or.inr (Or.inl hphase)
        | republish =>
            cases sent with
            | true => exact Or.inr (Or.inl hphase)
            | false => exact hphase
      exact hnext.of_same rfl rfl
  | _ => exact hphase

/-- The steps of `iotx_mc_keepalive`. -/
theorem keepaliveStep_inPhase {s : Shared} (choice : Choice) {pc : DriverPc}
    (hphase : InPhase s pc) :
    InPhase (keepaliveStep s choice pc).1 (keepaliveStep s choice pc).2 := by
  cases pc with
  | keepaliveSub =>
      rw [keepaliveStep]
      split
      · next hok => exact up_of_connected hphase hok.1
      · exact hphase
  | pingFailed => exact Or.inr (Or.inl ⟨hphase.1, Or.inr rfl⟩)
  | keepalive =>
      rw [keepaliveStep]
      split
      · next hstate =>
          have hdown : Down s := by
            apply down_of_state hphase <;> rw [hstate] <;> decide
          split
          · exact hdown
          · exact hphase
      · next hstate =>
          have hdown : Down s := by
            apply down_of_state hphase <;> rw [hstate] <;> decide
          split
          · exact hdown
          · exact hphase
      · next hstate =>
          have hup : Up s := by
            apply up_of_state hphase <;> rw [hstate] <;> decide
          exact ⟨hup.1, hstate⟩
      · exact hphase
  | attemptReconnect => exact hphase
  | disconnectCallback =>
      have hdue := due_callback s .disconnect
      rw [hphase.1] at hdue
      exact ⟨hdue, hphase.2⟩
  | closeLost => exact hphase
  | setReconnecting => exact Or.inr (Or.inr ⟨hphase.1, rfl⟩)
  | _ => exact hphase

/-- The steps of `_mqtt_cycle`. -/
theorem cycleStep_inPhase {s : Shared} (choice : Choice) {pc : DriverPc}
    (hphase : InPhase s pc) : InPhase (cycleStep s choice pc).1 (cycleStep s choice pc).2 := by
  cases pc with
  | cycle =>
      rw [cycleStep]
      split
      · exact hphase
      · split
        · next hstate => exact up_of_connected hphase hstate
        · exact hphase
  | cycleRead =>
      unfold cycleStep
      dsimp only
      split
      · exact hphase
      · exact Or.inr (Or.inl hphase)
      · exact hphase
      · exact Or.inr (Or.inl hphase)
  | cycleFailed => exact Or.inr (Or.inl ⟨hphase.1, Or.inr rfl⟩)
  | pubInfoLock =>
      rw [cycleStep]
      split
      · exact hphase
      · exact hphase
  | pubInfoProc =>
      unfold cycleStep
      dsimp only
      split
      · split
        · next hstate => exact up_of_connected hphase hstate
        · exact hphase
      · exact hphase
  | republishFailed => exact Or.inr (Or.inl ⟨hphase.1, Or.inr rfl⟩)
  | pubInfoUnlock => exact hphase
  | _ => exact hphase

/-- The driver stays in phase. -/
theorem driverStep_inPhase {s : Shared} (choice : Choice) {pc : DriverPc}
    (hphase : InPhase s pc) :
    InPhase (driverStep s choice pc).1 (driverStep s choice pc).2 := by
  cases pc with
  | nwkConnect _ _ | nwkDisconnect _ _ | waitConnack _ _ | connectDisconnect
  | retryDisconnect _ _ | retryConnect _ _ | setConnected _ | setReconnected
  | reconnectCallback => exact connectStep_inPhase choice hphase
  | lockWriteBuf _ | sending _ _ _ | unlockWriteBuf _ _ => exact sendStep_inPhase choice hphase
  | keepaliveSub | pingFailed | keepalive | attemptReconnect | disconnectCallback
  | closeLost | setReconnecting => exact keepaliveStep_inPhase choice hphase
  | cycle | cycleRead | cycleFailed | pubInfoLock | pubInfoProc | republishFailed
  | pubInfoUnlock => exact cycleStep_inPhase choice hphase

/-- The driver makes a callback only at the two points that stand for one. -/
theorem driverStep_events (s : Shared) (choice : Choice) (pc : DriverPc) :
    (driverStep s choice pc).1.events = s.events ∨
      pc = .disconnectCallback ∧
        (driverStep s choice pc).1.events = s.events ++ [.disconnect] ∨
      pc = .reconnectCallback ∧
        (driverStep s choice pc).1.events = s.events ++ [.reconnect] := by
  cases pc with
  | disconnectCallback => exact Or.inr (Or.inl ⟨rfl, rfl⟩)
  | reconnectCallback => exact Or.inr (Or.inr ⟨rfl, rfl⟩)
  | nwkDisconnect first left => cases left <;> exact Or.inl rfl
  | _ =>
      apply Or.inl
      simp only [driverStep, connectStep, sendStep, keepaliveStep, cycleStep]
      repeat' split
      all_goals first
        | exact Shared.events_write _ _ _
        | rfl

/-- The driver records no setback. -/
theorem driverStep_setbacks (s : Shared) (choice : Choice) (pc : DriverPc) :
    (driverStep s choice pc).1.setbacks = s.setbacks := by
  cases pc
  all_goals
    simp only [driverStep, connectStep, sendStep, keepaliveStep, cycleStep]
    repeat' split
  all_goals first
    | exact Shared.setbacks_write _ _ _
    | rfl

/-- What the driver reports is what is due. -/
theorem driverStep_alternating {s : Shared} (choice : Choice) {pc : DriverPc}
    (hphase : InPhase s pc) (halternating : Alternating s.events) :
    Alternating (driverStep s choice pc).1.events := by
  have hnext := alternating_append halternating
  rcases driverStep_events s choice pc with hsame | ⟨rfl, hevents⟩ | ⟨rfl, hevents⟩
  · rwa [hsame]
  · rwa [hevents, ← hphase.1]
  · rwa [hevents, ← hphase.1]

/-! ## The callers -/

/-- What a step of a caller does to a phase: nothing, or it disconnects a client that was
connected or disconnected. -/
theorem callerStep_phase {s : Shared} (self : Party) (choice : Choice) {pc : CallerPc}
    (htimely : Timely s pc) :
    (callerStep s self choice pc).1.events = s.events ∧
      ((callerStep s self choice pc).1.clientState = s.clientState ∨
        (s.clientState = .connected ∨ s.clientState = .disconnected) ∧
          (callerStep s self choice pc).1.clientState = .disconnected) := by
  cases pc with
  | failed failedOn =>
      refine ⟨rfl, Or.inr ⟨?_, rfl⟩⟩
      rcases htimely with hlost | ⟨hconnected, _⟩
      · exact Or.inr hlost
      · exact Or.inl hconnected
  | _ =>
      simp only [callerStep]
      repeat' split
      all_goals first
        | exact ⟨Shared.events_write _ _ _, Or.inl (Shared.clientState_write _ _ _)⟩
        | exact ⟨rfl, Or.inl rfl⟩

/-- A timely record disconnects the client from no other connection than that of the
failed send. -/
theorem callerStep_setbacks {s : Shared} (self : Party) (choice : Choice) {pc : CallerPc}
    (htimely : Timely s pc)
    (hsetbacks : ∀ setback ∈ s.setbacks, setback.failedOn = setback.epoch) :
    ∀ setback ∈ (callerStep s self choice pc).1.setbacks,
      setback.failedOn = setback.epoch := by
  cases pc with
  | failed failedOn =>
      simp only [callerStep]
      split
      · next hconnected =>
          intro setback hmem
          rcases List.mem_append.mp hmem with hold | hnew
          · exact hsetbacks setback hold
          · obtain rfl := List.mem_singleton.mp hnew
            rcases htimely with hlost | ⟨_, hsame⟩
            · rw [hlost] at hconnected
              exact nomatch hconnected
            · exact hsame
      · exact hsetbacks
  | _ =>
      simp only [callerStep]
      repeat' split
      all_goals first
        | (rw [Shared.setbacks_write]; exact hsetbacks)
        | exact hsetbacks

/-- A client that is disconnected in time leaves the driver in its phase. -/
theorem InPhase.disconnected {s t : Shared} {pc : DriverPc} (hphase : InPhase s pc)
    (hevents : t.events = s.events)
    (hwas : s.clientState = .connected ∨ s.clientState = .disconnected)
    (hstate : t.clientState = .disconnected) : InPhase t pc := by
  have hinitial : ¬ Initial s := fun himpossible => by simp [himpossible.2] at hwas
  have hdown : ¬ Down s := fun himpossible => by simp [himpossible.2] at hwas
  have hup (hbefore : Up s) : Up t := ⟨by rw [hevents]; exact hbefore.1, Or.inr hstate⟩
  have hconnecting {first : Bool} (hbefore : Connecting s first) : InPhase t pc := by
    cases first with
    | true => exact absurd hbefore hinitial
    | false => exact absurd hbefore hdown
  have hany (hbefore : Initial s ∨ Up s ∨ Down s) : Initial t ∨ Up t ∨ Down t :=
    Or.inr (Or.inl (hup ((hbefore.resolve_left hinitial).resolve_right hdown)))
  cases pc with
  | nwkConnect _ _ | nwkDisconnect _ _ | waitConnack _ _ | retryDisconnect _ _
  | retryConnect _ _ | setConnected _ => exact hconnecting hphase
  | lockWriteBuf job | sending job _ _ | unlockWriteBuf job _ =>
      cases job with
      | connect first left => exact hconnecting hphase
      | _ => exact hup hphase
  | attemptReconnect => exact absurd hphase hdown
  | setReconnected | reconnectCallback =>
      exact ⟨by rw [hevents]; exact hphase.1, Or.inr hstate⟩
  | disconnectCallback | closeLost | setReconnecting =>
      exact ⟨by rw [hevents]; exact hphase.1, hstate⟩
  | pingFailed | cycleRead | cycleFailed | republishFailed => exact hup hphase
  | connectDisconnect | keepaliveSub | keepalive | cycle | pubInfoLock | pubInfoProc
  | pubInfoUnlock => exact hany hphase

/-! ## Runs -/

/-- What holds between any two steps. -/
structure Reporting (w : World) : Prop where
  alternating : Alternating w.shared.events
  setbacks : ∀ setback ∈ w.shared.setbacks, setback.failedOn = setback.epoch
  driver : InPhase w.shared w.driver

theorem reporting_start : Reporting start where
  alternating := rfl
  setbacks := by simp [start]
  driver := ⟨rfl, rfl⟩

/-- A step keeps the callbacks in step where a failure, if one is recorded, is recorded in
time. -/
theorem reporting_step (w : World) (action : Action) (hreporting : Reporting w)
    (htimely : RecordsTimely w action) : Reporting (step w action) := by
  cases action with
  | driver choice =>
      refine ⟨driverStep_alternating choice hreporting.driver hreporting.alternating, ?_,
        driverStep_inPhase choice hreporting.driver⟩
      intro setback hmem
      rw [step, driverStep_setbacks] at hmem
      exact hreporting.setbacks setback hmem
  | caller index choice =>
      obtain ⟨hevents, hstate⟩ := callerStep_phase (.caller index) choice htimely
      refine ⟨?_, callerStep_setbacks (.caller index) choice htimely hreporting.setbacks, ?_⟩
      · rw [step, hevents]
        exact hreporting.alternating
      · rcases hstate with hsame | ⟨hwas, hdisconnected⟩
        · exact hreporting.driver.of_same hevents hsame
        · exact hreporting.driver.disconnected hevents hwas hdisconnected

/-- In a run in which every failure of a caller is recorded in time, the callbacks
alternate and no failed send costs the client a later connection. -/
theorem inStep_of_recordsTimely (actions : List Action)
    (htimely : StepsMeet step RecordsTimely start actions) :
    Always step InStep start actions := by
  have halways := always_of_stepsMeet reporting_step reporting_start htimely
  exact halways.mono fun reached hreporting => ⟨hreporting.alternating, hreporting.setbacks⟩

/-- A caller publishes, its write fails, and it is about to record the failure. -/
def failedPublishRun : List Action :=
  [.caller 0 (.call .publish), .caller 0 .ok, .caller 0 (.send 8), .caller 0 .fail, .caller 0 .ok]

/-- The failure is recorded before the driver finds the loss. -/
theorem inStep_publish_fails :
    Always step InStep start
      (connectRun ++ failedPublishRun ++ [.caller 0 .ok] ++
        [.driver .fail, .driver .fail, .driver .ok, .driver .ok]) :=
  inStep_of_recordsTimely _ (by decide)

/-- A failure that is recorded after the driver has reported the loss makes it report the
loss again; one that is recorded after the reconnection disconnects the client from the new
connection. -/
theorem late_failure_out_of_step :
    (¬ ∀ actions, Alternating (runFrom step start actions).shared.events) ∧
      ¬ ∀ actions, ∀ setback ∈ (runFrom step start actions).shared.setbacks,
        setback.failedOn = setback.epoch := by
  constructor
  · intro hall
    have hrun := hall (connectRun ++ failedPublishRun ++ lossRun ++ [.caller 0 .ok] ++
      [.driver .fail, .driver .fail, .driver .ok, .driver .ok])
    revert hrun
    decide
  · intro hall
    have hrun := hall (connectRun ++ failedPublishRun ++ lossRun ++ attemptRun ++
      connectRun.tail ++ [.caller 0 .ok])
    revert hrun
    decide

end EnosDeviceSdk.Mqtt.Threads
