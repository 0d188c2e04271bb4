/-
# The threads of a client

One thread, the driver, connects the client with `wrapper_mqtt_connect` and then calls
`wrapper_mqtt_yield` again and again. Any number of other threads call
`wrapper_mqtt_publish`, `wrapper_mqtt_subscribe` and `wrapper_mqtt_unsubscribe`. Their
steps interleave: a step is one section under a mutex or one call of the transport, and a
thread that needs a mutex which another thread holds stands still.

A thread is the point in the source at which it is about to act. What the environment
decides about a step (whether a connection comes about, how much a write takes, which
packet arrives, whether a timer has expired) travels with the step. A call that a callback
makes interleaves like a call of one more thread.

The connections are numbered. Beside the state of the client the model keeps what has been
written to the present connection, the callbacks that were made, and for every caller the
connection that its state check saw. None of this influences a step.
-/

import EnosDeviceSdk.Library.Run
import EnosDeviceSdk.Mqtt.Client

namespace EnosDeviceSdk.Mqtt.Threads

open EnosDeviceSdk.Library

/-! ## The state of the client -/

/-- A thread. -/
inductive Party
  | driver
  | caller (index : Nat)
  deriving DecidableEq

/-- A transport write that took at least one byte: what it was part of, and whether the
CONNACK of its connection had been accepted by then. -/
structure Chunk where
  kind : MsgType
  accepted : Bool
  deriving DecidableEq

/-- The events of the client that an application is told about. -/
inductive Event
  | disconnect | reconnect
  deriving DecidableEq

/-- A caller's failure that found the client connected: the connection on which the send
had failed, and the connection that the client had by then. -/
structure Setback where
  failedOn : Nat
  epoch : Nat
  deriving DecidableEq

/-- What the threads share. The transport has a connection where `isOpen` holds, and
`epoch` counts the connections so far. -/
structure Shared where
  clientState : ClientState
  epoch : Nat
  isOpen : Bool
  accepted : Bool
  wire : List Chunk
  lockWriteBuf : Option Party
  lockListPub : Option Party
  events : List Event
  setbacks : List Setback

namespace Shared

/-- `ipstack.connect`, where it succeeds. -/
def connect (s : Shared) : Shared :=
  { s with epoch := s.epoch + 1, isOpen := true, accepted := false, wire := [] }

/-- `ipstack.disconnect` -/
def disconnect (s : Shared) : Shared :=
  { s with isOpen := false, accepted := false, wire := [] }

/-- `iotx_mc_set_client_state` -/
def setClientState (s : Shared) (newState : ClientState) : Shared :=
  { s with clientState := newState }

/-- `ipstack.write` on an open connection, where it takes some bytes of a packet. -/
def write (s : Shared) (kind : MsgType) (count : Nat) : Shared :=
  if count = 0 then s else { s with wire := s.wire ++ [⟨kind, s.accepted⟩] }

@[simp]
theorem clientState_write (s : Shared) (kind : MsgType) (count : Nat) :
    (s.write kind count).clientState = s.clientState := by
  rw [Shared.write]
  split <;> rfl

@[simp]
theorem accepted_write (s : Shared) (kind : MsgType) (count : Nat) :
    (s.write kind count).accepted = s.accepted := by
  rw [Shared.write]
  split <;> rfl

@[simp]
theorem events_write (s : Shared) (kind : MsgType) (count : Nat) :
    (s.write kind count).events = s.events := by
  rw [Shared.write]
  split <;> rfl

@[simp]
theorem setbacks_write (s : Shared) (kind : MsgType) (count : Nat) :
    (s.write kind count).setbacks = s.setbacks := by
  rw [Shared.write]
  split <;> rfl

/-- The callback for an event. -/
def callback (s : Shared) (event : Event) : Shared :=
  { s with events := s.events ++ [event] }

/-- The mutexes of a caller are released: `lock_write_buf`, and for a PUBLISH also
`lock_list_pub`. -/
def unlock (s : Shared) (kind : MsgType) : Shared :=
  { s with
    lockWriteBuf := none
    lockListPub := if kind = .publish then none else s.lockListPub }

end Shared

/-- What the environment decides about a step: that a call or a test succeeds or fails,
that the broker refuses, that a packet of some length is to be sent, that a write takes
some bytes, that an API function is called. -/
inductive Choice
  | ok
  | fail
  | refuse
  | send (length : Nat)
  | accept (count : Nat)
  | call (kind : MsgType)
  deriving DecidableEq

/-! ## The driver -/

/-- A packet that the driver sends. The CONNECT carries whether it is part of the first
connection and how many tries of `_mqtt_connect` may still follow. -/
inductive Job
  | connect (first : Bool) (left : Nat)
  | ping
  | puback
  | republish
  deriving DecidableEq

/-- The type of the packet. -/
def Job.kind : Job → MsgType
  | .connect _ _ => .connect
  | .ping => .pingreq
  | .puback => .puback
  | .republish => .publish

/-- Where the driver stands. -/
inductive DriverPc
  | nwkConnect (first : Bool) (left : Nat)
  | nwkDisconnect (first : Bool) (left : Nat)
  | lockWriteBuf (job : Job)
  | sending (job : Job) (length sent : Nat)
  | unlockWriteBuf (job : Job) (sent : Bool)
  | waitConnack (first : Bool) (left : Nat)
  | connectDisconnect
  | retryDisconnect (first : Bool) (left : Nat)
  | retryConnect (first : Bool) (left : Nat)
  | setConnected (first : Bool)
  | setReconnected
  | reconnectCallback
  | keepaliveSub
  | pingFailed
  | keepalive
  | attemptReconnect
  | disconnectCallback
  | closeLost
  | setReconnecting
  | cycle
  | cycleRead
  | cycleFailed
  | pubInfoLock
  | pubInfoProc
  | republishFailed
  | pubInfoUnlock
  deriving DecidableEq

/-- Where the driver goes on when a packet could not be serialized. -/
def Job.unserialized : Job → DriverPc
  | .connect _ _ => .connectDisconnect
  | .ping => .keepalive
  | .puback => .cycle
  | .republish => .pubInfoProc

/-- Where the driver goes on after `iotx_mc_send_packet`. -/
def Job.next : Job → Bool → DriverPc
  | .connect first left, true => .waitConnack first left
  | .connect _ _, false => .connectDisconnect
  | .ping, true => .keepalive
  | .ping, false => .pingFailed
  | .puback, true => .pubInfoLock
  | .puback, false => .cycle
  | .republish, true => .pubInfoProc
  | .republish, false => .republishFailed

/-- `_mqtt_connect`, `_mqtt_nwk_connect` and what follows them: `wrapper_mqtt_connect`
for the first connection, `iotx_mc_handle_reconnect` for a later one. -/
def connectStep (s : Shared) (choice : Choice) : DriverPc → Shared × DriverPc
  | .nwkConnect first left =>
      if choice = .ok then (s.connect, .lockWriteBuf (.connect first 7))
      else (s, .nwkDisconnect first left)
  | .nwkDisconnect first 0 =>
      -- Only `iotx_mc_attempt_reconnect` goes on without a connection.
      (s.disconnect, if first then .keepaliveSub else .lockWriteBuf (.connect first 7))
  | .nwkDisconnect first (left + 1) => (s.disconnect, .nwkConnect first left)
  | .waitConnack first left =>
      if choice = .ok ∧ s.isOpen then ({ s with accepted := true }, .setConnected first)
      else if choice = .refuse then (s, .connectDisconnect)
      else (s, .retryDisconnect first left)
  | .connectDisconnect => (s.disconnect, .cycle)
  | .retryDisconnect first left => (s.disconnect, .retryConnect first left)
  | .retryConnect first left =>
      let s := if choice = .ok then s.connect else s
      match left with
      | 0 => (s, .cycle)
      | left + 1 => (s, .lockWriteBuf (.connect first left))
  | .setConnected first =>
      (s.setClientState .connected, if first then .cycle else .setReconnected)
  | .setReconnected => (s.setClientState .connected, .reconnectCallback)
  | .reconnectCallback => (s.callback .reconnect, .cycle)
  | pc => (s, pc)

/-- `iotx_mc_send_packet` under `lock_write_buf`. -/
def sendStep (s : Shared) (choice : Choice) : DriverPc → Shared × DriverPc
  | .lockWriteBuf job =>
      if s.lockWriteBuf ≠ none then (s, .lockWriteBuf job)
      else
        match choice with
        | .send (length + 1) =>
            ({ s with lockWriteBuf := some .driver }, .sending job (length + 1) 0)
        | _ => (s, job.unserialized)
  | .sending job length sent =>
      match choice with
      | .accept count =>
          if s.isOpen then
            let taken := min count (length - sent)
            let s := s.write job.kind taken
            if sent + taken = length then (s, .unlockWriteBuf job true)
            else (s, .sending job length (sent + taken))
          else (s, .unlockWriteBuf job false)
      | _ => (s, .unlockWriteBuf job false)
  | .unlockWriteBuf job sent => ({ s with lockWriteBuf := none }, job.next sent)
  | pc => (s, pc)

/-- `iotx_mc_keepalive` -/
def keepaliveStep (s : Shared) (choice : Choice) : DriverPc → Shared × DriverPc
  | .keepaliveSub =>
      if s.clientState = .connected ∧ choice = .ok then (s, .lockWriteBuf .ping)
      else (s, .keepalive)
  | .pingFailed => (s.setClientState .disconnected, .keepalive)
  | .keepalive =>
      match s.clientState with
      | .disconnectedReconnecting | .connectBlock =>
          (s, if choice = .ok then .attemptReconnect else .cycle)
      | .disconnected => (s, .disconnectCallback)
      | _ => (s, .cycle)
  | .attemptReconnect => (s.disconnect, .nwkConnect false 2)
  | .disconnectCallback => (s.callback .disconnect, .closeLost)
  | .closeLost => (s.disconnect, .setReconnecting)
  | .setReconnecting => (s.setClientState .disconnectedReconnecting, .cycle)
  | pc => (s, pc)

/-- `_mqtt_cycle` with `iotx_mc_cycle` and `MQTTPubInfoProc`. -/
def cycleStep (s : Shared) (choice : Choice) : DriverPc → Shared × DriverPc
  | .cycle =>
      -- The loop of `_mqtt_cycle` is left when its timer has expired.
      if choice ≠ .ok then (s, .keepaliveSub)
      else if s.clientState = .connected then (s, .cycleRead)
      else (s, .cycle)
  | .cycleRead =>
      match choice with
      | .fail => (s, .cycleFailed)
      | .refuse => (s, .cycle)
      | .send _ => (s, .lockWriteBuf .puback)
      | _ => (s, .pubInfoLock)
  | .cycleFailed => (s.setClientState .disconnected, .cycle)
  | .pubInfoLock =>
      if s.lockListPub ≠ none then (s, .pubInfoLock)
      else ({ s with lockListPub := some .driver }, .pubInfoProc)
  | .pubInfoProc =>
      match choice with
      | .send _ =>
          if s.clientState = .connected then (s, .lockWriteBuf .republish) else (s, .pubInfoProc)
      | _ => (s, .pubInfoUnlock)
  | .republishFailed => (s.setClientState .disconnected, .pubInfoUnlock)
  | .pubInfoUnlock => ({ s with lockListPub := none }, .cycle)
  | pc => (s, pc)

/-- A step of the driver. -/
def driverStep (s : Shared) (choice : Choice) (pc : DriverPc) : Shared × DriverPc :=
  match pc with
  | .nwkConnect _ _ | .nwkDisconnect _ _ | .waitConnack _ _ | .connectDisconnect
  | .retryDisconnect _ _ | .retryConnect _ _ | .setConnected _ | .setReconnected
  | .reconnectCallback => connectStep s choice pc
  | .lockWriteBuf _ | .sending _ _ _ | .unlockWriteBuf _ _ => sendStep s choice pc
  | .keepaliveSub | .pingFailed | .keepalive | .attemptReconnect | .disconnectCallback
  | .closeLost | .setReconnecting => keepaliveStep s choice pc
  | .cycle | .cycleRead | .cycleFailed | .pubInfoLock | .pubInfoProc | .republishFailed
  | .pubInfoUnlock => cycleStep s choice pc

/-! ## The callers -/

/-- The packets of the API functions. -/
def IsRequest (kind : MsgType) : Prop :=
  kind = .publish ∨ kind = .subscribe ∨ kind = .unsubscribe

instance : DecidablePred IsRequest := fun kind =>
  inferInstanceAs (Decidable (kind = _ ∨ kind = _ ∨ kind = _))

/-- Where a caller stands. A call carries the type of its packet and the number of the
connection that its state check saw; a failed call carries the connection on which its
send failed. -/
inductive CallerPc
  | idle
  | lockListPub (checkedOn : Nat)
  | lockWriteBuf (kind : MsgType) (checkedOn : Nat)
  | sending (kind : MsgType) (checkedOn length sent : Nat)
  | unlock (kind : MsgType) (failedOn : Option Nat)
  | failed (failedOn : Nat)
  deriving DecidableEq

/-- A step of `wrapper_mqtt_publish`, `wrapper_mqtt_subscribe` or
`wrapper_mqtt_unsubscribe`. -/
def callerStep (s : Shared) (self : Party) (choice : Choice) :
    CallerPc → Shared × CallerPc
  | .idle =>
      match choice with
      | .call kind =>
          -- `wrapper_mqtt_check_state`
          if ¬ IsRequest kind ∨ s.clientState ≠ .connected then (s, .idle)
          else if kind = .publish then (s, .lockListPub s.epoch)
          else (s, .lockWriteBuf kind s.epoch)
      | _ => (s, .idle)
  | .lockListPub checkedOn =>
      if choice = .fail then (s, .idle)
      else if s.lockListPub ≠ none then (s, .lockListPub checkedOn)
      else ({ s with lockListPub := some self }, .lockWriteBuf .publish checkedOn)
  | .lockWriteBuf kind checkedOn =>
      if s.lockWriteBuf ≠ none then (s, .lockWriteBuf kind checkedOn)
      else
        match choice with
        | .send (length + 1) =>
            ({ s with lockWriteBuf := some self }, .sending kind checkedOn (length + 1) 0)
        | _ => (s.unlock kind, .idle)
  | .sending kind checkedOn length sent =>
      match choice with
      | .accept count =>
          if s.isOpen then
            let taken := min count (length - sent)
            let s := s.write kind taken
            if sent + taken = length then (s, .unlock kind none)
            else (s, .sending kind checkedOn length (sent + taken))
          else (s, .unlock kind (some s.epoch))
      | _ => (s, .unlock kind (some s.epoch))
  | .unlock kind failedOn =>
      (s.unlock kind,
        match failedOn with
        | none => .idle
        | some epoch => .failed epoch)
  | .failed failedOn =>
      -- `iotx_mc_set_client_state(c, IOTX_MC_STATE_DISCONNECTED)`
      let setbacks :=
        if s.clientState = .connected then s.setbacks ++ [⟨failedOn, s.epoch⟩] else s.setbacks
      ({ s with clientState := .disconnected, setbacks := setbacks }, .idle)

/-! ## The interleaved system -/

/-- All threads and what they share. -/
structure World where
  shared : Shared
  driver : DriverPc
  callers : Nat → CallerPc

/-- One step of one thread. -/
inductive Action
  | driver (choice : Choice)
  | caller (index : Nat) (choice : Choice)
  deriving DecidableEq

/-- The system after a step. -/
def step (w : World) : Action → World
  | .driver choice =>
      let (shared, pc) := driverStep w.shared choice w.driver
      { w with shared := shared, driver := pc }
  | .caller index choice =>
      let (shared, pc) := callerStep w.shared (.caller index) choice (w.callers index)
      { w with shared := shared, callers := Function.update w.callers index pc }

/-- An initialized client: the driver is about to connect it, no call is under way. -/
def start : World where
  shared :=
    { clientState := .initialized
      epoch := 0
      isOpen := false
      accepted := false
      wire := []
      lockWriteBuf := none
      lockListPub := none
      events := []
      setbacks := [] }
  driver := .nwkConnect true 2
  callers := fun _ => .idle

/-! ## Runs of the driver -/

/-- The client is connected: the driver opens a connection, sends a CONNECT of ten bytes
and has its CONNACK. -/
def connectRun : List Action :=
  [.driver .ok, .driver (.send 10), .driver (.accept 10), .driver .ok, .driver .ok, .driver .ok]

/-- A read fails, the driver reports the loss, closes the connection and is to reconnect. -/
def lossRun : List Action :=
  [.driver .ok, .driver .fail, .driver .ok, .driver .fail, .driver .fail, .driver .ok, .driver .ok,
    .driver .ok, .driver .ok]

/-- The driver has waited long enough and opens the next connection. -/
def attemptRun : List Action :=
  [.driver .fail, .driver .fail, .driver .ok, .driver .ok, .driver .ok]

end EnosDeviceSdk.Mqtt.Threads
