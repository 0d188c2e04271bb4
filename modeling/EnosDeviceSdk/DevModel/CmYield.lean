/-
# The yield threads of the connection manager

In a gateway build, `iotx_cm_connect` starts a thread for the first connection. The thread
yields all connections in turn while `inited_conn_num` is positive. `iotx_cm_close` counts
the connection out, waits for `yield_task_leave` if it was the last one, and then closes the
connection and destroys `fd_lock`.

One thread calls open, connect and close; the yield threads it has created run beside it.
A step is one access to what the threads share. A section under `fd_lock` excludes every
other one and is one step too. Each connection has the functions of `iotx_cm_mqtt.c`, so
looking one up is part of the step that calls it.
-/

import EnosDeviceSdk.DevModel.Connection

namespace EnosDeviceSdk.DevModel.CmYield

open EnosDeviceSdk.Infra EnosDeviceSdk.Library
open EnosDeviceSdk.DevModel.Connection (cmMaxFdNum slotOf)

/-- `IOTX_CM_PROTOCOL_TYPE_MQTT`, the protocol that is built in. -/
def iotxCmProtocolTypeMqtt : Int := 1

/-- A call of the connection manager. -/
inductive CmCall
  | iotxCmOpen (protocolType : Int)
  | iotxCmConnect (fd : Int)
  | iotxCmClose (fd : Int)
  deriving DecidableEq

/-- Where the calling thread stands: what it is about to do. -/
inductive CallPoint
  | idle
  -- `iotx_cm_open`, with `_get_fd`
  | openMqtt
  | createLock (handle : Nat)
  | takeSlot (handle : Nat)
  | dropConnection (fd : Int)
  -- `iotx_cm_connect`
  | connectValid (fd : Int)
  | connectFunc
  | countConnection
  | createThread
  -- `iotx_cm_close`, with `_recycle_fd`
  | closeValid (fd : Int)
  | uncountConnection (fd : Fin cmMaxFdNum)
  | awaitLeave (fd : Fin cmMaxFdNum)
  | closeFunc (fd : Fin cmMaxFdNum)
  | recycleLock (fd : Fin cmMaxFdNum)
  | recycleSlot (fd : Fin cmMaxFdNum)
  | destroyLock
  | forgetLock
  deriving DecidableEq

/-- Where a yield thread stands. It has not started yet where it is `created`. At `callYield`
it holds the `yield_func` that it read, of the connection that is noted there, and at
`yielding` it is inside `IOT_MQTT_Yield`. -/
inductive ThreadPoint
  | unborn
  | created
  | testCount
  | testLock
  | readSlot (slot : Fin cmMaxFdNum)
  | callYield (slot : Fin cmMaxFdNum) (connection : Nat)
  | yielding (slot : Fin cmMaxFdNum)
  | leaving
  | left
  deriving DecidableEq

/-- The static variables of the connection manager, the threads, and a record of the mutexes
that were destroyed and of the connections that were closed. A mutex and a connection are
known by the numbers of their allocations. -/
structure State where
  fdLock : Option Nat
  cmFd : Fin cmMaxFdNum → Option Nat
  initedConnNum : Int32
  yieldTaskLeave : Bool
  mqttConncection : Option Nat
  mutexes : Nat
  destroyed : List Nat
  connections : Nat
  closed : List Nat
  caller : CallPoint
  codes : List Int
  threads : Nat → ThreadPoint
  threadCount : Nat

/-- Before the first call. -/
def State.initial : State where
  fdLock := none
  cmFd := fun _ => none
  initedConnNum := 0
  yieldTaskLeave := true
  mqttConncection := none
  mutexes := 0
  destroyed := []
  connections := 0
  closed := []
  caller := .idle
  codes := []
  threads := fun _ => .unborn
  threadCount := 0

/-- Who takes the next step. The calling thread starts a call, or goes on with it; what the
outside function of that step returns is `rc`, and 0 where it succeeds. -/
inductive Action
  | start (call : CmCall)
  | caller (rc : Int)
  | yielder (thread : Nat)
  deriving DecidableEq

/-- The calling thread goes on to a point. -/
def State.goto (s : State) (point : CallPoint) : State := { s with caller := point }

/-- The call returns. -/
def State.finish (s : State) (code : Int) : State :=
  { s with caller := .idle, codes := s.codes ++ [code] }

/-- The first step of a call. -/
def startStep (s : State) : CmCall → State
  | .iotxCmOpen protocolType =>
      if protocolType = iotxCmProtocolTypeMqtt then s.goto .openMqtt
      else s.finish stateDevModelCmOpenFailed
  | .iotxCmConnect fd => s.goto (.connectValid fd)
  | .iotxCmClose fd => s.goto (.closeValid fd)

/-- `iotx_cm_open_mqtt`, whose two blocks are allocated or not. -/
def openMqttStep (s : State) (rc : Int) : State :=
  match s.mqttConncection with
  | some connection => s.goto (.createLock connection)
  | none =>
      if rc = 0 then
        { s with
          mqttConncection := some s.connections
          connections := s.connections + 1
          caller := .createLock s.connections }
      else s.finish stateDevModelCmOpenFailed

/-- `fd_lock` after a mutex is created. -/
def State.createFdLock (s : State) : State :=
  { s with fdLock := some s.mutexes, mutexes := s.mutexes + 1 }

/-- The start of `_get_fd`. -/
def createLockStep (s : State) (handle : Nat) (rc : Int) : State :=
  match s.fdLock with
  | some _ => s.goto (.takeSlot handle)
  | none =>
      if rc = 0 then s.createFdLock.goto (.takeSlot handle)
      else s.goto (.dropConnection stateSysDependMutexCreate)

/-- The section of `_get_fd`, which takes the first free slot. -/
def takeSlotStep (s : State) (handle : Nat) : State :=
  match (List.finRange cmMaxFdNum).find? fun slot => (s.cmFd slot).isNone with
  | some slot => { s with cmFd := Function.update s.cmFd slot (some handle) }.finish slot
  | none => s.goto (.dropConnection stateDevModelCmFdNotFound)

/-- `_mqtt_close`, the `close_func` of every connection. -/
def State.mqttClose (s : State) : Int × State :=
  match s.mqttConncection with
  | none => (stateDevModelInternalMqttNotInitYet, s)
  | some connection =>
      (stateSuccess, { s with mqttConncection := none, closed := connection :: s.closed })

/-- `_fd_is_valid` -/
def State.fdIsValid (s : State) (fd : Int) : Option (Fin cmMaxFdNum) :=
  if s.fdLock.isSome then (slotOf fd).filter fun slot => (s.cmFd slot).isSome else none

/-- `connect_func`, which is `_mqtt_connect`. -/
def connectFuncStep (s : State) (rc : Int) : State :=
  match s.mqttConncection with
  | none => s.finish stateDevModelInternalMqttNotInitYet
  | some _ => if rc = 0 then s.goto .countConnection else s.finish rc

/-- `inited_conn_num++` and the test that follows. -/
def countConnectionStep (s : State) : State :=
  let counted := { s with initedConnNum := s.initedConnNum + 1 }
  if counted.initedConnNum = 1 then counted.goto .createThread else counted.finish 0

/-- `HAL_ThreadCreate` -/
def createThreadStep (s : State) (rc : Int) : State :=
  if rc < 0 then { s with initedConnNum := s.initedConnNum - 1 }.finish rc
  else
    { s with
      threads := Function.update s.threads s.threadCount .created
      threadCount := s.threadCount + 1 }.finish rc

/-- `inited_conn_num--` and the test that follows. -/
def uncountConnectionStep (s : State) (fd : Fin cmMaxFdNum) : State :=
  let uncounted :=
    { s with
      initedConnNum := if s.initedConnNum > 0 then s.initedConnNum - 1 else s.initedConnNum }
  uncounted.goto (if uncounted.initedConnNum = 0 then .awaitLeave fd else .closeFunc fd)

/-- The start of `_recycle_fd`. -/
def recycleLockStep (s : State) (fd : Fin cmMaxFdNum) (rc : Int) : State :=
  match s.fdLock with
  | some _ => s.goto (.recycleSlot fd)
  | none => if rc = 0 then s.createFdLock.goto (.recycleSlot fd) else s.finish (-1)

/-- The last test of `iotx_cm_close`, and `HAL_MutexDestroy`. -/
def destroyLockStep (s : State) : State :=
  if s.initedConnNum = 0 then
    match s.fdLock with
    | some lock => { s with destroyed := lock :: s.destroyed, caller := .forgetLock }
    | none => s.finish 0
  else s.finish 0

/-- The next step of the calling thread. -/
def callerStep (s : State) (rc : Int) : State :=
  match s.caller with
  | .idle => s
  | .openMqtt => openMqttStep s rc
  | .createLock handle => createLockStep s handle rc
  | .takeSlot handle => takeSlotStep s handle
  | .dropConnection fd => s.mqttClose.2.finish fd
  | .connectValid fd =>
      match s.fdIsValid fd with
      | none => s.finish stateDevModelCmFdError
      | some _ => s.goto .connectFunc
  | .connectFunc => connectFuncStep s rc
  | .countConnection => countConnectionStep s
  | .createThread => createThreadStep s rc
  | .closeValid fd =>
      match s.fdIsValid fd with
      | none => s.finish stateDevModelCmFdError
      | some slot => s.goto (.uncountConnection slot)
  | .uncountConnection fd => uncountConnectionStep s fd
  | .awaitLeave fd => if s.yieldTaskLeave then s.goto (.closeFunc fd) else s
  | .closeFunc fd =>
      let (code, closed) := s.mqttClose
      if code ≠ 0 then closed.finish (-1) else closed.goto (.recycleLock fd)
  | .recycleLock fd => recycleLockStep s fd rc
  | .recycleSlot fd => { s with cmFd := Function.update s.cmFd fd none }.goto .destroyLock
  | .destroyLock => destroyLockStep s
  | .forgetLock => { s with fdLock := none }.finish 0

/-- The point behind the yield of a slot: the next slot, or the loop's test again. -/
def afterSlot (slot : Fin cmMaxFdNum) : ThreadPoint :=
  if h : slot.val + 1 < cmMaxFdNum then .readSlot ⟨slot.val + 1, h⟩ else .testCount

/-- What a step of `_iotx_cm_yield_thread_func`, with `_iotx_cm_yield` and `_mqtt_yield`, does
to `yield_task_leave`, and the point at which the thread is then. -/
def threadStep (s : State) : ThreadPoint → Bool × ThreadPoint
  | .unborn => (s.yieldTaskLeave, .unborn)
  | .created => (false, .testCount)
  | .testCount => (s.yieldTaskLeave, if s.initedConnNum > 0 then .testLock else .leaving)
  | .testLock =>
      (s.yieldTaskLeave, if s.fdLock = none then .testCount else .readSlot Connection.firstSlot)
  | .readSlot slot =>
      (s.yieldTaskLeave,
        match s.cmFd slot with
        | some connection => .callYield slot connection
        | none => afterSlot slot)
  | .callYield slot _ =>
      (s.yieldTaskLeave, if s.mqttConncection = none then afterSlot slot else .yielding slot)
  | .yielding slot => (s.yieldTaskLeave, afterSlot slot)
  | .leaving => (true, .left)
  | .left => (s.yieldTaskLeave, .left)

/-- The next step of a yield thread. -/
def yielderStep (s : State) (thread : Nat) : State :=
  { s with
    yieldTaskLeave := (threadStep s (s.threads thread)).1
    threads := Function.update s.threads thread (threadStep s (s.threads thread)).2 }

/-- The next step. A call is started only when the one before has returned. -/
def step (s : State) : Action → State
  | .start call => if s.caller = .idle then startStep s call else s
  | .caller rc => callerStep s rc
  | .yielder thread => yielderStep s thread

/-! ## What should hold, and where it fails -/

/-- Inside the loop of the thread function. -/
def ThreadPoint.InLoop : ThreadPoint → Prop
  | .testCount | .testLock | .readSlot _ | .callYield _ _ | .yielding _ => True
  | _ => False

/-- Inside the body of the loop. -/
def ThreadPoint.InBody : ThreadPoint → Prop
  | .testLock | .readSlot _ | .callYield _ _ | .yielding _ => True
  | _ => False

/-- Created, and not left yet. -/
def ThreadPoint.Running : ThreadPoint → Prop
  | .unborn | .left => False
  | _ => True

instance (point : ThreadPoint) : Decidable point.InLoop := by
  cases point <;> (unfold ThreadPoint.InLoop; infer_instance)

/-- At most one thread is inside the loop. -/
def OneInLoop (s : State) : Prop :=
  ∀ first second, (s.threads first).InLoop → (s.threads second).InLoop → first = second

/-- A step of the loop locks a mutex that is not destroyed, and calls the yield function of a
connection that is not closed. -/
def LiveStep (s : State) : Action → Prop
  | .yielder thread =>
      match s.threads thread with
      | .readSlot _ =>
          match s.fdLock with
          | some lock => lock ∉ s.destroyed
          | none => False
      | .callYield _ connection => connection ∉ s.closed
      | _ => True
  | _ => True

instance (s : State) (action : Action) : Decidable (LiveStep s action) := by
  unfold LiveStep
  split
  · split
    · split <;> infer_instance
    · infer_instance
    · infer_instance
  · infer_instance

/-- The slot holds the connection that there is. -/
def State.Holds (s : State) (fd : Fin cmMaxFdNum) : Prop :=
  ∃ connection, s.cmFd fd = some connection ∧ s.mqttConncection = some connection

/-- No thread is running. -/
def State.Quiet (s : State) : Prop := ∀ thread, ¬ (s.threads thread).Running

/-- A thread is created only when every thread before it has left. A connection is closed
only when no other descriptor holds it, and by `iotx_cm_close` only when no connect is
counted any more or every thread has left. -/
def Orderly (s : State) : Action → Prop
  | .caller rc =>
      match s.caller with
      | .createThread => rc < 0 ∨ s.Quiet
      | .closeFunc fd =>
          (s.initedConnNum = 0 ∨ s.Quiet) ∧ ∀ other, other ≠ fd → ¬ s.Holds other
      | .dropConnection _ => ∀ fd, ¬ s.Holds fd
      | _ => True
  | _ => True

/-! ## The invariant -/

/-- The threads have left the body of the loop and do not enter it. -/
def State.Drained (s : State) : Prop :=
  (s.initedConnNum = 0 ∨ s.Quiet) ∧ ∀ thread, ¬ (s.threads thread).InBody

/-- What holds of the state while the calling thread stands at a point. -/
def State.PointOk (s : State) : CallPoint → Prop
  | .createLock handle => s.mqttConncection = some handle
  | .takeSlot handle => s.mqttConncection = some handle ∧ s.fdLock ≠ none
  | .connectFunc | .countConnection | .createThread | .uncountConnection _ => s.fdLock ≠ none
  | .awaitLeave _ => s.fdLock ≠ none ∧ s.initedConnNum = 0
  | .closeFunc _ =>
      s.fdLock ≠ none ∧
        (s.initedConnNum = 0 → ∀ thread, ¬ (s.threads thread).InBody)
  | .recycleLock _ | .recycleSlot _ | .destroyLock => s.fdLock ≠ none ∧ s.Drained
  | .forgetLock => s.initedConnNum = 0 ∧ s.Drained
  | _ => True

/-- The slot whose connection is closed and which is still to be cleared. -/
def CallPoint.stale : CallPoint → Option (Fin cmMaxFdNum)
  | .recycleLock fd | .recycleSlot fd => some fd
  | _ => none

/-- The mutexes and the connections: what is in use is neither destroyed nor closed. -/
structure Live (s : State) : Prop where
  lock_old : ∀ lock, s.fdLock = some lock → lock < s.mutexes
  destroyed_old : ∀ lock ∈ s.destroyed, lock < s.mutexes
  lock_live : ∀ lock, s.fdLock = some lock → s.caller = .forgetLock ∨ lock ∉ s.destroyed
  connection_old : ∀ connection, s.mqttConncection = some connection →
    connection < s.connections
  closed_old : ∀ connection ∈ s.closed, connection < s.connections
  connection_live : ∀ connection, s.mqttConncection = some connection →
    connection ∉ s.closed
  slot_live : ∀ fd connection, s.cmFd fd = some connection →
    s.mqttConncection = some connection ∨ s.caller.stale = some fd
  counted : s.initedConnNum ≠ 0 → s.fdLock ≠ none
  point_ok : s.PointOk s.caller

/-- The threads: at most one runs, it has announced itself before it enters the loop, and
in the body it relies on the lock and on the connection it has read. -/
structure Paced (s : State) : Prop where
  one_running : ∀ first second, (s.threads first).Running → (s.threads second).Running →
    first = second
  announced : ∀ thread, (s.threads thread).Running → s.threads thread ≠ .created →
    s.yieldTaskLeave = false
  locked : ∀ thread, (s.threads thread).InBody → s.fdLock ≠ none
  calling : ∀ thread slot connection, s.threads thread = .callYield slot connection →
    s.cmFd slot = some connection
  unborn : ∀ thread, s.threadCount ≤ thread → s.threads thread = .unborn

/-- The invariant of orderly runs. -/
structure Sound (s : State) : Prop where
  live : Live s
  paced : Paced s

theorem sound_initial : Sound State.initial := by
  constructor
  · constructor <;> simp [State.initial, State.PointOk]
  · constructor <;> simp [State.initial, ThreadPoint.Running, ThreadPoint.InBody]

/-! ## The steps of a yield thread -/

theorem afterSlot_cases (slot : Fin cmMaxFdNum) :
    afterSlot slot = .testCount ∨ ∃ next, afterSlot slot = .readSlot next := by
  rw [afterSlot]
  split
  · exact Or.inr ⟨_, rfl⟩
  · exact Or.inl rfl

theorem ThreadPoint.InBody.running {point : ThreadPoint} (hbody : point.InBody) :
    point.Running := by
  cases point <;> trivial

theorem ThreadPoint.InLoop.running {point : ThreadPoint} (hloop : point.InLoop) :
    point.Running := by
  cases point <;> trivial

/-- A step starts no thread. -/
theorem threadStep_running {s : State} {point : ThreadPoint}
    (hrunning : (threadStep s point).2.Running) : point.Running := by
  cases point with
  | unborn => exact hrunning
  | left => exact hrunning
  | _ => trivial

/-- A thread that does not run does nothing. -/
theorem threadStep_idle {s : State} {point : ThreadPoint} (hidle : ¬ point.Running) :
    threadStep s point = (s.yieldTaskLeave, point) := by
  cases point with
  | unborn => rfl
  | left => rfl
  | _ => exact absurd trivial hidle

/-- A step leads into the body of the loop from there, or from the test of a positive
count. -/
theorem threadStep_inBody {s : State} {point : ThreadPoint}
    (hbody : (threadStep s point).2.InBody) :
    point.InBody ∨ point = .testCount ∧ s.initedConnNum > 0 := by
  cases point with
  | testCount =>
      rw [threadStep] at hbody
      split at hbody
      · next hcount => exact Or.inr ⟨rfl, hcount⟩
      · cases hbody
  | testLock => exact Or.inl trivial
  | readSlot slot => exact Or.inl trivial
  | callYield slot connection => exact Or.inl trivial
  | yielding slot => exact Or.inl trivial
  | unborn => cases hbody
  | created => cases hbody
  | leaving => cases hbody
  | left => cases hbody

/-- A thread that runs after a step has announced itself. -/
theorem threadStep_announced {s : State} {point : ThreadPoint}
    (hannounced : point.Running → point ≠ .created → s.yieldTaskLeave = false)
    (hrunning : (threadStep s point).2.Running) : (threadStep s point).1 = false := by
  cases point with
  | unborn => cases hrunning
  | created => rfl
  | leaving => cases hrunning
  | left => cases hrunning
  | testCount => exact hannounced trivial (by simp)
  | testLock => exact hannounced trivial (by simp)
  | readSlot slot => exact hannounced trivial (by simp)
  | callYield slot connection => exact hannounced trivial (by simp)
  | yielding slot => exact hannounced trivial (by simp)

/-- A thread that holds a yield function has just read it. -/
theorem threadStep_calling {s : State} {point : ThreadPoint} {slot : Fin cmMaxFdNum}
    {connection : Nat} (hcalling : (threadStep s point).2 = .callYield slot connection) :
    s.cmFd slot = some connection := by
  have hafter : ∀ from', afterSlot from' ≠ .callYield slot connection := by
    intro from' hsame
    rcases afterSlot_cases from' with htest | ⟨next, hread⟩
    · rw [htest] at hsame
      cases hsame
    · rw [hread] at hsame
      cases hsame
  cases point with
  | unborn => cases hcalling
  | created => cases hcalling
  | leaving => cases hcalling
  | left => cases hcalling
  | testCount =>
      rw [threadStep] at hcalling
      split at hcalling <;> cases hcalling
  | testLock =>
      rw [threadStep] at hcalling
      split at hcalling <;> cases hcalling
  | readSlot other =>
      rw [threadStep] at hcalling
      cases hread : s.cmFd other with
      | none =>
          rw [hread] at hcalling
          exact absurd hcalling (hafter other)
      | some held =>
          rw [hread] at hcalling
          cases hcalling
          exact hread
  | callYield other held =>
      rw [threadStep] at hcalling
      split at hcalling
      · exact absurd hcalling (hafter other)
      · cases hcalling
  | yielding other => exact absurd hcalling (hafter other)

@[simp]
theorem yielderStep_threads (s : State) (thread other : Nat) :
    (yielderStep s thread).threads other =
      if other = thread then (threadStep s (s.threads thread)).2 else s.threads other :=
  Function.update_apply _ _ _ _

theorem State.Quiet.yielder {s : State} (hs : s.Quiet) (thread : Nat) :
    (yielderStep s thread).Quiet := by
  intro other hrunning
  rw [yielderStep_threads] at hrunning
  split at hrunning
  · exact hs thread (threadStep_running hrunning)
  · exact hs other hrunning

/-- Where no thread is in the body and none can enter it, that stays so. -/
theorem noBody_yielder {s : State} (hcount : s.initedConnNum = 0 ∨ s.Quiet)
    (hs : ∀ thread, ¬ (s.threads thread).InBody) (thread other : Nat) :
    ¬ ((yielderStep s thread).threads other).InBody := by
  intro hbody
  rw [yielderStep_threads] at hbody
  split at hbody
  · rcases threadStep_inBody hbody with hbefore | ⟨htest, hpositive⟩
    · exact hs thread hbefore
    · rcases hcount with hzero | hquiet
      · rw [hzero] at hpositive
        exact absurd hpositive (by decide)
      · apply hquiet thread
        rw [htest]
        trivial
  · exact hs other hbody

theorem State.Drained.yielder {s : State} (hs : s.Drained) (thread : Nat) :
    (yielderStep s thread).Drained :=
  ⟨hs.1.imp id fun hquiet => hquiet.yielder thread, noBody_yielder hs.1 hs.2 thread⟩

theorem pointOk_yielder {s : State} {point : CallPoint} (hpoint : s.PointOk point)
    (thread : Nat) : (yielderStep s thread).PointOk point := by
  cases point with
  | closeFunc fd =>
      refine ⟨hpoint.1, fun hzero => ?_⟩
      have hcount : s.initedConnNum = 0 := hzero
      exact noBody_yielder (Or.inl hcount) (hpoint.2 hcount) thread
  | recycleLock fd => exact ⟨hpoint.1, hpoint.2.yielder thread⟩
  | recycleSlot fd => exact ⟨hpoint.1, hpoint.2.yielder thread⟩
  | destroyLock => exact ⟨hpoint.1, hpoint.2.yielder thread⟩
  | forgetLock => exact ⟨hpoint.1, hpoint.2.yielder thread⟩
  | _ => exact hpoint

theorem Sound.yielder {s : State} (hs : Sound s) (thread : Nat) :
    Sound (yielderStep s thread) := by
  have hannounced := hs.paced.announced thread
  constructor
  · exact { hs.live with point_ok := pointOk_yielder hs.live.point_ok thread }
  constructor
  · intro first second hfirst hsecond
    have hbefore : ∀ other, ((yielderStep s thread).threads other).Running →
        (s.threads other).Running := by
      intro other hrunning
      rw [yielderStep_threads] at hrunning
      split at hrunning
      · next hsame => exact hsame ▸ threadStep_running hrunning
      · exact hrunning
    exact hs.paced.one_running first second (hbefore first hfirst) (hbefore second hsecond)
  · intro other hrunning hstarted
    rw [yielderStep_threads] at hrunning hstarted
    change (threadStep s (s.threads thread)).1 = false
    by_cases hsame : other = thread
    · rw [if_pos hsame] at hrunning
      exact threadStep_announced hannounced hrunning
    · rw [if_neg hsame] at hrunning hstarted
      have hidle : ¬ (s.threads thread).Running := fun hthread =>
        hsame (hs.paced.one_running other thread hrunning hthread)
      rw [threadStep_idle hidle]
      exact hs.paced.announced other hrunning hstarted
  · intro other hbody
    rw [yielderStep_threads] at hbody
    split at hbody
    · rcases threadStep_inBody hbody with hbefore | ⟨_, hpositive⟩
      · exact hs.paced.locked thread hbefore
      · apply hs.live.counted
        intro hzero
        rw [hzero] at hpositive
        exact absurd hpositive (by decide)
    · exact hs.paced.locked other hbody
  · intro other slot connection hcalling
    rw [yielderStep_threads] at hcalling
    change s.cmFd slot = some connection
    split at hcalling
    · exact threadStep_calling hcalling
    · exact hs.paced.calling other slot connection hcalling
  · intro other hlarge
    rw [yielderStep_threads]
    split
    · next hsame =>
        rw [← hsame, hs.paced.unborn other hlarge]
        rfl
    · exact hs.paced.unborn other hlarge

/-! ## The steps of the calling thread -/

/-- Going on to another point changes nothing else. -/
theorem Sound.moved {s : State} (hs : Sound s) {point : CallPoint} (codes : List Int)
    (hstale : ∀ fd, s.caller.stale = some fd → point.stale = some fd)
    (hforget : s.caller ≠ .forgetLock) (hpoint : s.PointOk point) :
    Sound { s with caller := point, codes := codes } := by
  refine ⟨{ hs.live with lock_live := ?_, slot_live := ?_, point_ok := ?_ }, { hs.paced with }⟩
  · intro lock hlock
    exact Or.inr ((hs.live.lock_live lock hlock).resolve_left hforget)
  · intro fd connection hslot
    exact (hs.live.slot_live fd connection hslot).imp id (hstale fd)
  · cases point <;> exact hpoint

theorem Sound.goto {s : State} (hs : Sound s) {point : CallPoint}
    (hstale : ∀ fd, s.caller.stale = some fd → point.stale = some fd)
    (hforget : s.caller ≠ .forgetLock) (hpoint : s.PointOk point) : Sound (s.goto point) :=
  hs.moved s.codes hstale hforget hpoint

theorem Sound.finish {s : State} (hs : Sound s) (hstale : s.caller.stale = none)
    (hforget : s.caller ≠ .forgetLock) (code : Int) : Sound (s.finish code) :=
  hs.moved _ (by simp [hstale]) hforget trivial

/-- Which slots are taken is only told by connections that are there, unless one is being
closed. -/
theorem Live.holds {s : State} (hs : Live s) (hstale : s.caller.stale = none)
    {fd : Fin cmMaxFdNum} {connection : Nat} (hslot : s.cmFd fd = some connection) :
    s.mqttConncection = some connection :=
  (hs.slot_live fd connection hslot).resolve_right (by simp [hstale])

theorem Live.unlocked {s : State} (hs : Live s) (hforget : s.caller ≠ .forgetLock) {lock : Nat}
    (hlock : s.fdLock = some lock) : lock ∉ s.destroyed :=
  (hs.lock_live lock hlock).resolve_left hforget

theorem Sound.start {s : State} (hs : Sound s) (hidle : s.caller = .idle) (call : CmCall) :
    Sound (startStep s call) := by
  have hstale : s.caller.stale = none := by rw [hidle]; rfl
  have hforget : s.caller ≠ .forgetLock := by simp [hidle]
  cases call with
  | iotxCmOpen protocolType =>
      rw [startStep]
      split
      · exact hs.goto (by simp [hstale]) hforget trivial
      · exact hs.finish hstale hforget _
  | iotxCmConnect fd => exact hs.goto (by simp [hstale]) hforget trivial
  | iotxCmClose fd => exact hs.goto (by simp [hstale]) hforget trivial

theorem Sound.openMqtt {s : State} (hs : Sound s) (hcaller : s.caller = .openMqtt) (rc : Int) :
    Sound (openMqttStep s rc) := by
  have hstale : s.caller.stale = none := by rw [hcaller]; rfl
  have hforget : s.caller ≠ .forgetLock := by simp [hcaller]
  cases hmqtt : s.mqttConncection with
  | some connection =>
      simp only [openMqttStep, hmqtt]
      exact hs.goto (by simp [hstale]) hforget hmqtt
  | none =>
      simp only [openMqttStep, hmqtt]
      split
      · refine ⟨{ hs.live with
            lock_live := ?_, connection_old := ?_, closed_old := ?_, connection_live := ?_,
            slot_live := ?_, point_ok := rfl }, { hs.paced with }⟩
        · intro lock hlock
          exact Or.inr (hs.live.unlocked hforget hlock)
        · intro connection hnew
          rw [← Option.some.inj hnew]
          exact Nat.lt_succ_self _
        · intro connection hclosed
          exact Nat.lt_succ_of_lt (hs.live.closed_old connection hclosed)
        · intro connection hnew hclosed
          rw [← Option.some.inj hnew] at hclosed
          exact Nat.lt_irrefl _ (hs.live.closed_old _ hclosed)
        · intro fd connection hslot
          have hheld := hs.live.holds hstale hslot
          rw [hmqtt] at hheld
          cases hheld
      · exact hs.finish hstale hforget _

/-- A mutex that is created is not one of those that were destroyed. -/
theorem Sound.createFdLock {s : State} (hs : Sound s) {point : CallPoint}
    (hstale : s.caller.stale = none) (hpoint : s.createFdLock.PointOk point) :
    Sound (s.createFdLock.goto point) := by
  refine ⟨{ hs.live with
      lock_old := ?_, destroyed_old := ?_, lock_live := ?_, slot_live := ?_, counted := ?_,
      point_ok := ?_ }, { hs.paced with locked := ?_ }⟩
  · intro lock hnew
    rw [← Option.some.inj hnew]
    exact Nat.lt_succ_self _
  · intro lock hdestroyed
    exact Nat.lt_succ_of_lt (hs.live.destroyed_old lock hdestroyed)
  · intro lock hnew
    right
    rw [← Option.some.inj hnew]
    exact fun hdestroyed => Nat.lt_irrefl _ (hs.live.destroyed_old _ hdestroyed)
  · intro fd connection hslot
    exact Or.inl (hs.live.holds hstale hslot)
  · exact fun _ => Option.some_ne_none _
  · cases point <;> exact hpoint
  · exact fun _ _ => Option.some_ne_none _

theorem Sound.createLock {s : State} (hs : Sound s) {handle : Nat}
    (hcaller : s.caller = .createLock handle) (rc : Int) :
    Sound (createLockStep s handle rc) := by
  have hstale : s.caller.stale = none := by rw [hcaller]; rfl
  have hforget : s.caller ≠ .forgetLock := by simp [hcaller]
  have hpoint := hs.live.point_ok
  rw [hcaller] at hpoint
  cases hlock : s.fdLock with
  | some lock =>
      simp only [createLockStep, hlock]
      exact hs.goto (by simp [hstale]) hforget ⟨hpoint, by simp [hlock]⟩
  | none =>
      simp only [createLockStep, hlock]
      split
      · exact hs.createFdLock hstale ⟨hpoint, Option.some_ne_none _⟩
      · exact hs.goto (by simp [hstale]) hforget trivial

theorem Sound.takeSlot {s : State} (hs : Sound s) {handle : Nat}
    (hcaller : s.caller = .takeSlot handle) : Sound (takeSlotStep s handle) := by
  have hstale : s.caller.stale = none := by rw [hcaller]; rfl
  have hforget : s.caller ≠ .forgetLock := by simp [hcaller]
  have hpoint := hs.live.point_ok
  rw [hcaller] at hpoint
  rw [takeSlotStep]
  cases hfind : (List.finRange cmMaxFdNum).find? fun slot => (s.cmFd slot).isNone with
  | none => exact hs.goto (by simp [hstale]) hforget trivial
  | some slot =>
      have hfree : s.cmFd slot = none := by simpa using List.find?_some hfind
      refine ⟨{ hs.live with lock_live := ?_, slot_live := ?_, point_ok := trivial },
        { hs.paced with calling := ?_ }⟩
      · intro lock hlock
        exact Or.inr (hs.live.unlocked hforget hlock)
      · intro fd connection hslot
        change Function.update s.cmFd slot (some handle) fd = some connection at hslot
        by_cases hsame : fd = slot
        · rw [hsame, Function.update_self] at hslot
          exact Or.inl (hpoint.1.trans hslot)
        · rw [Function.update_of_ne hsame] at hslot
          exact Or.inl (hs.live.holds hstale hslot)
      · intro thread other connection hcalling
        change Function.update s.cmFd slot (some handle) other = some connection
        have hread := hs.paced.calling thread other connection hcalling
        have hother : other ≠ slot := by
          rintro rfl
          rw [hfree] at hread
          cases hread
        rw [Function.update_of_ne hother, hread]

theorem Sound.dropConnection {s : State} (hs : Sound s) {fd : Int}
    (hcaller : s.caller = .dropConnection fd) (hfree : ∀ other, ¬ s.Holds other) :
    Sound (s.mqttClose.2.finish fd) := by
  have hstale : s.caller.stale = none := by rw [hcaller]; rfl
  have hforget : s.caller ≠ .forgetLock := by simp [hcaller]
  cases hmqtt : s.mqttConncection with
  | none =>
      simp only [State.mqttClose, hmqtt]
      exact hs.finish hstale hforget fd
  | some connection =>
      simp only [State.mqttClose, hmqtt]
      refine ⟨{ hs.live with
          lock_live := ?_, connection_old := ?_, closed_old := ?_, connection_live := ?_,
          slot_live := ?_, point_ok := trivial }, { hs.paced with }⟩
      · intro lock hlock
        exact Or.inr (hs.live.unlocked hforget hlock)
      · intro other hother
        cases hother
      · exact List.forall_mem_cons.mpr
          ⟨hs.live.connection_old connection hmqtt, hs.live.closed_old⟩
      · intro other hother
        cases hother
      · intro slot other hslot
        exact absurd ⟨other, hslot, hs.live.holds hstale hslot⟩ (hfree slot)

theorem State.fdIsValid_lock {s : State} {fd : Int} {slot : Fin cmMaxFdNum}
    (hvalid : s.fdIsValid fd = some slot) : s.fdLock ≠ none := by
  rw [State.fdIsValid] at hvalid
  split at hvalid
  · next hlock => exact Option.isSome_iff_ne_none.mp hlock
  · cases hvalid

/-- The points that only rely on the lock may be reached with any count. -/
theorem Sound.counted {s : State} (hs : Sound s) {point : CallPoint} {count : Int32}
    (codes : List Int) (hlock : s.fdLock ≠ none) (hstale : s.caller.stale = none)
    (hforget : s.caller ≠ .forgetLock)
    (hpoint : { s with initedConnNum := count }.PointOk point) :
    Sound { s with initedConnNum := count, caller := point, codes := codes } := by
  refine ⟨{ hs.live with lock_live := ?_, slot_live := ?_, counted := ?_, point_ok := ?_ },
    { hs.paced with }⟩
  · intro lock hnew
    exact Or.inr (hs.live.unlocked hforget hnew)
  · intro fd connection hslot
    exact Or.inl (hs.live.holds hstale hslot)
  · exact fun _ => hlock
  · cases point <;> exact hpoint

theorem Sound.connectFunc {s : State} (hs : Sound s) (hcaller : s.caller = .connectFunc)
    (rc : Int) : Sound (connectFuncStep s rc) := by
  have hstale : s.caller.stale = none := by rw [hcaller]; rfl
  have hforget : s.caller ≠ .forgetLock := by simp [hcaller]
  have hpoint := hs.live.point_ok
  rw [hcaller] at hpoint
  cases hmqtt : s.mqttConncection with
  | none =>
      simp only [connectFuncStep, hmqtt]
      exact hs.finish hstale hforget _
  | some connection =>
      simp only [connectFuncStep, hmqtt]
      split
      · exact hs.goto (by simp [hstale]) hforget hpoint
      · exact hs.finish hstale hforget rc

theorem Sound.countConnection {s : State} (hs : Sound s)
    (hcaller : s.caller = .countConnection) : Sound (countConnectionStep s) := by
  have hstale : s.caller.stale = none := by rw [hcaller]; rfl
  have hforget : s.caller ≠ .forgetLock := by simp [hcaller]
  have hpoint := hs.live.point_ok
  rw [hcaller] at hpoint
  rw [countConnectionStep]
  dsimp only
  split
  · exact hs.counted s.codes hpoint hstale hforget hpoint
  · exact hs.counted _ hpoint hstale hforget trivial

/-- The new thread is the only one that runs. -/
theorem Sound.createThread {s : State} (hs : Sound s) (hcaller : s.caller = .createThread)
    {rc : Int} (hquiet : rc < 0 ∨ s.Quiet) : Sound (createThreadStep s rc) := by
  have hstale : s.caller.stale = none := by rw [hcaller]; rfl
  have hforget : s.caller ≠ .forgetLock := by simp [hcaller]
  have hpoint := hs.live.point_ok
  rw [hcaller] at hpoint
  rw [createThreadStep]
  split
  · exact hs.counted _ hpoint hstale hforget trivial
  · next hcreated =>
      have hothers := hquiet.resolve_left hcreated
      have hnew : ∀ thread, (Function.update s.threads s.threadCount .created thread).Running →
          thread = s.threadCount := by
        intro thread hrunning
        by_contra hother
        rw [Function.update_of_ne hother] at hrunning
        exact hothers thread hrunning
      have hbody : ∀ thread,
          ¬ (Function.update s.threads s.threadCount .created thread).InBody := by
        intro thread hbody
        rw [hnew thread hbody.running, Function.update_self] at hbody
        exact hbody
      have hmoved := hs.finish hstale hforget rc
      refine ⟨{ hmoved.live with point_ok := trivial }, ⟨?_, ?_, ?_, ?_, ?_⟩⟩
      · intro first second hfirst hsecond
        exact (hnew first hfirst).trans (hnew second hsecond).symm
      · intro thread hrunning hstarted
        refine absurd ?_ hstarted
        change Function.update s.threads s.threadCount .created thread = .created
        rw [hnew thread hrunning, Function.update_self]
      · exact fun thread hinside => absurd hinside (hbody thread)
      · intro thread slot connection hcalling
        refine absurd ?_ (hbody thread)
        change Function.update s.threads s.threadCount .created thread = _ at hcalling
        rw [hcalling]
        trivial
      · intro thread hlarge
        have hlater : s.threadCount < thread := hlarge
        change Function.update s.threads s.threadCount .created thread = .unborn
        rw [Function.update_of_ne (Nat.ne_of_gt hlater)]
        exact hs.paced.unborn thread (Nat.le_of_lt hlater)

theorem Sound.uncountConnection {s : State} (hs : Sound s) {fd : Fin cmMaxFdNum}
    (hcaller : s.caller = .uncountConnection fd) : Sound (uncountConnectionStep s fd) := by
  have hstale : s.caller.stale = none := by rw [hcaller]; rfl
  have hforget : s.caller ≠ .forgetLock := by simp [hcaller]
  have hpoint := hs.live.point_ok
  rw [hcaller] at hpoint
  have hcounted : ∀ count : Int32, Sound ({ s with initedConnNum := count }.goto
      (if count = 0 then .awaitLeave fd else .closeFunc fd)) := by
    intro count
    split
    · next hzero => exact hs.counted s.codes hpoint hstale hforget ⟨hpoint, hzero⟩
    · next hcount =>
        exact hs.counted s.codes hpoint hstale hforget
          ⟨hpoint, fun hzero => absurd hzero hcount⟩
  exact hcounted _

/-- The flag says that the thread has left, and a thread in the loop says that it has not. -/
theorem Sound.awaitLeave {s : State} (hs : Sound s) {fd : Fin cmMaxFdNum}
    (hcaller : s.caller = .awaitLeave fd) (hleave : s.yieldTaskLeave = true) :
    Sound (s.goto (.closeFunc fd)) := by
  have hpoint := hs.live.point_ok
  rw [hcaller] at hpoint
  refine hs.goto (by simp [hcaller, CallPoint.stale]) (by simp [hcaller]) ⟨hpoint.1, ?_⟩
  intro _ thread hbody
  have hstarted : s.threads thread ≠ .created := by
    intro hcreated
    rw [hcreated] at hbody
    exact hbody
  have hannounced := hs.paced.announced thread hbody.running hstarted
  rw [hleave] at hannounced
  cases hannounced

theorem Sound.closeFunc {s : State} (hs : Sound s) {fd : Fin cmMaxFdNum}
    (hcaller : s.caller = .closeFunc fd) (hcount : s.initedConnNum = 0 ∨ s.Quiet)
    (hothers : ∀ other, other ≠ fd → ¬ s.Holds other) :
    Sound (if s.mqttClose.1 ≠ 0 then s.mqttClose.2.finish (-1)
      else s.mqttClose.2.goto (.recycleLock fd)) := by
  have hstale : s.caller.stale = none := by rw [hcaller]; rfl
  have hforget : s.caller ≠ .forgetLock := by simp [hcaller]
  have hpoint := hs.live.point_ok
  rw [hcaller] at hpoint
  cases hmqtt : s.mqttConncection with
  | none =>
      simp only [State.mqttClose, hmqtt]
      rw [if_pos (by decide)]
      exact hs.finish hstale hforget (-1)
  | some connection =>
      simp only [State.mqttClose, hmqtt]
      rw [if_neg (by decide)]
      have hbody : ∀ thread, ¬ (s.threads thread).InBody := by
        intro thread hinside
        rcases hcount with hzero | hquiet
        · exact hpoint.2 hzero thread hinside
        · exact hquiet thread hinside.running
      refine ⟨{ hs.live with
          lock_live := ?_, connection_old := ?_, closed_old := ?_, connection_live := ?_,
          slot_live := ?_, point_ok := ⟨hpoint.1, hcount, hbody⟩ }, { hs.paced with }⟩
      · intro lock hlock
        exact Or.inr (hs.live.unlocked hforget hlock)
      · intro other hother
        cases hother
      · exact List.forall_mem_cons.mpr
          ⟨hs.live.connection_old connection hmqtt, hs.live.closed_old⟩
      · intro other hother
        cases hother
      · intro slot other hslot
        right
        by_cases hsame : slot = fd
        · rw [hsame]
          rfl
        · exact absurd ⟨other, hslot, hs.live.holds hstale hslot⟩ (hothers slot hsame)

theorem Sound.recycleLock {s : State} (hs : Sound s) {fd : Fin cmMaxFdNum}
    (hcaller : s.caller = .recycleLock fd) (rc : Int) : Sound (recycleLockStep s fd rc) := by
  have hpoint := hs.live.point_ok
  rw [hcaller] at hpoint
  cases hlock : s.fdLock with
  | none => exact absurd hlock hpoint.1
  | some lock =>
      simp only [recycleLockStep, hlock]
      exact hs.goto (by simp [hcaller, CallPoint.stale]) (by simp [hcaller]) hpoint

/-- The slot of the closed connection is cleared. -/
theorem Sound.recycleSlot {s : State} (hs : Sound s) {fd : Fin cmMaxFdNum}
    (hcaller : s.caller = .recycleSlot fd) :
    Sound ({ s with cmFd := Function.update s.cmFd fd none }.goto .destroyLock) := by
  have hpoint := hs.live.point_ok
  rw [hcaller] at hpoint
  have hforget : s.caller ≠ .forgetLock := by simp [hcaller]
  refine ⟨{ hs.live with lock_live := ?_, slot_live := ?_, point_ok := hpoint },
    { hs.paced with calling := ?_ }⟩
  · intro lock hlock
    exact Or.inr (hs.live.unlocked hforget hlock)
  · intro slot connection hslot
    left
    change Function.update s.cmFd fd none slot = some connection at hslot
    have hother : slot ≠ fd := by
      rintro rfl
      rw [Function.update_self] at hslot
      cases hslot
    rw [Function.update_of_ne hother] at hslot
    apply (hs.live.slot_live slot connection hslot).resolve_right
    rw [hcaller]
    exact fun hsame => hother (Option.some.inj hsame).symm
  · intro thread slot connection hcalling
    refine absurd ?_ (hpoint.2.2 thread)
    have hthread : s.threads thread = .callYield slot connection := hcalling
    rw [hthread]
    trivial

theorem Sound.destroyLock {s : State} (hs : Sound s) (hcaller : s.caller = .destroyLock) :
    Sound (destroyLockStep s) := by
  have hstale : s.caller.stale = none := by rw [hcaller]; rfl
  have hforget : s.caller ≠ .forgetLock := by simp [hcaller]
  have hpoint := hs.live.point_ok
  rw [hcaller] at hpoint
  rw [destroyLockStep]
  split
  · next hzero =>
      split
      · next lock hlock =>
          refine ⟨{ hs.live with
              destroyed_old := ?_, lock_live := ?_, slot_live := ?_,
              point_ok := ⟨hzero, hpoint.2⟩ }, { hs.paced with }⟩
          · exact List.forall_mem_cons.mpr ⟨hs.live.lock_old lock hlock, hs.live.destroyed_old⟩
          · exact fun _ _ => Or.inl rfl
          · intro fd connection hslot
            exact Or.inl (hs.live.holds hstale hslot)
      · next hlock => exact absurd hlock hpoint.1
  · exact hs.finish hstale hforget 0

theorem Sound.forgetLock {s : State} (hs : Sound s) (hcaller : s.caller = .forgetLock) :
    Sound ({ s with fdLock := none }.finish 0) := by
  have hstale : s.caller.stale = none := by rw [hcaller]; rfl
  have hpoint := hs.live.point_ok
  rw [hcaller] at hpoint
  refine ⟨{ hs.live with
      lock_old := ?_, lock_live := ?_, slot_live := ?_, counted := ?_, point_ok := trivial },
    { hs.paced with locked := ?_ }⟩
  · intro lock hlock
    cases hlock
  · intro lock hlock
    cases hlock
  · intro fd connection hslot
    exact Or.inl (hs.live.holds hstale hslot)
  · exact fun hcount => absurd hpoint.1 hcount
  · exact fun thread hbody => absurd hbody (hpoint.2.2 thread)

theorem Sound.caller {s : State} (hs : Sound s) {rc : Int} (horderly : Orderly s (.caller rc)) :
    Sound (callerStep s rc) := by
  rw [callerStep]
  rw [Orderly] at horderly
  split <;> rename_i hcaller
  · exact hs
  · exact hs.openMqtt hcaller rc
  · exact hs.createLock hcaller rc
  · exact hs.takeSlot hcaller
  · rw [hcaller] at horderly
    exact hs.dropConnection hcaller horderly
  · next fd =>
      cases hvalid : s.fdIsValid fd with
      | none => exact hs.finish (by rw [hcaller]; rfl) (by simp [hcaller]) _
      | some slot =>
          exact hs.goto (by simp [hcaller, CallPoint.stale]) (by simp [hcaller])
            (State.fdIsValid_lock hvalid)
  · exact hs.connectFunc hcaller rc
  · exact hs.countConnection hcaller
  · rw [hcaller] at horderly
    exact hs.createThread hcaller horderly
  · next fd =>
      cases hvalid : s.fdIsValid fd with
      | none => exact hs.finish (by rw [hcaller]; rfl) (by simp [hcaller]) _
      | some slot =>
          exact hs.goto (by simp [hcaller, CallPoint.stale]) (by simp [hcaller])
            (State.fdIsValid_lock hvalid)
  · exact hs.uncountConnection hcaller
  · split
    · next hleave => exact hs.awaitLeave hcaller hleave
    · exact hs
  · rw [hcaller] at horderly
    exact hs.closeFunc hcaller horderly.1 horderly.2
  · exact hs.recycleLock hcaller rc
  · exact hs.recycleSlot hcaller
  · exact hs.destroyLock hcaller
  · exact hs.forgetLock hcaller

/-- An orderly step keeps the invariant. -/
theorem Sound.step {s : State} {action : Action} (hs : Sound s) (horderly : Orderly s action) :
    Sound (step s action) := by
  cases action with
  | start call =>
      rw [CmYield.step]
      split
      · next hidle => exact hs.start hidle call
      · exact hs
  | caller rc => exact hs.caller horderly
  | yielder thread => exact hs.yielder thread

/-! ## Runs -/

theorem Sound.oneInLoop {s : State} (hs : Sound s) : OneInLoop s :=
  fun first second hfirst hsecond =>
    hs.paced.one_running first second hfirst.running hsecond.running

/-- In the body of the loop, neither the lock nor a connection that a slot holds is gone. -/
theorem Sound.liveStep {s : State} (hs : Sound s) (action : Action) : LiveStep s action := by
  cases action with
  | start call => trivial
  | caller rc => trivial
  | yielder thread =>
      have hforget : (s.threads thread).InBody → s.caller ≠ .forgetLock := by
        intro hbody hcaller
        have hpoint := hs.live.point_ok
        rw [hcaller] at hpoint
        exact hpoint.2.2 thread hbody
      have hstale : (s.threads thread).InBody → ∀ fd, s.caller.stale ≠ some fd := by
        intro hbody fd hcaller
        have hpoint := hs.live.point_ok
        cases hat : s.caller <;> rw [hat] at hcaller hpoint <;> cases hcaller
        · exact hpoint.2.2 thread hbody
        · exact hpoint.2.2 thread hbody
      cases hthread : s.threads thread with
      | readSlot slot =>
          have hbody : (s.threads thread).InBody := by
            rw [hthread]
            trivial
          simp only [LiveStep, hthread]
          split
          · next lock hlock => exact hs.live.unlocked (hforget hbody) hlock
          · next hlock => exact hs.paced.locked thread hbody hlock
      | callYield slot connection =>
          have hbody : (s.threads thread).InBody := by
            rw [hthread]
            trivial
          simp only [LiveStep, hthread]
          have hslot := hs.paced.calling thread slot connection hthread
          apply hs.live.connection_live connection
          exact (hs.live.slot_live slot connection hslot).resolve_right (hstale hbody slot)
      | _ => simp only [LiveStep, hthread]

/-- In every run of orderly steps, at most one thread is inside the loop at any time, and
each step of the loop meets a lock and a connection that are still there. -/
theorem oneInLoop_always {actions : List Action}
    (horderly : StepsMeet step Orderly State.initial actions) :
    Always step OneInLoop State.initial actions ∧
      StepsMeet step LiveStep State.initial actions := by
  have halways : Always step Sound State.initial actions :=
    always_of_stepsMeet (fun _ _ hs horderly => hs.step horderly) sound_initial horderly
  exact ⟨halways.mono fun _ hs => hs.oneInLoop,
    halways.stepsMeet fun _ action hs => hs.liveStep action⟩

/-- A connection is opened and connected. -/
def connecting : List Action :=
  [.start (.iotxCmOpen iotxCmProtocolTypeMqtt), .caller 0, .caller 0, .caller 0,
    .start (.iotxCmConnect 0), .caller 0, .caller 0, .caller 0, .caller 0]

/-- It is closed. -/
def closing : List Action :=
  .start (.iotxCmClose 0) :: List.replicate 8 (.caller 0)

/-- The thread starts, is counted out and leaves before the close goes on. -/
def closingAfter : List Action :=
  connecting ++ [.yielder 0] ++ closing.take 3 ++ [.yielder 0, .yielder 0] ++
    List.replicate 6 (.caller 0)

theorem oneInLoop_closingAfter :
    Always step OneInLoop State.initial closingAfter ∧
      StepsMeet step LiveStep State.initial closingAfter := by
  apply oneInLoop_always
  refine ⟨trivial, trivial, trivial, trivial, trivial, trivial, trivial, trivial,
    Or.inr fun _ hrunning => hrunning, trivial, trivial, trivial, trivial, trivial, trivial,
    trivial, ⟨Or.inl rfl, ?_⟩, trivial, trivial, trivial, trivial, trivial⟩
  rintro other hother ⟨connection, hslot, -⟩
  have hfree : (runFrom step State.initial (closingAfter.take 16)).cmFd other = none :=
    Function.update_of_ne hother _ _
  exact absurd (hslot.symm.trans hfree) (Option.some_ne_none connection)

/-- It is connected again before the first yield thread has started, and then both threads
enter the loop. -/
def reconnecting : List Action :=
  connecting ++ closing ++ connecting ++
    [.yielder 0, .yielder 0, .yielder 0, .yielder 1, .yielder 1]

/-- It is closed while the second thread leaves: 3 steps of the close up to the wait, the
steps of the thread, and the rest of the close. -/
def closingBetween : List Action :=
  closing.take 3 ++ List.replicate 8 (.yielder 1) ++ List.replicate 6 (.caller 0) ++
    [.yielder 0]

theorem not_oneInLoop_reconnecting :
    ¬ Always step OneInLoop State.initial reconnecting ∧
      ¬ StepsMeet step LiveStep State.initial (reconnecting ++ closingBetween) := by
  constructor
  · intro halways
    have hone := halways.finish 0 1 (by decide) (by decide)
    cases hone
  · decide

end EnosDeviceSdk.DevModel.CmYield
