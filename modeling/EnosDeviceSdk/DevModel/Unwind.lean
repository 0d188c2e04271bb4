/-
# Opening and closing the device model

`IOT_EnOS_Open` creates three mutexes of its own and opens the modules one after another,
each of which creates a mutex and initialises a list. Where a module cannot be opened,
`iotx_dm_open` unwinds: it deinitialises every module, whether it was initialised or not.
`IOT_EnOS_Close` runs the same deinitialization. The handles of the mutexes that it destroys
stay in the contexts of the modules.

Every function is given by the operations on mutexes and lists that it performs, in the order
of the source. They are logged, and the memory is what the log makes of zeroed contexts. The
log also says where a call counts `inited_conn_num`, creates a yield thread or waits for one.
Here a call is run without the yield threads; it reads nothing that they write but, in its
wait, `yield_task_leave`.
-/

import EnosDeviceSdk.DevModel.Connection
import EnosDeviceSdk.Library.Handles

namespace EnosDeviceSdk.DevModel.Unwind

open EnosDeviceSdk.Infra EnosDeviceSdk.Library EnosDeviceSdk.Library.Handles
open EnosDeviceSdk.DevModel.Connection (ConnectionTable iotxCmOpenMqtt iotxCmOpen iotxCmConnect
  iotxCmClose mqttConnect fdIsValid lockOrCreate)

/-- The static variables with mutex handles: three of `iotx_enos_ctx_t`, the `mutex` of each
module's context, and `fd_lock` of the connection manager. -/
inductive MutexVar
  | mutex | upstreamMutex | commandListMutex
  | dmApi | dmMsgCache | dmIpc | dmMgr
  | fdLock
  deriving DecidableEq

/-- The lists whose heads are static. -/
inductive DmList
  | upstreamSyncCallbackList | downstreamCommandList
  | dmcList | messageList | devList
  deriving DecidableEq

/-- An operation on one of these. -/
abbrev DmOperation := Operation MutexVar DmList

/-- Who performs an operation: the thread that makes the calls, or a yield thread. -/
inductive Agent
  | caller
  | thread (index : Nat)
  deriving DecidableEq

/-- The states of the mutexes and lists. -/
abbrev DmLedger := Ledger MutexVar DmList Agent

/-- What a call does that a yield thread can tell: it performs an operation, gives
`inited_conn_num` a value, creates a yield thread, or waits for `yield_task_leave`. -/
inductive Mark
  | operation (operation : DmOperation)
  | connNum (count : Int)
  | createThread
  | awaitLeave
  deriving DecidableEq

/-- The operations among the marks. -/
def operationsOf (marks : List Mark) : List DmOperation :=
  marks.filterMap fun
    | .operation operation => some operation
    | _ => none

/-- The flags of `iotx_enos_ctx_t`, the descriptor of the cloud connection, the number of
messages in `dmc_list`, the table of connections, and the marks so far. -/
structure World where
  isOpened : Bool
  isConnected : Bool
  yieldRunning : Bool
  fd : Int
  cached : Nat
  table : ConnectionTable
  log : List Mark

/-- Before the first call. -/
def World.initial : World where
  isOpened := false
  isConnected := false
  yieldRunning := false
  fd := 0
  cached := 0
  table := ⟨false, fun _ => none, 0, none, 0⟩
  log := []

/-- Marks are logged. -/
def World.write (w : World) (marks : List Mark) : World := { w with log := w.log ++ marks }

/-- Operations are performed. -/
def World.perform (w : World) (operations : List DmOperation) : World :=
  w.write (operations.map .operation)

/-- The mutexes and the lists after the operations so far. -/
def World.memory (w : World) : Memory MutexVar DmList Agent :=
  runFrom (Memory.step Agent.caller) Memory.zero (operationsOf w.log)

/-- Every operation so far was allowed in the memory that it found. -/
def Lawful (w : World) : Prop :=
  StepsMeet (Memory.step Agent.caller) (Memory.Allows Agent.caller) Memory.zero (operationsOf w.log)

/-- Which steps of an open succeed: the creation of each mutex, the allocation of the local
device's node, of the connection and of its parameters. -/
structure OpenOutcome where
  mutexOk : MutexVar → Bool
  deviceOk : Bool
  mallocOk : Bool
  paramOk : Bool

/-! ## The modules -/

/-- `dm_msg_cache_init` -/
def dmMsgCacheInit (w : World) (mutexOk : Bool) : Int × World :=
  let zeroed := { w with cached := 0 }.perform
    [.clear .dmMsgCache, .wipe .dmcList, .create .dmMsgCache mutexOk]
  if mutexOk then (successReturn, zeroed.perform [.initList .dmcList])
  else (stateSysDependMutexCreate, zeroed)

/-- `dm_msg_cache_deinit`, which unlocks once for every message and once more behind the
loop. -/
def dmMsgCacheDeinit (w : World) : World :=
  let locked := { w with cached := 0 }.perform [.lock .dmMsgCache, .traverse .dmcList]
  let emptied := locked.perform (List.replicate w.cached (.unlock .dmMsgCache))
  emptied.perform [.unlock .dmMsgCache, .destroy .dmMsgCache]

/-- `dm_ipc_init` -/
def dmIpcInit (w : World) (mutexOk : Bool) : Int × World :=
  let zeroed := w.perform [.clear .dmIpc, .wipe .messageList, .create .dmIpc mutexOk]
  if mutexOk then (successReturn, zeroed.perform [.initList .messageList])
  else (stateSysDependMutexCreate, zeroed)

/-- `dm_ipc_deinit` -/
def dmIpcDeinit (w : World) : World := w.perform [.destroy .dmIpc, .traverse .messageList]

/-- `dm_mgr_init`, with the search of `_dm_mgr_insert_dev`. Its error path zeroes the
context. -/
def dmMgrInit (w : World) (mutexOk deviceOk : Bool) : Int × World :=
  let zeroed := w.perform [.clear .dmMgr, .wipe .devList, .create .dmMgr mutexOk]
  if mutexOk then
    let searched := zeroed.perform [.initList .devList, .traverse .devList]
    if deviceOk then (successReturn, searched)
    else
      (stateSysDependMalloc,
        searched.perform [.destroy .dmMgr, .clear .dmMgr, .wipe .devList])
  else (stateSysDependMutexCreate, zeroed.perform [.clear .dmMgr, .wipe .devList])

/-- `dm_mgr_deinit` -/
def dmMgrDeinit (w : World) : World :=
  w.perform [.lock .dmMgr, .traverse .devList, .unlock .dmMgr, .destroy .dmMgr]

/-! ## The cloud connection -/

/-- A section under `fd_lock`. -/
def fdSection : List DmOperation := [.lock .fdLock, .unlock .fdLock]

/-- `_get_fd` for the connection that `iotx_cm_open` gets. -/
def cmOpenOperations (table : ConnectionTable) (mallocOk paramOk mutexOk : Bool) :
    List DmOperation :=
  if (iotxCmOpenMqtt table mallocOk paramOk).1 = none then []
  else
    (if table.fdLock then [] else [.create .fdLock mutexOk]) ++
      if lockOrCreate table mutexOk then fdSection else []

/-- `_fd_is_valid`, and the section that looks up a function of a valid descriptor. -/
def cmLookupOperations (table : ConnectionTable) (fd : Int) : List DmOperation :=
  if table.fdLock then
    fdSection ++ if (fdIsValid table fd).isSome then fdSection else []
  else []

/-- What `iotx_cm_connect` does behind its `connect_func`: a connect that succeeds is counted,
and the first one creates a yield thread. -/
def cmConnectMarks (table : ConnectionTable) (fd : Int) (connectOk threadOk : Bool) :
    List Mark :=
  if (fdIsValid table fd).isSome ∧ mqttConnect table connectOk = 0 then
    .connNum (table.initedConnNum + 1) ::
      if table.initedConnNum + 1 = 1 then
        if threadOk then [.createThread] else [.connNum table.initedConnNum]
      else []
  else []

/-- How `iotx_cm_close` counts a connect out. The last one waits for the yield thread. -/
def cmUncountMarks (table : ConnectionTable) : List Mark :=
  let count :=
    if table.initedConnNum > 0 then table.initedConnNum - 1 else table.initedConnNum
  (if table.initedConnNum > 0 then [.connNum count] else []) ++
    if count = 0 then [.awaitLeave] else []

/-- `iotx_cm_close` behind the count: the lookup of `close_func`, `_recycle_fd` where that
succeeds, and the end of `fd_lock` where the last connect is counted out. -/
def cmReleaseOperations (table : ConnectionTable) (fd : Int) : List DmOperation :=
  fdSection ++
    if table.mqttConncection.isSome then
      fdSection ++
        if (iotxCmClose table fd true).2.fdLock then [] else [.destroy .fdLock, .clear .fdLock]
    else []

/-- `iotx_cm_close` -/
def cmCloseMarks (table : ConnectionTable) (fd : Int) : List Mark :=
  (if table.fdLock then fdSection else []).map .operation ++
    if (fdIsValid table fd).isSome then
      cmUncountMarks table ++ (cmReleaseOperations table fd).map .operation
    else []

/-- `dm_client_open` -/
def dmClientOpen (w : World) (mallocOk paramOk mutexOk : Bool) : Int × World :=
  let (res, table) := iotxCmOpen w.table mallocOk paramOk mutexOk
  let opened := { w with table := table }.perform
    (cmOpenOperations w.table mallocOk paramOk mutexOk)
  if res < successReturn then (res, { opened with fd := 0 })
  else (successReturn, { opened with fd := res })

/-- `dm_client_close` -/
def dmClientClose (w : World) : World :=
  { w with table := (iotxCmClose w.table w.fd true).2 }.write (cmCloseMarks w.table w.fd)

/-! ## The device model -/

/-- The error path of `iotx_dm_open`. -/
def dmOpenError (w : World) : World :=
  (dmMsgCacheDeinit (dmIpcDeinit (dmMgrDeinit (dmClientClose w)))).perform [.destroy .dmApi]

/-- `iotx_dm_open`. `dm_msg_init` zeroes a context without mutex and list. -/
def iotxDmOpen (w : World) (outcome : OpenOutcome) : Int × World :=
  let begun := w.perform [.clear .dmApi, .create .dmApi (outcome.mutexOk .dmApi)]
  if !outcome.mutexOk .dmApi then (stateSysDependMutexCreate, begun)
  else
    let cache := dmMsgCacheInit begun (outcome.mutexOk .dmMsgCache)
    if cache.1 ≠ successReturn then (cache.1, dmOpenError cache.2)
    else
      let ipc := dmIpcInit cache.2 (outcome.mutexOk .dmIpc)
      if ipc.1 ≠ successReturn then (ipc.1, dmOpenError ipc.2)
      else
        let mgr := dmMgrInit ipc.2 (outcome.mutexOk .dmMgr) outcome.deviceOk
        if mgr.1 ≠ successReturn then (mgr.1, dmOpenError mgr.2)
        else
          let client :=
            dmClientOpen mgr.2 outcome.mallocOk outcome.paramOk (outcome.mutexOk .fdLock)
          if client.1 < successReturn then (client.1, dmOpenError client.2)
          else (successReturn, client.2)

/-- `iotx_dm_close` -/
def iotxDmClose (w : World) : World :=
  (dmMsgCacheDeinit (dmIpcDeinit (dmMgrDeinit (dmClientClose w)))).perform [.destroy .dmApi]

/-- What the environment does in a connect: whether the client is constructed, the thread is
created and the message about the connection is allocated, whether the local device is found,
and how many calls of `iotx_cm_sub` and `iotx_cm_unsub` the subscriptions take. -/
structure ConnectOutcome where
  connectOk : Bool
  threadOk : Bool
  messageOk : Bool
  found : Bool
  subscriptions : Nat

/-- `iotx_dm_connect`. A client that is constructed queues a message for the user. -/
def iotxDmConnect (w : World) (outcome : ConnectOutcome) : Int × World :=
  let (res, table) := iotxCmConnect w.table w.fd outcome.connectOk outcome.threadOk
  let looked := { w with table := table }.perform (cmLookupOperations w.table w.fd)
  let connected :=
    if (fdIsValid w.table w.fd).isSome ∧ outcome.connectOk ∧ outcome.messageOk then
      looked.perform [.lock .dmIpc, .unlock .dmIpc]
    else looked
  (res, connected.write (cmConnectMarks w.table w.fd outcome.connectOk outcome.threadOk))

/-- `iotx_dm_subscribe` for the local device, which two searches look up. -/
def iotxDmSubscribe (w : World) (outcome : ConnectOutcome) : Int × World :=
  let locked := w.perform [.lock .dmApi, .traverse .devList]
  if outcome.found then
    let subscribed := (locked.perform [.traverse .devList]).perform
      (List.replicate outcome.subscriptions (cmLookupOperations w.table w.fd)).flatten
    (successReturn, subscribed.perform [.unlock .dmApi])
  else (stateDevModelDeviceNotFound, locked.perform [.unlock .dmApi])

/-! ## The calls -/

/-- `_iotx_enos_master_open` in a gateway build. -/
def iotxEnosMasterOpen (w : World) (outcome : OpenOutcome) : Int × World :=
  if w.isOpened then (stateDevModelMasterAlreadyOpen, w)
  else
    let created := w.perform [.create .mutex (outcome.mutexOk .mutex)]
    if !outcome.mutexOk .mutex then (stateSysDependMutexCreate, created)
    else
      let upstream := created.perform
        [.create .upstreamMutex (outcome.mutexOk .upstreamMutex)]
      if !outcome.mutexOk .upstreamMutex then
        (stateSysDependMutexCreate, upstream.perform [.destroy .mutex])
      else
        let command := upstream.perform
          [.create .commandListMutex (outcome.mutexOk .commandListMutex)]
        if !outcome.mutexOk .commandListMutex then
          (stateSysDependMutexCreate,
            command.perform [.destroy .mutex, .destroy .upstreamMutex])
        else
          let opened := iotxDmOpen command outcome
          if opened.1 ≠ successReturn then
            (opened.1, opened.2.perform
              [.destroy .upstreamMutex, .destroy .commandListMutex, .destroy .mutex])
          else
            (successReturn, { opened.2 with isOpened := true }.perform
              [.initList .upstreamSyncCallbackList, .initList .downstreamCommandList])

/-- `_iotx_enos_master_connect` -/
def iotxEnosMasterConnect (w : World) (outcome : ConnectOutcome) : Int × World :=
  if w.isConnected then (stateDevModelMasterAlreadyConnect, w)
  else
    let connected := iotxDmConnect w outcome
    if connected.1 ≠ successReturn then connected
    else
      let subscribed := iotxDmSubscribe connected.2 outcome
      if subscribed.1 ≠ successReturn then subscribed
      else (successReturn, { subscribed.2 with isConnected := true, yieldRunning := true })

/-- `IOT_EnOS_Connect` for the local device. -/
def iotEnosConnect (w : World) (outcome : ConnectOutcome) : Int × World :=
  if !w.isOpened then (stateDevModelMasterNotOpenYet, w)
  else
    let connected := iotxEnosMasterConnect (w.perform [.lock .mutex]) outcome
    (connected.1, connected.2.perform [.unlock .mutex])

/-- `_iotx_enos_master_close`, where `isYieldRunning` is the flag of a yield. While it runs, the
yield thread may handle replies to some of the cached messages. -/
def iotxEnosMasterClose (w : World) (isYieldRunning : Bool) (answered : Nat) : Int × World :=
  let stopped := { w with yieldRunning := false, cached := w.cached - answered }
  if isYieldRunning then (stateDevModelYieldRunning, stopped)
  else
    let locked := stopped.perform [.lock .mutex]
    if !w.isOpened then (stateDevModelMasterNotOpenYet, locked.perform [.unlock .mutex])
    else
      let closed := iotxDmClose locked
      (successReturn,
        { closed with isOpened := false, isConnected := false, yieldRunning := false }.perform
          [.traverse .upstreamSyncCallbackList, .destroy .upstreamMutex,
            .unlock .mutex, .destroy .mutex,
            .lock .commandListMutex, .traverse .downstreamCommandList, .unlock .commandListMutex,
            .destroy .commandListMutex,
            .clear .mutex, .clear .upstreamMutex, .clear .commandListMutex,
            .wipe .upstreamSyncCallbackList, .wipe .downstreamCommandList])

/-- A call. Between the calls, requests and replies change the number of cached messages. -/
inductive EnosCall
  | openMaster (outcome : OpenOutcome)
  | connect (outcome : ConnectOutcome)
  | close (isYieldRunning : Bool) (answered : Nat)
  | traffic (cached : Nat)

/-- The world after a call. -/
def step (w : World) : EnosCall → World
  | .openMaster outcome => (iotxEnosMasterOpen w outcome).2
  | .connect outcome => (iotEnosConnect w outcome).2
  | .close isYieldRunning answered => (iotxEnosMasterClose w isYieldRunning answered).2
  | .traffic cached => if w.isOpened then { w with cached := cached } else w

/-! ## What the operations are allowed in -/

/-- The ledger after the operations so far. -/
def World.ledger (w : World) : DmLedger :=
  runFrom (Ledger.step Agent.caller) Memory.zero.ledger (operationsOf w.log)

theorem ledger_memory (w : World) : w.memory.ledger = w.ledger :=
  (Memory.stepsMeet_ledger_one apart_zero Agent.caller (operationsOf w.log)).2

theorem lawful_iff (w : World) :
    Lawful w ↔ StepsMeet (Ledger.step Agent.caller) (Ledger.Allows Agent.caller) Memory.zero.ledger
      (operationsOf w.log) :=
  (Memory.stepsMeet_ledger_one apart_zero Agent.caller (operationsOf w.log)).1

instance (w : World) : Decidable (Lawful w) := decidable_of_iff _ (lawful_iff w).symm

@[simp]
theorem operationsOf_append (first second : List Mark) :
    operationsOf (first ++ second) = operationsOf first ++ operationsOf second :=
  List.filterMap_append

@[simp]
theorem operationsOf_map (operations : List DmOperation) :
    operationsOf (operations.map .operation) = operations := by
  rw [operationsOf, List.filterMap_map]
  exact List.filterMap_some

@[simp]
theorem lawful_write (w : World) (marks : List Mark) :
    Lawful (w.write marks) ↔
      Lawful w ∧ StepsMeet (Ledger.step Agent.caller) (Ledger.Allows Agent.caller) w.ledger
        (operationsOf marks) := by
  rw [lawful_iff, lawful_iff, World.write, operationsOf_append, stepsMeet_append, World.ledger]

@[simp]
theorem ledger_write (w : World) (marks : List Mark) :
    (w.write marks).ledger = runFrom (Ledger.step Agent.caller) w.ledger (operationsOf marks) := by
  rw [World.ledger, World.write, operationsOf_append, runFrom_append, World.ledger]

@[simp]
theorem lawful_perform (w : World) (operations : List DmOperation) :
    Lawful (w.perform operations) ↔
      Lawful w ∧ StepsMeet (Ledger.step Agent.caller) (Ledger.Allows Agent.caller) w.ledger
        operations := by
  rw [World.perform, lawful_write, operationsOf_map]

@[simp]
theorem ledger_perform (w : World) (operations : List DmOperation) :
    (w.perform operations).ledger = runFrom (Ledger.step Agent.caller) w.ledger operations := by
  rw [World.perform, ledger_write, operationsOf_map]

theorem lawful_dmMsgCacheInit (w : World) (mutexOk : Bool) :
    Lawful (dmMsgCacheInit w mutexOk).2 ↔ Lawful w := by
  have hcached : Lawful { w with cached := 0 } ↔ Lawful w := Iff.rfl
  cases mutexOk <;> simp [dmMsgCacheInit, Ledger.Allows, hcached]

theorem lawful_dmIpcInit (w : World) (mutexOk : Bool) :
    Lawful (dmIpcInit w mutexOk).2 ↔ Lawful w := by
  cases mutexOk <;> simp [dmIpcInit, Ledger.Allows]

theorem lawful_dmMgrInit (w : World) (mutexOk deviceOk : Bool) :
    Lawful (dmMgrInit w mutexOk deviceOk).2 ↔ Lawful w := by
  cases mutexOk <;> cases deviceOk <;> simp [dmMgrInit, Ledger.Allows, Ledger.step]

theorem lawful_dmMgrDeinit (w : World) :
    Lawful (dmMgrDeinit w) ↔ Lawful w ∧
      w.ledger.state .dmMgr ≠ some .destroyed ∧ w.ledger.ready .devList = true := by
  cases hstate : w.ledger.state .dmMgr with
  | none => simp [dmMgrDeinit, Ledger.Allows, Ledger.step, Ledger.turn, hstate]
  | some state => simp [dmMgrDeinit, Ledger.Allows, Ledger.step, Ledger.turn, hstate]

theorem lawful_dmIpcDeinit (w : World) :
    Lawful (dmIpcDeinit w) ↔ Lawful w ∧
      w.ledger.state .dmIpc ≠ some .destroyed ∧ w.ledger.ready .messageList = true := by
  simp [dmIpcDeinit, Ledger.Allows, Ledger.step, Ledger.turn]

/-- The loop unlocks once for every message, and the last unlock finds a mutex that is
free. -/
theorem lawful_dmMsgCacheDeinit (w : World) :
    Lawful (dmMsgCacheDeinit w) ↔ Lawful w ∧
      w.ledger.state .dmMsgCache ≠ some .destroyed ∧ w.ledger.ready .dmcList = true ∧
        (w.cached = 0 ∨ w.ledger.state .dmMsgCache = none) := by
  have hcached : Lawful { w with cached := 0 } ↔ Lawful w := Iff.rfl
  have hledger : World.ledger { w with cached := 0 } = w.ledger := rfl
  rw [dmMsgCacheDeinit]
  cases hstate : w.ledger.state .dmMsgCache with
  | none =>
      have hturn := @Ledger.turn_null _ _ _ _ _ _ hstate
      obtain ⟨hunlocks, hemptied⟩ := @Ledger.replicate_unlock_null _ _ _ _ _ Agent.caller _ _
        hstate w.cached
      simp only [lawful_perform, ledger_perform, stepsMeet_cons, stepsMeet_nil, runFrom_cons,
        runFrom_nil, hcached, hledger, Ledger.step, hturn, hunlocks, hemptied]
      simp [Ledger.Allows, hstate]
  | some state =>
      cases hcount : w.cached with
      | zero =>
          simp [hcached, hledger, Ledger.Allows, Ledger.step, Ledger.turn, hstate]
      | succ count =>
          cases count <;>
            simp [hcached, hledger, List.replicate_succ, Ledger.Allows, Ledger.step,
              Ledger.turn, hstate]

/-! ## What a function leaves alone -/

/-- `fd_lock` is null or names a mutex that is free, as the table says. -/
def LockMatches (w : World) : Prop :=
  w.ledger.state .fdLock = if w.table.fdLock then some .free else none

/-- Only the variables and the lists that are named are changed. -/
structure Frame (w w' : World) (vars : List MutexVar) (lists : List DmList) : Prop where
  state : ∀ var, var ∉ vars → w'.ledger.state var = w.ledger.state var
  ready : ∀ list, list ∉ lists → w'.ledger.ready list = w.ledger.ready list
  isOpened : w'.isOpened = w.isOpened
  matched : LockMatches w → LockMatches w'

theorem Frame.trans {first second third : World} {vars : List MutexVar} {lists : List DmList}
    (hfirst : Frame first second vars lists) (hsecond : Frame second third vars lists) :
    Frame first third vars lists := by
  constructor
  · intro var hvar
    rw [hsecond.state var hvar, hfirst.state var hvar]
  · intro list hlist
    rw [hsecond.ready list hlist, hfirst.ready list hlist]
  · rw [hsecond.isOpened, hfirst.isOpened]
  · exact fun hmatch => hsecond.matched (hfirst.matched hmatch)

/-- Operations on other variables than `fd_lock` leave the rest alone. -/
theorem frame_perform (w : World) {operations : List DmOperation} {vars : List MutexVar}
    {lists : List DmList} (hfdLock : .fdLock ∉ vars)
    (hvars : ∀ operation ∈ operations, ∀ var, operation.var = some var → var ∈ vars)
    (hlists : ∀ operation ∈ operations, ∀ list, operation.list = some list → list ∈ lists) :
    Frame w (w.perform operations) vars lists := by
  have hstate : ∀ var, var ∉ vars →
      (w.perform operations).ledger.state var = w.ledger.state var := by
    intro var hvar
    rw [ledger_perform]
    exact Ledger.state_runFrom fun operation hmem hsame => hvar (hvars operation hmem var hsame)
  refine ⟨hstate, ?_, rfl, ?_⟩
  · intro list hlist
    rw [ledger_perform]
    exact Ledger.ready_runFrom fun operation hmem hsame =>
      hlist (hlists operation hmem list hsame)
  · intro hmatch
    rw [LockMatches, hstate .fdLock hfdLock]
    exact hmatch

theorem frame_dmMsgCacheInit (w : World) (mutexOk : Bool) :
    Frame w (dmMsgCacheInit w mutexOk).2 [.dmMsgCache] [.dmcList] := by
  have hcached : Frame w { w with cached := 0 } [.dmMsgCache] [.dmcList] :=
    ⟨fun _ _ => rfl, fun _ _ => rfl, rfl, id⟩
  cases mutexOk with
  | false =>
      simp only [dmMsgCacheInit, Bool.false_eq_true, if_false]
      refine hcached.trans (frame_perform _ ?_ ?_ ?_) <;> simp [Operation.var, Operation.list]
  | true =>
      simp only [dmMsgCacheInit, if_true]
      refine (hcached.trans (frame_perform _ ?_ ?_ ?_)).trans (frame_perform _ ?_ ?_ ?_) <;>
        simp [Operation.var, Operation.list]

theorem frame_dmMsgCacheDeinit (w : World) :
    Frame w (dmMsgCacheDeinit w) [.dmMsgCache] [] := by
  have hcached : Frame w { w with cached := 0 } [.dmMsgCache] [] :=
    ⟨fun _ _ => rfl, fun _ _ => rfl, rfl, id⟩
  rw [dmMsgCacheDeinit]
  refine ((hcached.trans (frame_perform _ ?_ ?_ ?_)).trans (frame_perform _ ?_ ?_ ?_)).trans
    (frame_perform _ ?_ ?_ ?_) <;> simp +contextual [Operation.var, Operation.list]

theorem frame_dmIpcInit (w : World) (mutexOk : Bool) :
    Frame w (dmIpcInit w mutexOk).2 [.dmIpc] [.messageList] := by
  cases mutexOk with
  | false =>
      simp only [dmIpcInit, Bool.false_eq_true, if_false]
      apply frame_perform <;> simp [Operation.var, Operation.list]
  | true =>
      simp only [dmIpcInit, if_true]
      refine (frame_perform _ ?_ ?_ ?_).trans (frame_perform _ ?_ ?_ ?_) <;>
        simp [Operation.var, Operation.list]

theorem frame_dmIpcDeinit (w : World) : Frame w (dmIpcDeinit w) [.dmIpc] [] := by
  apply frame_perform <;> simp [Operation.var, Operation.list]

theorem frame_dmMgrInit (w : World) (mutexOk deviceOk : Bool) :
    Frame w (dmMgrInit w mutexOk deviceOk).2 [.dmMgr] [.devList] := by
  cases mutexOk with
  | false =>
      simp only [dmMgrInit, Bool.false_eq_true, if_false]
      refine (frame_perform _ ?_ ?_ ?_).trans (frame_perform _ ?_ ?_ ?_) <;>
        simp [Operation.var, Operation.list]
  | true =>
      cases deviceOk with
      | false =>
          simp only [dmMgrInit, Bool.false_eq_true, if_false, if_true]
          refine ((frame_perform _ ?_ ?_ ?_).trans (frame_perform _ ?_ ?_ ?_)).trans
            (frame_perform _ ?_ ?_ ?_) <;> simp [Operation.var, Operation.list]
      | true =>
          simp only [dmMgrInit, if_true]
          refine (frame_perform _ ?_ ?_ ?_).trans (frame_perform _ ?_ ?_ ?_) <;>
            simp [Operation.var, Operation.list]

theorem frame_dmMgrDeinit (w : World) : Frame w (dmMgrDeinit w) [.dmMgr] [] := by
  apply frame_perform <;> simp [Operation.var, Operation.list]

/-! ## What a function leaves behind -/

theorem dmMsgCacheInit_ready (w : World) :
    (dmMsgCacheInit w true).2.ledger.state .dmMsgCache = some .free ∧
      (dmMsgCacheInit w true).2.ledger.ready .dmcList = true := by
  simp [dmMsgCacheInit, Ledger.step]

theorem dmIpcInit_ready (w : World) :
    (dmIpcInit w true).2.ledger.state .dmIpc = some .free ∧
      (dmIpcInit w true).2.ledger.ready .messageList = true := by
  simp [dmIpcInit, Ledger.step]

theorem dmMgrInit_ready (w : World) :
    (dmMgrInit w true true).2.ledger.state .dmMgr = some .free ∧
      (dmMgrInit w true true).2.ledger.ready .devList = true := by
  simp [dmMgrInit, Ledger.step]

/-- Where the initialization of the manager fails, its list is zero again. -/
theorem dmMgrInit_failed (w : World) {mutexOk deviceOk : Bool}
    (hfailed : (mutexOk && deviceOk) = false) :
    (dmMgrInit w mutexOk deviceOk).2.ledger.ready .devList = false := by
  cases mutexOk with
  | false => simp [dmMgrInit, Ledger.step]
  | true =>
      obtain rfl : deviceOk = false := hfailed
      simp [dmMgrInit, Ledger.step]

theorem dmMgrDeinit_state (w : World) :
    (dmMgrDeinit w).ledger.state .dmMgr = (w.ledger.state .dmMgr).map fun _ => .destroyed := by
  cases hstate : w.ledger.state .dmMgr <;>
    simp [dmMgrDeinit, Ledger.step, Ledger.turn, hstate]

/-! ## The cloud connection -/

theorem fdSection_free {l : DmLedger} (hfree : l.state .fdLock = some .free) :
    StepsMeet (Ledger.step Agent.caller) (Ledger.Allows Agent.caller) l fdSection ∧
      runFrom (Ledger.step Agent.caller) l fdSection = l :=
  Ledger.section_free (Or.inr hfree)

theorem LockMatches.free {w : World} (hmatch : LockMatches w) (hlock : w.table.fdLock = true) :
    w.ledger.state .fdLock = some .free := by
  rw [hmatch, if_pos hlock]

/-- Looking up a function of a descriptor leaves everything as it was. -/
theorem lookup_matched {w : World} (hmatch : LockMatches w) (fd : Int) :
    StepsMeet (Ledger.step Agent.caller) (Ledger.Allows Agent.caller) w.ledger
        (cmLookupOperations w.table fd) ∧
      runFrom (Ledger.step Agent.caller) w.ledger (cmLookupOperations w.table fd) = w.ledger := by
  rw [cmLookupOperations]
  split
  · next hlock =>
      obtain ⟨hmeet, hsame⟩ := fdSection_free (hmatch.free hlock)
      rw [stepsMeet_append, runFrom_append, hsame]
      split
      · exact ⟨⟨hmeet, hmeet⟩, hsame⟩
      · exact ⟨⟨hmeet, trivial⟩, rfl⟩
  · exact ⟨trivial, rfl⟩

theorem lookups_matched {w : World} (hmatch : LockMatches w) (fd : Int) (count : Nat) :
    StepsMeet (Ledger.step Agent.caller) (Ledger.Allows Agent.caller) w.ledger
        (List.replicate count (cmLookupOperations w.table fd)).flatten ∧
      runFrom (Ledger.step Agent.caller) w.ledger
        (List.replicate count (cmLookupOperations w.table fd)).flatten = w.ledger := by
  obtain ⟨hmeet, hsame⟩ := lookup_matched hmatch fd
  induction count with
  | zero => exact ⟨trivial, rfl⟩
  | succ count ih =>
      rw [List.replicate_succ, List.flatten_cons, stepsMeet_append, runFrom_append, hsame]
      exact ⟨⟨hmeet, ih.1⟩, ih.2⟩

theorem lock_of_valid {table : ConnectionTable} {fd : Int}
    (hvalid : (fdIsValid table fd).isSome) : table.fdLock = true := by
  rw [fdIsValid] at hvalid
  split at hvalid
  · next hlock => exact hlock
  · cases hvalid

/-- A close that fails does not destroy the lock. -/
theorem iotxCmClose_lock {table : ConnectionTable} {fd : Int}
    (hfailed : ¬ ((fdIsValid table fd).isSome ∧ table.mqttConncection.isSome)) :
    (iotxCmClose table fd true).2.fdLock = table.fdLock := by
  rw [iotxCmClose]
  cases hvalid : fdIsValid table fd with
  | none => rfl
  | some slot =>
      have hnone : table.mqttConncection = none := by
        rw [hvalid] at hfailed
        simpa using hfailed
      simp [Connection.mqttClose, hnone, stateDevModelInternalMqttNotInitYet]

theorem iotxCmConnect_lock (table : ConnectionTable) (fd : Int) (connectOk threadOk : Bool) :
    (iotxCmConnect table fd connectOk threadOk).2.fdLock = table.fdLock := by
  rw [iotxCmConnect]
  split
  · rfl
  · dsimp only
    split
    · split
      · split <;> rfl
      · rfl
    · rfl

theorem iotxCmOpenMqtt_lock (table : ConnectionTable) (mallocOk paramOk : Bool) :
    (iotxCmOpenMqtt table mallocOk paramOk).2.fdLock = table.fdLock := by
  rw [iotxCmOpenMqtt]
  split
  · rfl
  · split <;> rfl

theorem mqttClose_lock (table : ConnectionTable) :
    (Connection.mqttClose table).2.fdLock = table.fdLock := by
  rw [Connection.mqttClose]
  split <;> rfl

theorem getFd_lock (table : ConnectionTable) (handle : Nat) (mutexOk : Bool) :
    (Connection.getFd table handle mutexOk).2.fdLock = lockOrCreate table mutexOk := by
  rw [Connection.getFd]
  cases hlock : lockOrCreate table mutexOk with
  | false =>
      have hnone := hlock
      rw [lockOrCreate, Bool.or_eq_false_iff] at hnone
      exact hnone.1
  | true =>
      simp only [Bool.not_true, Bool.false_eq_true, if_false]
      split <;> rfl

theorem iotxCmOpen_lock (table : ConnectionTable) (mallocOk paramOk mutexOk : Bool) :
    (iotxCmOpen table mallocOk paramOk mutexOk).2.fdLock =
      if (iotxCmOpenMqtt table mallocOk paramOk).1 = none then table.fdLock
      else lockOrCreate table mutexOk := by
  have hsame := iotxCmOpenMqtt_lock table mallocOk paramOk
  rw [iotxCmOpen]
  cases hopened : iotxCmOpenMqtt table mallocOk paramOk with
  | mk connection opened =>
      rw [hopened] at hsame
      cases connection with
      | none => exact hsame
      | some handle =>
          have hlock : lockOrCreate opened mutexOk = lockOrCreate table mutexOk := by
            rw [lockOrCreate, lockOrCreate]
            exact congrArg (· || mutexOk) hsame
          rw [if_neg (by simp), ← hlock, ← getFd_lock opened handle mutexOk]
          dsimp only
          split
          · exact mqttClose_lock _
          · rfl

/-- A function of the connection manager uses `fd_lock` as it may, and nothing else. -/
structure CmFrame (w w' : World) : Prop where
  lawful : Lawful w' ↔ Lawful w
  matched : LockMatches w'
  frame : Frame w w' [.fdLock] []

/-- What the operations on `fd_lock` leave behind is for the table to match. -/
theorem cmFrame_write {w : World} {marks : List Mark} {table : ConnectionTable} (fd : Int)
    (hmeet : StepsMeet (Ledger.step Agent.caller) (Ledger.Allows Agent.caller) w.ledger
      (operationsOf marks))
    (honly : ∀ operation ∈ operationsOf marks, operation.var = some .fdLock)
    (hmatch : (runFrom (Ledger.step Agent.caller) w.ledger (operationsOf marks)).state .fdLock =
      if table.fdLock then some .free else none) :
    CmFrame w ({ w with table := table, fd := fd }.write marks) := by
  have hledger : (World.write { w with table := table, fd := fd } marks).ledger =
      runFrom (Ledger.step Agent.caller) w.ledger (operationsOf marks) := ledger_write w marks
  refine ⟨?_, ?_, ?_⟩
  · have hlawful : Lawful (World.write { w with table := table, fd := fd } marks) ↔
        Lawful w ∧ StepsMeet (Ledger.step Agent.caller) (Ledger.Allows Agent.caller) w.ledger
          (operationsOf marks) := lawful_write w marks
    rw [hlawful, and_iff_left hmeet]
  · rw [LockMatches, hledger]
    exact hmatch
  · refine ⟨?_, ?_, rfl, fun _ => ?_⟩
    · intro var hvar
      rw [hledger]
      apply Ledger.state_runFrom
      intro operation hmem hsame
      rw [honly operation hmem] at hsame
      exact hvar (List.mem_singleton.mpr (Option.some.inj hsame).symm)
    · intro list _
      rw [hledger]
      apply Ledger.ready_runFrom
      intro operation hmem hsame
      have hlock := honly operation hmem
      cases operation <;> cases hsame <;> cases hlock
    · rw [LockMatches, hledger]
      exact hmatch

theorem cmFrame_perform {w : World} {operations : List DmOperation} {table : ConnectionTable}
    (fd : Int)
    (hmeet : StepsMeet (Ledger.step Agent.caller) (Ledger.Allows Agent.caller) w.ledger
      operations)
    (honly : ∀ operation ∈ operations, operation.var = some .fdLock)
    (hmatch : (runFrom (Ledger.step Agent.caller) w.ledger operations).state .fdLock =
      if table.fdLock then some .free else none) :
    CmFrame w ({ w with table := table, fd := fd }.perform operations) := by
  apply cmFrame_write
  · rw [operationsOf_map]
    exact hmeet
  · rw [operationsOf_map]
    exact honly
  · rw [operationsOf_map]
    exact hmatch

theorem var_fdSection : ∀ operation ∈ fdSection, operation.var = some .fdLock := by decide

theorem var_lookup (table : ConnectionTable) (fd : Int) :
    ∀ operation ∈ cmLookupOperations table fd, operation.var = some .fdLock := by
  rw [cmLookupOperations]
  split
  · refine List.forall_mem_append.mpr ⟨var_fdSection, ?_⟩
    split
    · exact var_fdSection
    · simp
  · simp

theorem operationsOf_cmConnectMarks (table : ConnectionTable) (fd : Int)
    (connectOk threadOk : Bool) :
    operationsOf (cmConnectMarks table fd connectOk threadOk) = [] := by
  rw [cmConnectMarks]
  split
  · split
    · cases threadOk <;> rfl
    · rfl
  · rfl

theorem operationsOf_cmUncountMarks (table : ConnectionTable) :
    operationsOf (cmUncountMarks table) = [] := by
  rw [cmUncountMarks]
  rw [operationsOf_append, apply_ite operationsOf, apply_ite operationsOf]
  exact List.append_eq_nil_iff.mpr ⟨ite_self _, ite_self _⟩

/-- Behind the lookup of the function, `iotx_cm_close` recycles the descriptor of a connection
that there is. -/
theorem operationsOf_cmCloseMarks (table : ConnectionTable) (fd : Int) :
    operationsOf (cmCloseMarks table fd) = cmLookupOperations table fd ++
      if (fdIsValid table fd).isSome ∧ table.mqttConncection.isSome then
        fdSection ++
          if (iotxCmClose table fd true).2.fdLock then [] else [.destroy .fdLock, .clear .fdLock]
      else [] := by
  rw [cmCloseMarks, cmLookupOperations, operationsOf_append, operationsOf_map]
  cases hvalid : (fdIsValid table fd).isSome with
  | true =>
      have hlock := lock_of_valid hvalid
      cases hconnection : table.mqttConncection.isSome <;>
        simp [hlock, cmReleaseOperations, operationsOf_cmUncountMarks, hconnection]
  | false => simp [operationsOf]

theorem cmFrame_dmClientClose {w : World} (hmatch : LockMatches w) :
    CmFrame w (dmClientClose w) := by
  obtain ⟨hlookup, hsame⟩ := lookup_matched hmatch w.fd
  rw [dmClientClose]
  by_cases hvalid : (fdIsValid w.table w.fd).isSome ∧ w.table.mqttConncection.isSome
  · have hfree := hmatch.free (lock_of_valid hvalid.1)
    obtain ⟨hsection, hsection'⟩ := fdSection_free hfree
    cases hlock : (iotxCmClose w.table w.fd true).2.fdLock with
    | true =>
        have hoperations : operationsOf (cmCloseMarks w.table w.fd) =
            cmLookupOperations w.table w.fd ++ fdSection := by
          rw [operationsOf_cmCloseMarks, if_pos hvalid, hlock, if_pos rfl, List.append_nil]
        apply cmFrame_write <;> rw [hoperations]
        · rw [stepsMeet_append, hsame]
          exact ⟨hlookup, hsection⟩
        · exact List.forall_mem_append.mpr ⟨var_lookup _ _, var_fdSection⟩
        · rw [runFrom_append, hsame, hsection', hfree, hlock, if_pos rfl]
    | false =>
        have hoperations : operationsOf (cmCloseMarks w.table w.fd) =
            cmLookupOperations w.table w.fd ++
              (fdSection ++ [.destroy .fdLock, .clear .fdLock]) := by
          rw [operationsOf_cmCloseMarks, if_pos hvalid, hlock, if_neg Bool.false_ne_true]
        apply cmFrame_write <;> rw [hoperations]
        · rw [stepsMeet_append, hsame, stepsMeet_append, hsection']
          refine ⟨hlookup, hsection, ?_⟩
          simp [Ledger.Allows, hfree]
        · refine List.forall_mem_append.mpr ⟨var_lookup _ _, ?_⟩
          exact List.forall_mem_append.mpr ⟨var_fdSection, by decide⟩
        · rw [runFrom_append, hsame, runFrom_append, hsection', hlock]
          simp [Ledger.step]
  · have hoperations : operationsOf (cmCloseMarks w.table w.fd) =
        cmLookupOperations w.table w.fd := by
      rw [operationsOf_cmCloseMarks, if_neg hvalid, List.append_nil]
    apply cmFrame_write <;> rw [hoperations]
    · exact hlookup
    · exact var_lookup _ _
    · rw [hsame, iotxCmClose_lock hvalid]
      exact hmatch

theorem cmFrame_dmClientOpen {w : World} (hmatch : LockMatches w)
    (mallocOk paramOk mutexOk : Bool) :
    CmFrame w (dmClientOpen w mallocOk paramOk mutexOk).2 := by
  have hlock := iotxCmOpen_lock w.table mallocOk paramOk mutexOk
  have hperform : ∀ fd, CmFrame w
      (World.perform
        { w with
          table := (iotxCmOpen w.table mallocOk paramOk mutexOk).2
          fd := fd }
        (cmOpenOperations w.table mallocOk paramOk mutexOk)) := by
    intro fd
    rw [cmOpenOperations]
    by_cases hopened : (iotxCmOpenMqtt w.table mallocOk paramOk).1 = none
    · rw [if_pos hopened]
      rw [if_pos hopened] at hlock
      apply cmFrame_perform
      · trivial
      · simp
      · rw [hlock]
        exact hmatch
    · rw [if_neg hopened]
      rw [if_neg hopened] at hlock
      rw [lockOrCreate] at hlock ⊢
      cases hthere : w.table.fdLock with
      | true =>
          rw [hthere, Bool.true_or] at hlock
          obtain ⟨hsection, hsame⟩ := fdSection_free (hmatch.free hthere)
          apply cmFrame_perform
          · exact hsection
          · exact var_fdSection
          · rw [hlock]
            exact (congrArg (fun l => Ledger.state l .fdLock) hsame).trans (hmatch.free hthere)
      | false =>
          rw [hthere, Bool.false_or] at hlock
          cases mutexOk with
          | false =>
              apply cmFrame_perform
              · simp [Ledger.Allows]
              · decide
              · rw [hlock]
                simp [Ledger.step]
          | true =>
              apply cmFrame_perform
              · simp [fdSection, Ledger.Allows, Ledger.step, Ledger.turn]
              · decide
              · rw [hlock]
                simp [fdSection, Ledger.step, Ledger.turn]
  rw [dmClientOpen]
  split
  next res table hopen =>
    dsimp only
    rw [hopen] at hperform
    split
    · exact hperform 0
    · exact hperform res

/-! ## While the device model is open -/

/-- Everything is created and initialised, and no mutex is held but, perhaps, the first. -/
structure Usable (w : World) (first : MutexState Agent) : Prop where
  lawful : Lawful w
  matched : LockMatches w
  mutex : w.ledger.state .mutex = some first
  free : ∀ var, var ≠ .mutex → var ≠ .fdLock → w.ledger.state var = some .free
  ready : ∀ list, w.ledger.ready list = true

theorem Usable.of_log {w w' : World} {first : MutexState Agent} (hw : Usable w first)
    (hlog : w'.log = w.log) (hlock : w'.table.fdLock = w.table.fdLock) : Usable w' first := by
  have hledger : w'.ledger = w.ledger := by
    rw [World.ledger, hlog, World.ledger]
  refine ⟨?_, ?_, ?_, ?_, ?_⟩
  · rw [Lawful, hlog]
    exact hw.lawful
  · rw [LockMatches, hledger, hlock]
    exact hw.matched
  · rw [hledger]
    exact hw.mutex
  · rw [hledger]
    exact hw.free
  · rw [hledger]
    exact hw.ready

/-- Operations that leave the ledger as it was keep everything usable. -/
theorem Usable.write {w : World} {first : MutexState Agent} (hw : Usable w first)
    {marks : List Mark}
    (hsame : StepsMeet (Ledger.step Agent.caller) (Ledger.Allows Agent.caller) w.ledger
        (operationsOf marks) ∧
      runFrom (Ledger.step Agent.caller) w.ledger (operationsOf marks) = w.ledger) :
    Usable (w.write marks) first := by
  have hledger : (w.write marks).ledger = w.ledger := by
    rw [ledger_write, hsame.2]
  refine ⟨(lawful_write w marks).mpr ⟨hw.lawful, hsame.1⟩, ?_, ?_, ?_, ?_⟩
  · rw [LockMatches, hledger]
    exact hw.matched
  · rw [hledger]
    exact hw.mutex
  · rw [hledger]
    exact hw.free
  · rw [hledger]
    exact hw.ready

theorem Usable.perform {w : World} {first : MutexState Agent} (hw : Usable w first)
    {operations : List DmOperation}
    (hsame : StepsMeet (Ledger.step Agent.caller) (Ledger.Allows Agent.caller) w.ledger
        operations ∧
      runFrom (Ledger.step Agent.caller) w.ledger operations = w.ledger) :
    Usable (w.perform operations) first := by
  apply hw.write
  rw [operationsOf_map]
  exact hsame

theorem Usable.dmConnect {w : World} {first : MutexState Agent} (hw : Usable w first)
    (outcome : ConnectOutcome) : Usable (iotxDmConnect w outcome).2 first := by
  have hlock := iotxCmConnect_lock w.table w.fd outcome.connectOk outcome.threadOk
  have hlookup := lookup_matched hw.matched w.fd
  have hlooked : Usable
      ({ w with table := (iotxCmConnect w.table w.fd outcome.connectOk outcome.threadOk).2
        }.perform (cmLookupOperations w.table w.fd)) first :=
    (hw.perform hlookup).of_log rfl hlock
  have hcounted : ∀ {connected : World}, Usable connected first → Usable (connected.write
      (cmConnectMarks w.table w.fd outcome.connectOk outcome.threadOk)) first := by
    intro connected hconnected
    apply hconnected.write
    rw [operationsOf_cmConnectMarks]
    exact ⟨trivial, rfl⟩
  rw [iotxDmConnect]
  apply hcounted
  split
  · apply hlooked.perform
    exact Ledger.section_free (Or.inr (hlooked.free .dmIpc (by decide) (by decide)))
  · exact hlooked

theorem perform_perform (w : World) (first second : List DmOperation) :
    (w.perform first).perform second = w.perform (first ++ second) := by
  simp [World.perform, World.write, List.append_assoc]

/-- The searches and the subscriptions lie between the lock and the unlock of the API. -/
theorem Usable.dmSubscribe {w : World} {first : MutexState Agent} (hw : Usable w first)
    (outcome : ConnectOutcome) : Usable (iotxDmSubscribe w outcome).2 first := by
  have hfree := hw.free .dmApi (by decide) (by decide)
  have hready : (w.ledger.turn .dmApi (.held .caller)).ready .devList = true := hw.ready .devList
  have hlocked : LockMatches (w.perform [.lock .dmApi]) := by
    have hframe : Frame w (w.perform [.lock .dmApi]) [.dmApi] [] := by
      apply frame_perform <;> simp [Operation.var, Operation.list]
    exact hframe.matched hw.matched
  have hheld : (w.perform [.lock .dmApi]).ledger = w.ledger.turn .dmApi (.held .caller) :=
    ledger_perform w [.lock .dmApi]
  obtain ⟨hlookups, hsame⟩ := lookups_matched hlocked w.fd outcome.subscriptions
  rw [hheld] at hlookups hsame
  rw [iotxDmSubscribe]
  dsimp only
  split
  · rw [perform_perform, perform_perform, perform_perform]
    apply hw.perform
    have hinner : StepsMeet (Ledger.step Agent.caller) (Ledger.Allows Agent.caller)
        (w.ledger.turn .dmApi (.held .caller))
        ([.traverse .devList, .traverse .devList] ++
          (List.replicate outcome.subscriptions (cmLookupOperations w.table w.fd)).flatten) :=
      ⟨hready, hready, hlookups⟩
    exact Ledger.section_around hfree ⟨hinner, hsame⟩
  · rw [perform_perform]
    apply hw.perform
    have hinner : StepsMeet (Ledger.step Agent.caller) (Ledger.Allows Agent.caller)
        (w.ledger.turn .dmApi (.held .caller))
        [.traverse .devList] := ⟨hready, trivial⟩
    exact Ledger.section_around hfree ⟨hinner, rfl⟩

/-- The device model is open. -/
structure Opened (w : World) : Prop where
  isOpened : w.isOpened = true
  usable : Usable w .free

theorem iotxDmConnect_isOpened (w : World) (outcome : ConnectOutcome) :
    (iotxDmConnect w outcome).2.isOpened = w.isOpened := by
  rw [iotxDmConnect]
  dsimp only
  split <;> rfl

theorem iotxDmSubscribe_isOpened (w : World) (outcome : ConnectOutcome) :
    (iotxDmSubscribe w outcome).2.isOpened = w.isOpened := by
  rw [iotxDmSubscribe]
  dsimp only
  split <;> rfl

theorem Usable.masterConnect {w : World} {first : MutexState Agent} (hw : Usable w first)
    (outcome : ConnectOutcome) :
    Usable (iotxEnosMasterConnect w outcome).2 first ∧
      (iotxEnosMasterConnect w outcome).2.isOpened = w.isOpened := by
  have hconnected := hw.dmConnect outcome
  have hsubscribed := hconnected.dmSubscribe outcome
  have hopened := iotxDmConnect_isOpened w outcome
  have hstill := iotxDmSubscribe_isOpened (iotxDmConnect w outcome).2 outcome
  rw [iotxEnosMasterConnect]
  split
  · exact ⟨hw, rfl⟩
  · dsimp only
    split
    · exact ⟨hconnected, hopened⟩
    · split
      · exact ⟨hsubscribed, hstill.trans hopened⟩
      · exact ⟨hsubscribed.of_log rfl rfl, hstill.trans hopened⟩

/-- The first mutex alone changes its state. -/
theorem Usable.turn {w : World} {first last : MutexState Agent} (hw : Usable w first)
    {operation : DmOperation} (hallows : w.ledger.Allows .caller operation)
    (hstep : w.ledger.step .caller operation = w.ledger.turn .mutex last) :
    Usable (w.perform [operation]) last := by
  have hledger : (w.perform [operation]).ledger = w.ledger.turn .mutex last := by
    rw [ledger_perform, runFrom_cons, runFrom_nil, hstep]
  have hothers : ∀ var, var ≠ .mutex →
      (w.perform [operation]).ledger.state var = w.ledger.state var := by
    intro var hvar
    rw [hledger]
    exact Function.update_of_ne hvar _ _
  refine ⟨(lawful_perform w _).mpr ⟨hw.lawful, hallows, trivial⟩, ?_, ?_, ?_, ?_⟩
  · rw [LockMatches, hothers .fdLock (by decide)]
    exact hw.matched
  · rw [hledger]
    simp [Ledger.turn, hw.mutex]
  · intro var hmutex hlock
    rw [hothers var hmutex]
    exact hw.free var hmutex hlock
  · rw [hledger]
    exact hw.ready

theorem Opened.connect {w : World} (hw : Opened w) (outcome : ConnectOutcome) :
    Opened (iotEnosConnect w outcome).2 := by
  have hlocked : Usable (w.perform [.lock .mutex]) (.held .caller) := by
    refine hw.usable.turn ?_ rfl
    simp [Ledger.Allows, hw.usable.mutex]
  obtain ⟨hconnected, hopened⟩ := hlocked.masterConnect outcome
  have hisOpened : (!w.isOpened) = false := by rw [hw.isOpened]; rfl
  simp only [iotEnosConnect, hisOpened, Bool.false_eq_true, if_false]
  refine ⟨hopened.trans hw.isOpened, hconnected.turn ?_ rfl⟩
  exact Or.inr hconnected.mutex

/-! ## Unwinding -/

theorem Frame.mono {w w' : World} {vars vars' : List MutexVar} {lists lists' : List DmList}
    (hframe : Frame w w' vars lists) (hvars : vars ⊆ vars') (hlists : lists ⊆ lists') :
    Frame w w' vars' lists' :=
  ⟨fun var hvar => hframe.state var fun hmem => hvar (hvars hmem),
    fun list hlist => hframe.ready list fun hmem => hlist (hlists hmem),
    hframe.isOpened, hframe.matched⟩

/-- The variables of the modules. -/
def moduleVars : List MutexVar := [.dmApi, .dmMsgCache, .dmIpc, .dmMgr, .fdLock]

/-- The lists of the modules. -/
def moduleLists : List DmList := [.dmcList, .messageList, .devList]

/-- The modules can be deinitialised: no mutex of theirs is destroyed, their lists are
initialised, and no message is cached. -/
structure ModulesReady (w : World) : Prop where
  api : w.ledger.state .dmApi ≠ some .destroyed
  mgr : w.ledger.state .dmMgr ≠ some .destroyed ∧ w.ledger.ready .devList = true
  ipc : w.ledger.state .dmIpc ≠ some .destroyed ∧ w.ledger.ready .messageList = true
  cache : w.ledger.state .dmMsgCache ≠ some .destroyed ∧ w.ledger.ready .dmcList = true ∧
    (w.cached = 0 ∨ w.ledger.state .dmMsgCache = none)

/-- The error path of `iotx_dm_open`, which is `iotx_dm_close` as well, is lawful exactly
where every module can be deinitialised. -/
theorem lawful_dmOpenError {w : World} (hmatch : LockMatches w) :
    Lawful (dmOpenError w) ↔ Lawful w ∧ ModulesReady w := by
  have hclose := cmFrame_dmClientClose hmatch
  have hmgr := frame_dmMgrDeinit (dmClientClose w)
  have hipc := frame_dmIpcDeinit (dmMgrDeinit (dmClientClose w))
  have hcache := frame_dmMsgCacheDeinit (dmIpcDeinit (dmMgrDeinit (dmClientClose w)))
  have hcached : (dmIpcDeinit (dmMgrDeinit (dmClientClose w))).cached = w.cached := rfl
  rw [dmOpenError, lawful_perform, lawful_dmMsgCacheDeinit, lawful_dmIpcDeinit,
    lawful_dmMgrDeinit, hclose.lawful, stepsMeet_cons, hcached,
    hipc.state .dmMsgCache (by decide), hmgr.state .dmMsgCache (by decide),
    hclose.frame.state .dmMsgCache (by decide), hipc.ready .dmcList (by decide),
    hmgr.ready .dmcList (by decide), hclose.frame.ready .dmcList (by decide),
    hmgr.state .dmIpc (by decide), hclose.frame.state .dmIpc (by decide),
    hmgr.ready .messageList (by decide), hclose.frame.ready .messageList (by decide),
    hclose.frame.state .dmMgr (by decide), hclose.frame.ready .devList (by decide)]
  have hapi : (dmMsgCacheDeinit (dmIpcDeinit (dmMgrDeinit (dmClientClose w)))).ledger.Allows
      .caller (.destroy .dmApi) ↔ w.ledger.state .dmApi ≠ some .destroyed := by
    rw [Ledger.Allows, hcache.state .dmApi (by decide), hipc.state .dmApi (by decide),
      hmgr.state .dmApi (by decide), hclose.frame.state .dmApi (by decide)]
  rw [hapi]
  constructor
  · rintro ⟨⟨⟨⟨hlawful, hmgrReady⟩, hipcReady⟩, hcacheReady⟩, hapiReady, _⟩
    exact ⟨hlawful, hapiReady, hmgrReady, hipcReady, hcacheReady⟩
  · rintro ⟨hlawful, hapiReady, hmgrReady, hipcReady, hcacheReady⟩
    exact ⟨⟨⟨⟨hlawful, hmgrReady⟩, hipcReady⟩, hcacheReady⟩, hapiReady, trivial⟩

theorem frame_dmOpenError {w : World} (hmatch : LockMatches w) :
    Frame w (dmOpenError w) moduleVars [] := by
  have hclose := (cmFrame_dmClientClose hmatch).frame
  have hapi : Frame (dmMsgCacheDeinit (dmIpcDeinit (dmMgrDeinit (dmClientClose w))))
      (dmOpenError w) [.dmApi] [] := by
    apply frame_perform <;> simp [Operation.var, Operation.list]
  have hwiden : ∀ {before after : World} {vars : List MutexVar}, Frame before after vars [] →
      vars ⊆ moduleVars → Frame before after moduleVars [] :=
    fun hframe hvars => hframe.mono hvars (List.Subset.refl [])
  exact ((((hwiden hclose (by decide)).trans
    (hwiden (frame_dmMgrDeinit _) (by decide))).trans
    (hwiden (frame_dmIpcDeinit _) (by decide))).trans
    (hwiden (frame_dmMsgCacheDeinit _) (by decide))).trans (hwiden hapi (by decide))

/-- Unwinding leaves the handle of a destroyed mutex in the manager's context. -/
theorem dmOpenError_mgr {w : World} (hmatch : LockMatches w) :
    (dmOpenError w).ledger.state .dmMgr = (w.ledger.state .dmMgr).map fun _ => .destroyed := by
  have hapi : Frame (dmMsgCacheDeinit (dmIpcDeinit (dmMgrDeinit (dmClientClose w))))
      (dmOpenError w) [.dmApi] [] := by
    apply frame_perform <;> simp [Operation.var, Operation.list]
  rw [hapi.state .dmMgr (by decide), (frame_dmMsgCacheDeinit _).state .dmMgr (by decide),
    (frame_dmIpcDeinit _).state .dmMgr (by decide), dmMgrDeinit_state,
    (cmFrame_dmClientClose hmatch).frame.state .dmMgr (by decide)]

/-! ## Opening -/

/-- The manager was not initialised since it was last deinitialised, if ever. -/
def Spent (w : World) : Prop :=
  ¬ (w.ledger.state .dmMgr ≠ some .destroyed ∧ w.ledger.ready .devList = true)

/-- The modules that `iotx_dm_open` opens before the connection are initialised. -/
def OpenOutcome.InitsModules (outcome : OpenOutcome) : Prop :=
  outcome.mutexOk .dmMsgCache = true ∧ outcome.mutexOk .dmIpc = true ∧
    outcome.mutexOk .dmMgr = true ∧ outcome.deviceOk = true

/-- The modules are initialised. -/
structure ModulesFree (w : World) : Prop where
  free : ∀ var ∈ moduleVars, var ≠ .fdLock → w.ledger.state var = some .free
  ready : ∀ list ∈ moduleLists, w.ledger.ready list = true
  empty : w.cached = 0

theorem ModulesFree.modulesReady {w : World} (hw : ModulesFree w) : ModulesReady w := by
  have hfree : ∀ var ∈ moduleVars, var ≠ .fdLock → w.ledger.state var ≠ some .destroyed := by
    intro var hvar hlock
    rw [hw.free var hvar hlock]
    decide
  exact
    { api := hfree .dmApi (by decide) (by decide)
      mgr := ⟨hfree .dmMgr (by decide) (by decide), hw.ready .devList (by decide)⟩
      ipc := ⟨hfree .dmIpc (by decide) (by decide), hw.ready .messageList (by decide)⟩
      cache := ⟨hfree .dmMsgCache (by decide) (by decide), hw.ready .dmcList (by decide),
        Or.inl hw.empty⟩ }

theorem Spent.frame {w w' : World} {vars : List MutexVar} {lists : List DmList} (hw : Spent w)
    (hframe : Frame w w' vars lists) (hvar : .dmMgr ∉ vars) (hlist : .devList ∉ lists) :
    Spent w' := by
  rw [Spent, hframe.state .dmMgr hvar, hframe.ready .devList hlist]
  exact hw

/-- Unwinding a manager that is not initialised is not lawful. -/
theorem Spent.not_lawful {w : World} (hw : Spent w) (hmatch : LockMatches w) :
    ¬ Lawful (dmOpenError w) :=
  fun hlawful => hw ((lawful_dmOpenError hmatch).mp hlawful).2.mgr

theorem dmMsgCacheInit_res (w : World) (mutexOk : Bool) :
    (dmMsgCacheInit w mutexOk).1 ≠ successReturn ↔ mutexOk = false := by
  cases mutexOk <;> simp [dmMsgCacheInit, successReturn, stateSysDependMutexCreate]

theorem dmIpcInit_res (w : World) (mutexOk : Bool) :
    (dmIpcInit w mutexOk).1 ≠ successReturn ↔ mutexOk = false := by
  cases mutexOk <;> simp [dmIpcInit, successReturn, stateSysDependMutexCreate]

theorem dmMgrInit_res (w : World) (mutexOk deviceOk : Bool) :
    (dmMgrInit w mutexOk deviceOk).1 ≠ successReturn ↔ (mutexOk && deviceOk) = false := by
  cases mutexOk <;> cases deviceOk <;>
    simp [dmMgrInit, successReturn, stateSysDependMutexCreate, stateSysDependMalloc]

/-- The world in which the connection is opened. -/
def managed (w : World) : World :=
  (dmMgrInit (dmIpcInit (dmMsgCacheInit
    (w.perform [.clear .dmApi, .create .dmApi true]) true).2 true).2 true true).2

theorem iotxDmOpen_inits {w : World} {outcome : OpenOutcome}
    (hapi : outcome.mutexOk .dmApi = true) (hinits : outcome.InitsModules) :
    iotxDmOpen w outcome =
      (let client := dmClientOpen (managed w) outcome.mallocOk outcome.paramOk
        (outcome.mutexOk .fdLock)
      if client.1 < successReturn then (client.1, dmOpenError client.2)
      else (successReturn, client.2)) := by
  obtain ⟨hcache, hipc, hmgr, hdevice⟩ := hinits
  have hcacheRes : ∀ w, ¬ (dmMsgCacheInit w true).1 ≠ successReturn :=
    fun w => not_not.mpr rfl
  have hipcRes : ∀ w, ¬ (dmIpcInit w true).1 ≠ successReturn := fun w => not_not.mpr rfl
  have hmgrRes : ∀ w, ¬ (dmMgrInit w true true).1 ≠ successReturn := fun w => not_not.mpr rfl
  rw [iotxDmOpen, hapi, hcache, hipc, hmgr, hdevice, if_neg (by decide)]
  dsimp only
  rw [if_neg (hcacheRes _), if_neg (hipcRes _), if_neg (hmgrRes _)]
  rfl

theorem managed_free {w : World} (hmatch : LockMatches w) :
    (Lawful (managed w) ↔ Lawful w) ∧ LockMatches (managed w) ∧ ModulesFree (managed w) ∧
      Frame w (managed w) moduleVars moduleLists := by
  let begun := w.perform [.clear .dmApi, .create .dmApi true]
  let cache := (dmMsgCacheInit begun true).2
  let ipc := (dmIpcInit cache true).2
  have hbegun : Frame w begun [.dmApi] [] := by
    apply frame_perform <;> simp [Operation.var, Operation.list]
  have hcache : Frame begun cache [.dmMsgCache] [.dmcList] := frame_dmMsgCacheInit begun true
  have hipc : Frame cache ipc [.dmIpc] [.messageList] := frame_dmIpcInit cache true
  have hmgr : Frame ipc (managed w) [.dmMgr] [.devList] := frame_dmMgrInit ipc true true
  have hmatched := hmgr.matched (hipc.matched (hcache.matched (hbegun.matched hmatch)))
  obtain ⟨hcacheState, hcacheList⟩ := dmMsgCacheInit_ready begun
  obtain ⟨hipcState, hipcList⟩ := dmIpcInit_ready cache
  obtain ⟨hmgrState, hmgrList⟩ := dmMgrInit_ready ipc
  have happly : begun.ledger.state .dmApi = some .free := by
    simp [begun, Ledger.step]
  refine ⟨?_, hmatched, ⟨?_, ?_, rfl⟩, ?_⟩
  · have hlawful : Lawful begun ↔ Lawful w := by
      simp [begun, Ledger.Allows]
    exact (lawful_dmMgrInit ipc true true).trans ((lawful_dmIpcInit cache true).trans
      ((lawful_dmMsgCacheInit begun true).trans hlawful))
  · intro var hvar hlock
    cases var with
    | dmApi =>
        rw [hmgr.state .dmApi (by decide), hipc.state .dmApi (by decide),
          hcache.state .dmApi (by decide), happly]
    | dmMsgCache =>
        rw [hmgr.state .dmMsgCache (by decide), hipc.state .dmMsgCache (by decide), hcacheState]
    | dmIpc => rw [hmgr.state .dmIpc (by decide), hipcState]
    | dmMgr => exact hmgrState
    | fdLock => exact absurd rfl hlock
    | _ => exact absurd hvar (by decide)
  · intro list hlist
    cases list with
    | dmcList => rw [hmgr.ready .dmcList (by decide), hipc.ready .dmcList (by decide), hcacheList]
    | messageList => rw [hmgr.ready .messageList (by decide), hipcList]
    | devList => exact hmgrList
    | _ => exact absurd hlist (by decide)
  · exact (((hbegun.mono (by decide) (by decide)).trans (hcache.mono (by decide) (by decide))).trans
      (hipc.mono (by decide) (by decide))).trans (hmgr.mono (by decide) (by decide))

/-- Where a module is not initialised, the unwinding reaches a manager that is not initialised
either. -/
theorem iotxDmOpen_not_lawful {w : World} {outcome : OpenOutcome} (hmatch : LockMatches w)
    (hspent : Spent w) (hapi : outcome.mutexOk .dmApi = true) (hinits : ¬ outcome.InitsModules) :
    ¬ Lawful (iotxDmOpen w outcome).2 := by
  let begun := w.perform [.clear .dmApi, .create .dmApi true]
  let cache := (dmMsgCacheInit begun (outcome.mutexOk .dmMsgCache)).2
  let ipc := (dmIpcInit cache (outcome.mutexOk .dmIpc)).2
  let mgr := (dmMgrInit ipc (outcome.mutexOk .dmMgr) outcome.deviceOk).2
  have hbegun : Frame w begun [.dmApi] [] := by
    apply frame_perform <;> simp [Operation.var, Operation.list]
  have hcache : Frame begun cache [.dmMsgCache] [.dmcList] := frame_dmMsgCacheInit begun _
  have hipc : Frame cache ipc [.dmIpc] [.messageList] := frame_dmIpcInit cache _
  have hmgr : Frame ipc mgr [.dmMgr] [.devList] := frame_dmMgrInit ipc _ _
  have hcacheMatch := hcache.matched (hbegun.matched hmatch)
  have hcacheSpent : Spent cache :=
    (hspent.frame hbegun (by decide) (by decide)).frame hcache (by decide) (by decide)
  have hipcSpent : Spent ipc := hcacheSpent.frame hipc (by decide) (by decide)
  rw [iotxDmOpen, hapi, if_neg (by decide)]
  dsimp only
  split
  · exact hcacheSpent.not_lawful hcacheMatch
  next hcacheRes =>
    split
    · exact hipcSpent.not_lawful (hipc.matched hcacheMatch)
    next hipcRes =>
      rw [dmMsgCacheInit_res, Bool.not_eq_false] at hcacheRes
      rw [dmIpcInit_res, Bool.not_eq_false] at hipcRes
      have hfailed : (outcome.mutexOk .dmMgr && outcome.deviceOk) = false := by
        rw [Bool.and_eq_false_iff, ← Bool.not_eq_true, ← Bool.not_eq_true, ← not_and_or]
        exact fun hdone => hinits ⟨hcacheRes, hipcRes, hdone⟩
      rw [if_pos ((dmMgrInit_res _ _ _).mpr hfailed)]
      have hmgrSpent : Spent mgr := by
        intro hready
        have hlist := dmMgrInit_failed ipc hfailed
        rw [hready.2] at hlist
        cases hlist
      exact hmgrSpent.not_lawful (hmgr.matched (hipc.matched hcacheMatch))

/-- What an open leaves behind that does not unwind too early. -/
structure DmOpened (w : World) (opened : Int × World) : Prop where
  lawful : Lawful opened.2
  frame : Frame w opened.2 moduleVars moduleLists
  success : opened.1 = successReturn → ModulesFree opened.2
  failure : opened.1 ≠ successReturn → Spent opened.2

theorem ModulesFree.frame {w w' : World} (hw : ModulesFree w) (hframe : Frame w w' [.fdLock] [])
    (hcached : w'.cached = w.cached) : ModulesFree w' := by
  refine ⟨?_, ?_, hcached.trans hw.empty⟩
  · intro var hvar hlock
    rw [hframe.state var (by simpa using hlock)]
    exact hw.free var hvar hlock
  · intro list hlist
    rw [hframe.ready list List.not_mem_nil]
    exact hw.ready list hlist

theorem dmClientOpen_cached (w : World) (mallocOk paramOk mutexOk : Bool) :
    (dmClientOpen w mallocOk paramOk mutexOk).2.cached = w.cached := by
  rw [dmClientOpen]
  split
  dsimp only
  split <;> rfl

theorem iotxDmOpen_opened {w : World} {outcome : OpenOutcome} (hlawful : Lawful w)
    (hmatch : LockMatches w) (hspent : Spent w)
    (hinits : outcome.mutexOk .dmApi = true → outcome.InitsModules) :
    DmOpened w (iotxDmOpen w outcome) := by
  cases hapi : outcome.mutexOk .dmApi with
  | false =>
      have hframe : Frame w (w.perform [.clear .dmApi, .create .dmApi false]) [.dmApi] [] := by
        apply frame_perform <;> simp [Operation.var, Operation.list]
      rw [iotxDmOpen, hapi, if_pos (by decide)]
      refine ⟨?_, hframe.mono (by decide) (by decide), (nomatch ·), fun _ => ?_⟩
      · simp [Ledger.Allows, hlawful]
      · exact hspent.frame hframe (by decide) (by decide)
  | true =>
      obtain ⟨hmanaged, hmanagedMatch, hfree, hmanagedFrame⟩ := managed_free hmatch
      let client := dmClientOpen (managed w) outcome.mallocOk outcome.paramOk
        (outcome.mutexOk .fdLock)
      have hclient : CmFrame (managed w) client.2 := cmFrame_dmClientOpen hmanagedMatch _ _ _
      have hclientFree : ModulesFree client.2 :=
        hfree.frame hclient.frame (dmClientOpen_cached _ _ _ _)
      have hclientLawful : Lawful client.2 := hclient.lawful.mpr (hmanaged.mpr hlawful)
      have hclientFrame : Frame w client.2 moduleVars moduleLists :=
        hmanagedFrame.trans (hclient.frame.mono (by decide) (by decide))
      rw [iotxDmOpen_inits hapi (hinits hapi)]
      change DmOpened w
        (if client.1 < successReturn then (client.1, dmOpenError client.2)
          else (successReturn, client.2))
      split
      next hfailed =>
        have hunwound : Spent (dmOpenError client.2) := by
          intro hready
          apply hready.1
          rw [dmOpenError_mgr hclient.matched, hclientFree.free .dmMgr (by decide) (by decide)]
          rfl
        refine ⟨?_, ?_, fun hres => absurd hfailed hres.symm.not_gt, fun _ => hunwound⟩
        · show Lawful (dmOpenError client.2)
          rw [lawful_dmOpenError hclient.matched]
          exact ⟨hclientLawful, hclientFree.modulesReady⟩
        · exact hclientFrame.trans
            ((frame_dmOpenError hclient.matched).mono (by decide) (by decide))
      · exact ⟨hclientLawful, hclientFrame, fun _ => hclientFree, fun hres => absurd rfl hres⟩

/-! ## While the device model is closed -/

/-- The device model is not open: the manager is not initialised, and the first mutex of
`iotx_enos_ctx_t` is null or destroyed. -/
structure Closed (w : World) : Prop where
  isOpened : w.isOpened = false
  lawful : Lawful w
  matched : LockMatches w
  spent : Spent w
  mutex : w.ledger.state .mutex = none ∨ w.ledger.state .mutex = some .destroyed

theorem Closed.frame {w w' : World} {vars : List MutexVar} {lists : List DmList}
    (hw : Closed w) (hframe : Frame w w' vars lists) (hvar : .dmMgr ∉ vars)
    (hlist : .devList ∉ lists) (hlawful : Lawful w')
    (hmutex : w'.ledger.state .mutex = none ∨ w'.ledger.state .mutex = some .destroyed) :
    Closed w' :=
  ⟨hframe.isOpened.trans hw.isOpened, hlawful, hframe.matched hw.matched,
    hw.spent.frame hframe hvar hlist, hmutex⟩

/-- The mutexes of `iotx_enos_ctx_t`. -/
def ctxVars : List MutexVar := [.mutex, .upstreamMutex, .commandListMutex]

/-- The three mutexes are created. -/
def OpenOutcome.CreatesMutexes (outcome : OpenOutcome) : Prop :=
  ∀ var ∈ ctxVars, outcome.mutexOk var = true

/-- The world in which the device model is opened. -/
def mutexesCreated (w : World) : World :=
  w.perform [.create .mutex true, .create .upstreamMutex true, .create .commandListMutex true]

theorem masterOpen_creates {w : World} {outcome : OpenOutcome} (hclosed : w.isOpened = false)
    (hcreates : outcome.CreatesMutexes) :
    (iotxEnosMasterOpen w outcome).2 =
      (let opened := iotxDmOpen (mutexesCreated w) outcome
      if opened.1 ≠ successReturn then
        opened.2.perform [.destroy .upstreamMutex, .destroy .commandListMutex, .destroy .mutex]
      else
        { opened.2 with isOpened := true }.perform
          [.initList .upstreamSyncCallbackList, .initList .downstreamCommandList]) := by
  have hmutex := hcreates .mutex (by decide)
  have hupstream := hcreates .upstreamMutex (by decide)
  have hcommand := hcreates .commandListMutex (by decide)
  rw [iotxEnosMasterOpen, hclosed, hmutex, hupstream, hcommand, if_neg (by decide),
    if_neg (by decide), if_neg (by decide), if_neg (by decide)]
  simp only [perform_perform, List.cons_append, List.nil_append]
  rw [mutexesCreated, apply_ite Prod.snd]

/-- Where one of the three mutexes is not created, those before it are destroyed. -/
theorem Closed.masterOpen_fails {w : World} (hw : Closed w) {outcome : OpenOutcome}
    (hcreates : ¬ outcome.CreatesMutexes) : Closed (iotxEnosMasterOpen w outcome).2 := by
  have hframe : ∀ operations : List DmOperation,
      (∀ operation ∈ operations, ∃ var ∈ ctxVars, operation.var = some var) →
      Frame w (w.perform operations) ctxVars [] := by
    intro operations honly
    apply frame_perform _ (by decide)
    · intro operation hmem var hvar
      obtain ⟨named, hnamed, hsame⟩ := honly operation hmem
      obtain rfl : named = var := Option.some.inj (hsame.symm.trans hvar)
      exact hnamed
    · intro operation hmem list hlist
      obtain ⟨named, -, hsame⟩ := honly operation hmem
      cases operation <;> cases hlist <;> cases hsame
  rw [iotxEnosMasterOpen, hw.isOpened, if_neg (by decide)]
  cases hmutex : outcome.mutexOk .mutex with
  | false =>
      rw [if_pos (by decide)]
      refine hw.frame (hframe _ (by decide)) (by decide) (by decide) ?_ ?_
      · simp [Ledger.Allows, hw.lawful]
      · simp [Ledger.step]
  | true =>
      rw [if_neg (by decide)]
      cases hupstream : outcome.mutexOk .upstreamMutex with
      | false =>
          rw [if_pos (by decide)]
          simp only [perform_perform]
          refine hw.frame (hframe _ (by decide)) (by decide) (by decide) ?_ ?_
          · simp [Ledger.Allows, Ledger.step, hw.lawful]
          · simp [Ledger.step, Ledger.turn]
      | true =>
          rw [if_neg (by decide)]
          cases hcommand : outcome.mutexOk .commandListMutex with
          | false =>
              rw [if_pos (by decide)]
              simp only [perform_perform]
              refine hw.frame (hframe _ (by decide)) (by decide) (by decide) ?_ ?_
              · simp [Ledger.Allows, Ledger.step, Ledger.turn, hw.lawful]
              · simp [Ledger.step, Ledger.turn]
          | true =>
              refine absurd ?_ hcreates
              simp [OpenOutcome.CreatesMutexes, ctxVars, hmutex, hupstream, hcommand]

/-- The three mutexes are created, and nothing else is touched. -/
theorem mutexesCreated_spec (w : World) :
    (Lawful (mutexesCreated w) ↔ Lawful w) ∧ Frame w (mutexesCreated w) ctxVars [] ∧
      ∀ var ∈ ctxVars, (mutexesCreated w).ledger.state var = some .free := by
  refine ⟨?_, ?_, ?_⟩
  · simp [mutexesCreated, Ledger.Allows]
  · apply frame_perform <;> simp [Operation.var, Operation.list, ctxVars]
  · intro var hvar
    cases var with
    | mutex => simp [mutexesCreated, Ledger.step]
    | upstreamMutex => simp [mutexesCreated, Ledger.step]
    | commandListMutex => simp [mutexesCreated, Ledger.step]
    | _ => exact absurd hvar (by decide)

/-- An open whose device model is opened, or is unwound in time, leaves the master open or
closed. -/
theorem Closed.masterOpen {w : World} (hw : Closed w) {outcome : OpenOutcome}
    (hcreates : outcome.CreatesMutexes)
    (hinits : outcome.mutexOk .dmApi = true → outcome.InitsModules) :
    Closed (iotxEnosMasterOpen w outcome).2 ∨ Opened (iotxEnosMasterOpen w outcome).2 := by
  obtain ⟨hcreatedLawful, hcreated, hstates⟩ := mutexesCreated_spec w
  have hopen := iotxDmOpen_opened (hcreatedLawful.mpr hw.lawful) (hcreated.matched hw.matched)
    (hw.spent.frame hcreated (by decide) (by decide)) hinits
  have hctx : ∀ var ∈ ctxVars,
      (iotxDmOpen (mutexesCreated w) outcome).2.ledger.state var = some .free := by
    intro var hvar
    have hother : var ∉ moduleVars := by
      cases var <;> first | decide | exact absurd hvar (by decide)
    rw [hopen.frame.state var hother, hstates var hvar]
  have hmutex := hctx .mutex (by decide)
  have hupstream := hctx .upstreamMutex (by decide)
  have hcommand := hctx .commandListMutex (by decide)
  have hmatched := hopen.frame.matched (hcreated.matched hw.matched)
  rw [masterOpen_creates hw.isOpened hcreates]
  dsimp only
  split
  next hfailed =>
    left
    have hframe : Frame (iotxDmOpen (mutexesCreated w) outcome).2
        ((iotxDmOpen (mutexesCreated w) outcome).2.perform
          [.destroy .upstreamMutex, .destroy .commandListMutex, .destroy .mutex])
        ctxVars [] := by
      apply frame_perform <;> simp [Operation.var, Operation.list, ctxVars]
    refine ⟨?_, ?_, hframe.matched hmatched,
      (hopen.failure hfailed).frame hframe (by decide) (by decide), ?_⟩
    · exact hframe.isOpened.trans
        (hopen.frame.isOpened.trans (hcreated.isOpened.trans hw.isOpened))
    · rw [lawful_perform]
      refine ⟨hopen.lawful, ?_⟩
      simp [Ledger.Allows, Ledger.step, Ledger.turn, hmutex, hupstream, hcommand]
    · right
      simp [Ledger.step, Ledger.turn, hmutex]
  next hopened =>
    right
    have hmodules := hopen.success (not_not.mp hopened)
    let lists : List DmOperation :=
      [.initList .upstreamSyncCallbackList, .initList .downstreamCommandList]
    have hframe : Frame (iotxDmOpen (mutexesCreated w) outcome).2
        ((iotxDmOpen (mutexesCreated w) outcome).2.perform lists) []
        [.upstreamSyncCallbackList, .downstreamCommandList] := by
      apply frame_perform <;> simp [lists, Operation.var, Operation.list]
    have husable : Usable ((iotxDmOpen (mutexesCreated w) outcome).2.perform lists) .free := by
      refine ⟨?_, hframe.matched hmatched, ?_, ?_, ?_⟩
      · rw [lawful_perform]
        refine ⟨hopen.lawful, ?_⟩
        simp [lists, Ledger.Allows]
      · rw [hframe.state .mutex List.not_mem_nil, hmutex]
      · intro var hfirst hlock
        rw [hframe.state var List.not_mem_nil]
        by_cases hvar : var ∈ ctxVars
        · exact hctx var hvar
        · refine hmodules.free var ?_ hlock
          cases var <;> first | decide | exact absurd (by decide) hvar
      · intro list
        by_cases hlist : list ∈ moduleLists
        · rw [hframe.ready list (by cases list <;> first | decide | exact absurd hlist (by decide))]
          exact hmodules.ready list hlist
        · cases list with
          | upstreamSyncCallbackList => simp [lists, Ledger.step]
          | downstreamCommandList => simp [lists, Ledger.step]
          | _ => exact absurd (by decide) hlist
    exact ⟨rfl, husable.of_log rfl rfl⟩

theorem Closed.masterOpen_not_lawful {w : World} (hw : Closed w) {outcome : OpenOutcome}
    (hcreates : outcome.CreatesMutexes) (hapi : outcome.mutexOk .dmApi = true)
    (hinits : ¬ outcome.InitsModules) : ¬ Lawful (iotxEnosMasterOpen w outcome).2 := by
  obtain ⟨-, hcreated, -⟩ := mutexesCreated_spec w
  have hbroken := iotxDmOpen_not_lawful (hcreated.matched hw.matched)
    (hw.spent.frame hcreated (by decide) (by decide)) hapi hinits
  rw [masterOpen_creates hw.isOpened hcreates]
  dsimp only
  split
  · rw [lawful_perform]
    exact fun hlawful => hbroken hlawful.1
  · rw [lawful_perform]
    exact fun hlawful => hbroken hlawful.1

/-! ## Closing -/

/-- An open device model can be deinitialised exactly where no message is cached. -/
theorem Usable.modulesReady_iff {w : World} {first : MutexState Agent} (hw : Usable w first) :
    ModulesReady w ↔ w.cached = 0 := by
  have hfree : ∀ var, var ≠ .mutex → var ≠ .fdLock → w.ledger.state var ≠ some .destroyed := by
    intro var hmutex hlock
    rw [hw.free var hmutex hlock]
    decide
  constructor
  · intro hready
    refine hready.cache.2.2.resolve_right ?_
    rw [hw.free .dmMsgCache (by decide) (by decide)]
    exact Option.some_ne_none _
  · intro hempty
    exact
      { api := hfree .dmApi (by decide) (by decide)
        mgr := ⟨hfree .dmMgr (by decide) (by decide), hw.ready .devList⟩
        ipc := ⟨hfree .dmIpc (by decide) (by decide), hw.ready .messageList⟩
        cache := ⟨hfree .dmMsgCache (by decide) (by decide), hw.ready .dmcList,
          Or.inl hempty⟩ }

/-- What `_iotx_enos_master_close` does behind `iotx_dm_close`. -/
def masterClosing : List DmOperation :=
  [.traverse .upstreamSyncCallbackList, .destroy .upstreamMutex,
    .unlock .mutex, .destroy .mutex,
    .lock .commandListMutex, .traverse .downstreamCommandList, .unlock .commandListMutex,
    .destroy .commandListMutex,
    .clear .mutex, .clear .upstreamMutex, .clear .commandListMutex,
    .wipe .upstreamSyncCallbackList, .wipe .downstreamCommandList]

theorem Opened.masterClose {w : World} (hw : Opened w) (answered : Nat) :
    (Lawful (iotxEnosMasterClose w false answered).2 ↔ w.cached ≤ answered) ∧
      (w.cached ≤ answered → Closed (iotxEnosMasterClose w false answered).2) := by
  let stopped : World := { w with yieldRunning := false, cached := w.cached - answered }
  let locked := stopped.perform [.lock .mutex]
  have hstopped : Usable stopped .free := hw.usable.of_log rfl rfl
  have hlocked : Usable locked (.held .caller) := by
    refine hstopped.turn ?_ rfl
    simp [Ledger.Allows, hstopped.mutex]
  have hframe := frame_dmOpenError hlocked.matched
  have hmutex : (dmOpenError locked).ledger.state .mutex = some (.held .caller) := by
    rw [hframe.state .mutex (by decide), hlocked.mutex]
  have hupstream : (dmOpenError locked).ledger.state .upstreamMutex = some .free := by
    rw [hframe.state .upstreamMutex (by decide)]
    exact hlocked.free .upstreamMutex (by decide) (by decide)
  have hcommand : (dmOpenError locked).ledger.state .commandListMutex = some .free := by
    rw [hframe.state .commandListMutex (by decide)]
    exact hlocked.free .commandListMutex (by decide) (by decide)
  have hready : ∀ list, (dmOpenError locked).ledger.ready list = true := by
    intro list
    rw [hframe.ready list List.not_mem_nil]
    exact hlocked.ready list
  have hmgr : (dmOpenError locked).ledger.state .dmMgr = some .destroyed := by
    rw [dmOpenError_mgr hlocked.matched, hlocked.free .dmMgr (by decide) (by decide)]
    rfl
  have hmeet : StepsMeet (Ledger.step Agent.caller) (Ledger.Allows Agent.caller)
      (dmOpenError locked).ledger masterClosing := by
    simp [masterClosing, Ledger.Allows, Ledger.step, Ledger.turn, hmutex, hupstream, hcommand,
      hready]
  have hlast : (runFrom (Ledger.step Agent.caller) (dmOpenError locked).ledger
      masterClosing).state .mutex = none := by
    simp [masterClosing, Ledger.step, Ledger.turn]
  have hclosing : Frame (dmOpenError locked) ((dmOpenError locked).perform masterClosing) ctxVars
      [.upstreamSyncCallbackList, .downstreamCommandList] := by
    apply frame_perform <;> simp [masterClosing, Operation.var, Operation.list, ctxVars]
  have hlawful : Lawful ((dmOpenError locked).perform masterClosing) ↔ w.cached ≤ answered := by
    rw [lawful_perform, and_iff_left hmeet, lawful_dmOpenError hlocked.matched,
      and_iff_right hlocked.lawful]
    exact hlocked.modulesReady_iff.trans Nat.sub_eq_zero_iff_le
  have hresult : ∀ closed, closed.log = ((dmOpenError locked).perform masterClosing).log →
      closed.table = (dmOpenError locked).table → closed.isOpened = false → w.cached ≤ answered →
      Closed closed := by
    intro closed hlog htable hisOpened hempty
    have hledger : closed.ledger = ((dmOpenError locked).perform masterClosing).ledger := by
      rw [World.ledger, hlog, World.ledger]
    refine ⟨hisOpened, ?_, ?_, ?_, ?_⟩
    · rw [Lawful, hlog]
      exact hlawful.mpr hempty
    · rw [LockMatches, hledger, htable]
      exact hclosing.matched (hframe.matched hlocked.matched)
    · intro hmgrReady
      apply hmgrReady.1
      rw [hledger, hclosing.state .dmMgr (by decide), hmgr]
    · left
      rw [hledger, ledger_perform, hlast]
  have hisOpened : (!w.isOpened) = false := by rw [hw.isOpened]; rfl
  rw [iotxEnosMasterClose, if_neg (by decide)]
  dsimp only
  rw [hisOpened, if_neg (by decide)]
  exact ⟨hlawful, hresult _ rfl rfl rfl⟩

/-- A close of a master that is not open locks and unlocks the first mutex, which a failed open
has destroyed. -/
theorem Closed.masterClose {w : World} (hw : Closed w) (answered : Nat) :
    (Lawful (iotxEnosMasterClose w false answered).2 ↔ w.ledger.state .mutex = none) ∧
      (w.ledger.state .mutex = none → Closed (iotxEnosMasterClose w false answered).2) := by
  let stopped : World := { w with yieldRunning := false, cached := w.cached - answered }
  have hstopped : Lawful stopped := hw.lawful
  have hisOpened : (!w.isOpened) = true := by rw [hw.isOpened]; rfl
  have hframe : Frame w (stopped.perform [.lock .mutex, .unlock .mutex]) [.mutex] [] := by
    have hperform : Frame stopped (stopped.perform [.lock .mutex, .unlock .mutex])
        [.mutex] [] := by
      apply frame_perform <;> simp [Operation.var, Operation.list]
    exact ⟨hperform.state, hperform.ready, hperform.isOpened, hperform.matched⟩
  have hsection : w.ledger.state .mutex = none →
      StepsMeet (Ledger.step Agent.caller) (Ledger.Allows Agent.caller) stopped.ledger
          [.lock .mutex, .unlock .mutex] ∧
        runFrom (Ledger.step Agent.caller) stopped.ledger [.lock .mutex, .unlock .mutex] =
          stopped.ledger :=
    fun hnone => Ledger.section_free (Or.inl hnone)
  have hlawful : Lawful (stopped.perform [.lock .mutex, .unlock .mutex]) ↔
      w.ledger.state .mutex = none := by
    rw [lawful_perform, and_iff_right hstopped]
    constructor
    · rintro ⟨hlock, -⟩
      exact hw.mutex.resolve_right hlock
    · exact fun hnone => (hsection hnone).1
  have hclosed : w.ledger.state .mutex = none →
      Closed (stopped.perform [.lock .mutex, .unlock .mutex]) := by
    intro hnone
    apply hw.frame hframe (by decide) (by decide) (hlawful.mpr hnone)
    left
    rw [ledger_perform, (hsection hnone).2]
    exact hnone
  rw [iotxEnosMasterClose, if_neg (by decide)]
  dsimp only
  rw [hisOpened, if_pos rfl, perform_perform]
  exact ⟨hlawful, hclosed⟩

/-! ## Every run -/

/-- What a call must find, or its environment do, for the operations to be lawful: an open
that gets as far as `iotx_dm_open` initialises its modules, a close of an open master finds no
cached message, and one of a master that is not open finds no mutex. -/
def Orderly (w : World) : EnosCall → Prop
  | .openMaster outcome =>
      w.isOpened = true ∨
        (outcome.CreatesMutexes → outcome.mutexOk .dmApi = true → outcome.InitsModules)
  | .close isYieldRunning answered =>
      isYieldRunning = true ∨
        if w.isOpened then w.cached ≤ answered else w.memory.handle .mutex = none
  | _ => True

instance (w : World) : DecidablePred (Orderly w)
  | .openMaster outcome =>
      inferInstanceAs (Decidable (w.isOpened = true ∨
        ((∀ var ∈ ctxVars, outcome.mutexOk var = true) → outcome.mutexOk .dmApi = true →
          outcome.mutexOk .dmMsgCache = true ∧ outcome.mutexOk .dmIpc = true ∧
            outcome.mutexOk .dmMgr = true ∧ outcome.deviceOk = true)))
  | .close isYieldRunning answered =>
      inferInstanceAs (Decidable (isYieldRunning = true ∨
        if w.isOpened then w.cached ≤ answered else w.memory.handle .mutex = none))
  | .connect _ | .traffic _ => .isTrue trivial

theorem handle_eq_none_iff (w : World) (var : MutexVar) :
    w.memory.handle var = none ↔ w.ledger.state var = none := by
  rw [← ledger_memory]
  exact Option.map_eq_none_iff.symm

theorem closed_initial : Closed World.initial :=
  ⟨rfl, trivial, rfl, fun hready => (nomatch hready.2), Or.inl rfl⟩

theorem orderly_step {w : World} (hw : Closed w ∨ Opened w) {call : EnosCall}
    (horderly : Orderly w call) : Closed (step w call) ∨ Opened (step w call) := by
  cases call with
  | openMaster outcome =>
      rcases hw with hclosed | hopened
      · have hinits := horderly.resolve_left (by simp [hclosed.isOpened])
        by_cases hcreates : outcome.CreatesMutexes
        · exact hclosed.masterOpen hcreates (hinits hcreates)
        · exact Or.inl (hclosed.masterOpen_fails hcreates)
      · rw [step, iotxEnosMasterOpen, if_pos hopened.isOpened]
        exact Or.inr hopened
  | connect outcome =>
      rcases hw with hclosed | hopened
      · have hisOpened : (!w.isOpened) = true := by rw [hclosed.isOpened]; rfl
        rw [step, iotEnosConnect, if_pos hisOpened]
        exact Or.inl hclosed
      · exact Or.inr (hopened.connect outcome)
  | close isYieldRunning answered =>
      cases isYieldRunning with
      | true =>
          rw [step, iotxEnosMasterClose, if_pos rfl]
          rcases hw with hclosed | hopened
          · exact Or.inl ⟨hclosed.isOpened, hclosed.lawful, hclosed.matched, hclosed.spent,
              hclosed.mutex⟩
          · exact Or.inr ⟨hopened.isOpened, hopened.usable.of_log rfl rfl⟩
      | false =>
          have hcondition := horderly.resolve_left Bool.false_ne_true
          left
          rcases hw with hclosed | hopened
          · rw [if_neg (by simp [hclosed.isOpened]), handle_eq_none_iff] at hcondition
            exact (hclosed.masterClose answered).2 hcondition
          · rw [if_pos hopened.isOpened] at hcondition
            exact (hopened.masterClose answered).2 hcondition
  | traffic cached =>
      rw [step]
      rcases hw with hclosed | hopened
      · rw [if_neg (by simp [hclosed.isOpened])]
        exact Or.inl hclosed
      · rw [if_pos hopened.isOpened]
        exact Or.inr ⟨hopened.isOpened, hopened.usable.of_log rfl rfl⟩

theorem disorderly_step {w : World} (hw : Closed w ∨ Opened w) {call : EnosCall}
    (hdisorder : ¬ Orderly w call) : ¬ Lawful (step w call) := by
  cases call with
  | openMaster outcome =>
      obtain ⟨hisOpened, hinits⟩ := not_or.mp hdisorder
      rcases hw with hclosed | hopened
      · simp only [Classical.not_imp] at hinits
        obtain ⟨hcreates, hapi, hinits⟩ := hinits
        exact hclosed.masterOpen_not_lawful hcreates hapi hinits
      · exact absurd hopened.isOpened hisOpened
  | close isYieldRunning answered =>
      obtain ⟨hrunning, hcondition⟩ := not_or.mp hdisorder
      obtain rfl : isYieldRunning = false := Bool.eq_false_iff.mpr hrunning
      rcases hw with hclosed | hopened
      · rw [if_neg (by simp [hclosed.isOpened]), handle_eq_none_iff] at hcondition
        exact fun hlawful => hcondition ((hclosed.masterClose answered).1.mp hlawful)
      · rw [if_pos hopened.isOpened] at hcondition
        exact fun hlawful => hcondition ((hopened.masterClose answered).1.mp hlawful)
  | _ => exact absurd trivial hdisorder

/-- Without yield threads, the mutexes and the lists are used as they may in a run of calls
exactly where every call is orderly. -/
theorem calls_lawful_iff (calls : List EnosCall) :
    Always step Lawful World.initial calls ↔ StepsMeet step Orderly World.initial calls := by
  apply @always_iff_of_breaks _ _ step fun w => Closed w ∨ Opened w
  · intro w hw
    exact hw.elim (·.lawful) (·.usable.lawful)
  · exact fun w call hw horderly => orderly_step hw horderly
  · exact fun w call hw hdisorder => disorderly_step hw hdisorder
  · exact Or.inl closed_initial

end EnosDeviceSdk.DevModel.Unwind
