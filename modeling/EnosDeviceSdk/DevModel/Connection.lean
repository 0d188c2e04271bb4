/-
# The table of cloud connections

`iotx_cm.c` hands out file descriptors for connections. A descriptor is a slot of `_cm_fd`; the
number of connected descriptors is counted in `inited_conn_num`, and the mutex `fd_lock` is
created with the first slot and destroyed when the count is back at zero. The connection itself
comes from `iotx_cm_mqtt.c`, which has at most one.

Table, connection, count and lock agree as long as nothing is opened while the connection exists
and no connected descriptor is connected again. Opening twice gives the one connection two slots,
and closing either leaves the other with a freed connection.
-/

import EnosDeviceSdk.Library.Run
import EnosDeviceSdk.Infra.State
import Mathlib.Data.Fintype.Card
import Mathlib.Data.Fintype.Fin
import Mathlib.Logic.Function.Basic

namespace EnosDeviceSdk.DevModel.Connection

open EnosDeviceSdk.Infra EnosDeviceSdk.Library

/-- `CM_MAX_FD_NUM` -/
def cmMaxFdNum : Nat := 3

/-- The static variables of the connection manager: whether `fd_lock` exists, the connection in
each slot of `_cm_fd`, `inited_conn_num`, and `_mqtt_conncection`. A connection is known by the
number of its allocation. -/
structure ConnectionTable where
  fdLock : Bool
  cmFd : Fin cmMaxFdNum → Option Nat
  initedConnNum : Int
  mqttConncection : Option Nat
  allocated : Nat

/-- `iotx_cm_open_mqtt`: the connection that there is, or a new one if there is memory for it and
for its parameters. -/
def iotxCmOpenMqtt (table : ConnectionTable) (mallocOk paramOk : Bool) :
    Option Nat × ConnectionTable :=
  match table.mqttConncection with
  | some connection => (some connection, table)
  | none =>
      if mallocOk && paramOk then
        (some table.allocated,
          { table with
            mqttConncection := some table.allocated
            allocated := table.allocated + 1 })
      else (none, table)

/-- `_mqtt_close`, the `close_func` of every connection. -/
def mqttClose (table : ConnectionTable) : Int × ConnectionTable :=
  match table.mqttConncection with
  | none => (stateDevModelInternalMqttNotInitYet, table)
  | some _ => (stateSuccess, { table with mqttConncection := none })

/-- `_mqtt_connect`, the `connect_func` of every connection. A client that was constructed before
is taken for connected. `connectOk` says whether one is constructed before the timeout. -/
def mqttConnect (table : ConnectionTable) (connectOk : Bool) : Int :=
  match table.mqttConncection with
  | none => stateDevModelInternalMqttNotInitYet
  | some _ => if connectOk then stateSuccess else stateDevModelMqttConnectFailed

/-- The slot that a descriptor names. -/
def slotOf (fd : Int) : Option (Fin cmMaxFdNum) :=
  if h : fd.toNat < cmMaxFdNum then if 0 ≤ fd then some ⟨fd.toNat, h⟩ else none else none

/-- `_fd_is_valid`: the slot, where the lock exists and the slot is taken. -/
def fdIsValid (table : ConnectionTable) (fd : Int) : Option (Fin cmMaxFdNum) :=
  if table.fdLock then (slotOf fd).filter fun slot => (table.cmFd slot).isSome else none

/-- The lock is there, or it is created. -/
def lockOrCreate (table : ConnectionTable) (mutexOk : Bool) : Bool := table.fdLock || mutexOk

/-- `_get_fd`: the first free slot takes the connection. -/
def getFd (table : ConnectionTable) (handle : Nat) (mutexOk : Bool) : Int × ConnectionTable :=
  if !lockOrCreate table mutexOk then (stateSysDependMutexCreate, table)
  else
    match (List.finRange cmMaxFdNum).find? fun slot => (table.cmFd slot).isNone with
    | some slot =>
        (slot, { table with
          fdLock := true
          cmFd := Function.update table.cmFd slot (some handle) })
    | none => (stateDevModelCmFdNotFound, { table with fdLock := true })

/-- `_recycle_fd` -/
def recycleFd (table : ConnectionTable) (fd : Int) (mutexOk : Bool) : Int × ConnectionTable :=
  if !lockOrCreate table mutexOk then (-1, table)
  else
    match slotOf fd with
    | none => (-1, { table with fdLock := true })
    | some slot =>
        (0, { table with fdLock := true, cmFd := Function.update table.cmFd slot none })

/-- `iotx_cm_open` with the MQTT protocol. -/
def iotxCmOpen (table : ConnectionTable) (mallocOk paramOk mutexOk : Bool) :
    Int × ConnectionTable :=
  let (connection, opened) := iotxCmOpenMqtt table mallocOk paramOk
  match connection with
  | none => (stateDevModelCmOpenFailed, opened)
  | some handle =>
      let (fd, entered) := getFd opened handle mutexOk
      if fd < 0 then (fd, (mqttClose entered).2) else (fd, entered)

/-- `iotx_cm_connect` of a gateway, which starts the yield thread for the first connection. -/
def iotxCmConnect (table : ConnectionTable) (fd : Int) (connectOk threadOk : Bool) :
    Int × ConnectionTable :=
  match fdIsValid table fd with
  | none => (stateDevModelCmFdError, table)
  | some _ =>
      let ret := mqttConnect table connectOk
      if ret = 0 then
        let counted := { table with initedConnNum := table.initedConnNum + 1 }
        if counted.initedConnNum = 1 then
          if threadOk then (0, counted)
          else (-1, { counted with initedConnNum := counted.initedConnNum - 1 })
        else (0, counted)
      else (ret, table)

/-- `iotx_cm_close`. The wait for the yield thread is left out. -/
def iotxCmClose (table : ConnectionTable) (fd : Int) (mutexOk : Bool) : Int × ConnectionTable :=
  match fdIsValid table fd with
  | none => (stateDevModelCmFdError, table)
  | some _ =>
      let uncounted :=
        { table with
          initedConnNum :=
            if table.initedConnNum > 0 then table.initedConnNum - 1 else table.initedConnNum }
      let (closeCode, closed) := mqttClose uncounted
      if closeCode ≠ 0 then (-1, closed)
      else
        let (recycleCode, recycled) := recycleFd closed fd mutexOk
        if recycleCode ≠ 0 then (-1, recycled)
        else if recycled.initedConnNum = 0 then (0, { recycled with fdLock := false })
        else (0, recycled)

/-! ## Runs of calls -/

/-- The table, the descriptors that were returned by an open and not closed since, and those of
them that were connected. -/
structure World where
  table : ConnectionTable
  opened : Fin cmMaxFdNum → Bool
  connected : Fin cmMaxFdNum → Bool

/-- A call, with the outcomes that its environment decides. -/
inductive Call
  | openMqtt (mallocOk paramOk mutexOk : Bool)
  | connect (fd : Int) (connectOk threadOk : Bool)
  | close (fd : Int) (mutexOk : Bool)

/-- What is recorded of a descriptor that a call returned for. -/
def record (marks : Fin cmMaxFdNum → Bool) (fd : Int) (mark : Bool) : Fin cmMaxFdNum → Bool :=
  match slotOf fd with
  | some slot => Function.update marks slot mark
  | none => marks

/-- The world after a call. -/
def step (world : World) : Call → World
  | .openMqtt mallocOk paramOk mutexOk =>
      let (fd, table) := iotxCmOpen world.table mallocOk paramOk mutexOk
      if 0 ≤ fd then
        { table := table
          opened := record world.opened fd true
          connected := record world.connected fd false }
      else { world with table := table }
  | .connect fd connectOk threadOk =>
      let (ret, table) := iotxCmConnect world.table fd connectOk threadOk
      if ret = 0 then { world with table := table, connected := record world.connected fd true }
      else { world with table := table }
  | .close fd mutexOk =>
      let (ret, table) := iotxCmClose world.table fd mutexOk
      if ret = 0 then
        { table := table
          opened := record world.opened fd false
          connected := record world.connected fd false }
      else { world with table := table }

/-- Before the first call. -/
def start : World where
  table := ⟨false, fun _ => none, 0, none, 0⟩
  opened := fun _ => false
  connected := fun _ => false

/-- The four pieces of state agree: a live connection has one slot, a slot that is taken has a
live connection, the count is the number of connected descriptors, the lock exists while a slot is
taken, and what was opened can be used. -/
structure Consistent (world : World) : Prop where
  one_slot : ∀ connection, world.table.mqttConncection = some connection →
    ∃! slot, world.table.cmFd slot = some connection
  live : ∀ slot connection, world.table.cmFd slot = some connection →
    world.table.mqttConncection = some connection
  counted : world.table.initedConnNum =
    (Finset.univ.filter fun slot =>
      (world.table.cmFd slot).isSome ∧ world.connected slot = true).card
  locked : ∀ slot, (world.table.cmFd slot).isSome → world.table.fdLock = true
  usable : ∀ slot : Fin cmMaxFdNum, world.opened slot = true →
    fdIsValid world.table slot = some slot

/-- The call does not open while the connection exists, and it does not connect a connected
descriptor again. -/
def KeepsApart (world : World) : Call → Prop
  | .openMqtt .. => world.table.mqttConncection = none
  | .connect fd connectOk _ => connectOk = true →
      ∀ slot ∈ fdIsValid world.table fd, world.connected slot = false
  | .close .. => True

instance (world : World) : DecidablePred (KeepsApart world)
  | .openMqtt .. => inferInstanceAs (Decidable (_ = _))
  | .connect .. => inferInstanceAs (Decidable (_ → _))
  | .close .. => .isTrue trivial

/-! ## The two shapes of a consistent world -/

/-- A consistent world has no connection and all slots free, or one connection in one slot, counted
if its descriptor is connected. -/
inductive Shape (world : World) : Prop
  | vacant (hnone : world.table.mqttConncection = none)
      (hfree : world.table.cmFd = fun _ => none) (hcount : world.table.initedConnNum = 0)
      (hopened : ∀ slot, world.opened slot = false)
  | taken (connection : Nat) (slot : Fin cmMaxFdNum)
      (hsome : world.table.mqttConncection = some connection)
      (hslot : world.table.cmFd = Function.update (fun _ => none) slot (some connection))
      (hcount : world.table.initedConnNum = if world.connected slot then 1 else 0)
      (hlock : world.table.fdLock = true)
      (hopened : ∀ other, world.opened other = true → other = slot)

@[simp]
theorem slotOf_val (slot : Fin cmMaxFdNum) : slotOf slot = some slot := by
  simp [slotOf]

theorem fdIsValid_of_free {table : ConnectionTable} (hfree : table.cmFd = fun _ => none)
    (fd : Int) : fdIsValid table fd = none := by
  rw [fdIsValid, hfree]
  cases table.fdLock <;> simp

/-- A descriptor is valid where it names the taken slot. -/
theorem fdIsValid_of_taken {table : ConnectionTable} {slot : Fin cmMaxFdNum} {connection : Nat}
    (hlock : table.fdLock = true)
    (hslot : table.cmFd = Function.update (fun _ => none) slot (some connection)) (fd : Int) :
    fdIsValid table fd = if slotOf fd = some slot then some slot else none := by
  rw [fdIsValid, if_pos hlock, hslot]
  cases hnamed : slotOf fd with
  | none => simp
  | some named =>
      by_cases hsame : named = slot
      · simp [hsame]
      · simp [hsame]

/-- One taken slot is taken and no other. -/
theorem isSome_of_taken {table : ConnectionTable} {slot : Fin cmMaxFdNum} {connection : Nat}
    (hslot : table.cmFd = Function.update (fun _ => none) slot (some connection))
    (other : Fin cmMaxFdNum) : (table.cmFd other).isSome ↔ other = slot := by
  by_cases hsame : other = slot
  · simp [hslot, hsame]
  · simp [hslot, hsame]

/-- With one slot taken, at most one descriptor is connected. -/
theorem card_connected_of_taken {table : ConnectionTable} {slot : Fin cmMaxFdNum}
    {connection : Nat}
    (hslot : table.cmFd = Function.update (fun _ => none) slot (some connection))
    (connected : Fin cmMaxFdNum → Bool) :
    (Finset.univ.filter fun other =>
      (table.cmFd other).isSome ∧ connected other = true).card =
        if connected slot then 1 else 0 := by
  have honly : (Finset.univ.filter fun other =>
      (table.cmFd other).isSome ∧ connected other = true) =
        if connected slot then {slot} else ∅ := by
    ext other
    rw [Finset.mem_filter, isSome_of_taken hslot]
    cases hconnected : connected slot with
    | true =>
        simp only [Finset.mem_univ, true_and, if_true, Finset.mem_singleton]
        exact ⟨And.left, fun hsame => ⟨hsame, hsame ▸ hconnected⟩⟩
    | false =>
        simp only [Finset.mem_univ, true_and, Bool.false_eq_true, if_false, Finset.notMem_empty,
          iff_false, not_and]
        intro hsame
        simp [hsame, hconnected]
  rw [honly]
  cases connected slot <;> rfl

theorem consistent_of_shape {world : World} (hshape : Shape world) : Consistent world := by
  cases hshape with
  | vacant hnone hfree hcount hopened =>
      exact
        { one_slot := fun connection hsome => by simp [hnone] at hsome
          live := fun slot connection hsome => by simp [hfree] at hsome
          counted := by simp [hfree, hcount]
          locked := fun slot hsome => by simp [hfree] at hsome
          usable := fun slot hslot => by simp [hopened slot] at hslot }
  | taken connection slot hsome hslot hcount hlock hopened =>
      have hheld := isSome_of_taken hslot
      refine
        { one_slot := ?_
          live := ?_
          counted := ?_
          locked := fun _ _ => hlock
          usable := ?_ }
      · intro other hother
        obtain rfl : connection = other := Option.some.inj (hsome.symm.trans hother)
        refine ⟨slot, by simp [hslot], ?_⟩
        intro candidate hcandidate
        exact (hheld candidate).mp (by rw [hcandidate]; rfl)
      · intro candidate other hother
        have hsame : candidate = slot := (hheld candidate).mp (by rw [hother]; rfl)
        simp only [hslot, hsame, Function.update_self] at hother
        rw [hsome, hother]
      · rw [hcount, card_connected_of_taken hslot]
        cases world.connected slot <;> rfl
      · intro candidate hcandidate
        rw [fdIsValid_of_taken hlock hslot, hopened candidate hcandidate, slotOf_val, if_pos rfl]

/-- A consistent world in which the connection exists has it in one slot and the others free. -/
theorem shape_of_consistent {world : World} (hconsistent : Consistent world) : Shape world := by
  obtain ⟨honeSlot, hlive, hcounted, hlocked, husable⟩ := hconsistent
  cases hconnection : world.table.mqttConncection with
  | none =>
      have hfree : world.table.cmFd = fun _ => none := by
        funext slot
        rw [Option.eq_none_iff_forall_ne_some]
        intro connection hsome
        have hexists := hlive slot connection hsome
        simp [hconnection] at hexists
      refine Shape.vacant hconnection hfree ?_ ?_
      · simpa [hfree] using hcounted
      · intro slot
        rw [Bool.eq_false_iff]
        intro hopened
        have hvalid := husable slot hopened
        simp [fdIsValid_of_free hfree] at hvalid
  | some connection =>
      obtain ⟨slot, hslot, honly⟩ := honeSlot connection hconnection
      have htable : world.table.cmFd =
          Function.update (fun _ => none) slot (some connection) := by
        funext candidate
        by_cases hsame : candidate = slot
        · rw [hsame, Function.update_self, hslot]
        · rw [Function.update_of_ne hsame, Option.eq_none_iff_forall_ne_some]
          intro other hother
          have hexists := hlive candidate other hother
          obtain rfl : connection = other := Option.some.inj (hconnection.symm.trans hexists)
          exact hsame (honly candidate hother)
      have hlock : world.table.fdLock = true := hlocked slot (by simp [hslot])
      refine Shape.taken connection slot hconnection htable ?_ hlock ?_
      · rw [hcounted, card_connected_of_taken htable]
        cases world.connected slot <;> rfl
      · intro other hopened
        have hvalid := husable other hopened
        rw [fdIsValid_of_taken hlock htable, slotOf_val] at hvalid
        by_contra hother
        simp [hother] at hvalid

/-! ## What the calls do to either shape -/

/-- Slot 0. -/
def firstSlot : Fin cmMaxFdNum := ⟨0, by decide⟩

theorem record_zero (marks : Fin cmMaxFdNum → Bool) (mark : Bool) :
    record marks 0 mark = Function.update marks firstSlot mark := rfl

/-- In a vacant table the first slot is free. -/
theorem getFd_of_vacant {table : ConnectionTable} (hfree : table.cmFd = fun _ => none)
    (handle : Nat) (mutexOk : Bool) :
    getFd table handle mutexOk =
      if lockOrCreate table mutexOk then
        (0, { table with
          fdLock := true
          cmFd := Function.update (fun _ => none) firstSlot (some handle) })
      else (stateSysDependMutexCreate, table) := by
  have hfirst : (List.finRange cmMaxFdNum).find? (fun slot => (table.cmFd slot).isNone) =
      some firstSlot := by
    rw [hfree]
    rfl
  unfold getFd
  rw [hfirst, hfree]
  cases lockOrCreate table mutexOk <;> rfl

/-- Beside a taken slot there is a free one. -/
theorem getFd_of_taken {table : ConnectionTable} {slot : Fin cmMaxFdNum} {connection : Nat}
    (hlock : table.fdLock = true)
    (hslot : table.cmFd = Function.update (fun _ => none) slot (some connection))
    (handle : Nat) (mutexOk : Bool) :
    ∃ other, other ≠ slot ∧ getFd table handle mutexOk =
      ((other : Int), { table with cmFd := Function.update table.cmFd other (some handle) }) := by
  have hroom : ∀ slot : Fin 3, ∃ other : Fin 3, other ≠ slot := by decide
  cases hfind : (List.finRange cmMaxFdNum).find? (fun slot => (table.cmFd slot).isNone) with
  | none =>
      obtain ⟨other, hother⟩ := hroom slot
      have hfull := List.find?_eq_none.mp hfind other (List.mem_finRange other)
      have hfree : ¬(table.cmFd other).isSome := fun hsome =>
        hother ((isSome_of_taken hslot other).mp hsome)
      exact absurd (by simpa using hfree) hfull
  | some other =>
      have hfree := List.find?_some hfind
      refine ⟨other, ?_, ?_⟩
      · rintro rfl
        simp [hslot] at hfree
      · simp only [getFd, lockOrCreate, hlock, hfind, Bool.true_or, Bool.not_true,
          Bool.false_eq_true, if_false]

/-- What an open can do to a vacant table: leave it vacant, or put a new connection into the
first slot. -/
theorem iotxCmOpen_of_vacant {table : ConnectionTable} (hnone : table.mqttConncection = none)
    (hfree : table.cmFd = fun _ => none) (mallocOk paramOk mutexOk : Bool) :
    ((iotxCmOpen table mallocOk paramOk mutexOk).1 < 0 ∧
        (iotxCmOpen table mallocOk paramOk mutexOk).2.mqttConncection = none ∧
        (iotxCmOpen table mallocOk paramOk mutexOk).2.cmFd = (fun _ => none) ∧
        (iotxCmOpen table mallocOk paramOk mutexOk).2.initedConnNum = table.initedConnNum) ∨
      iotxCmOpen table mallocOk paramOk mutexOk =
        (0, { fdLock := true
              cmFd := Function.update (fun _ => none) firstSlot (some table.allocated)
              initedConnNum := table.initedConnNum
              mqttConncection := some table.allocated
              allocated := table.allocated + 1 }) := by
  cases hmemory : mallocOk && paramOk with
  | false =>
      have hfailed : iotxCmOpen table mallocOk paramOk mutexOk =
          (stateDevModelCmOpenFailed, table) := by
        simp only [iotxCmOpen, iotxCmOpenMqtt, hnone, hmemory, Bool.false_eq_true, if_false]
      rw [hfailed]
      exact Or.inl ⟨by simp [stateDevModelCmOpenFailed], hnone, hfree, rfl⟩
  | true =>
      let opened : ConnectionTable :=
        { table with
          mqttConncection := some table.allocated
          allocated := table.allocated + 1 }
      have hopen : iotxCmOpen table mallocOk paramOk mutexOk =
          if (getFd opened table.allocated mutexOk).1 < 0 then
            ((getFd opened table.allocated mutexOk).1,
              (mqttClose (getFd opened table.allocated mutexOk).2).2)
          else getFd opened table.allocated mutexOk := by
        simp only [iotxCmOpen, iotxCmOpenMqtt, hnone, hmemory, if_true]
        rfl
      rw [hopen, @getFd_of_vacant opened hfree table.allocated mutexOk]
      cases lockOrCreate opened mutexOk with
      | false =>
          simp only [Bool.false_eq_true, if_false]
          exact Or.inl ⟨by simp [stateSysDependMutexCreate], rfl, hfree, rfl⟩
      | true => exact Or.inr rfl

/-- Opening a vacant table leaves it vacant or takes one slot. -/
theorem shape_open_of_vacant {world : World} (hnone : world.table.mqttConncection = none)
    (hfree : world.table.cmFd = fun _ => none) (hcount : world.table.initedConnNum = 0)
    (hopened : ∀ slot, world.opened slot = false) (mallocOk paramOk mutexOk : Bool) :
    Shape (step world (.openMqtt mallocOk paramOk mutexOk)) := by
  rcases iotxCmOpen_of_vacant hnone hfree mallocOk paramOk mutexOk with
    ⟨hfailed, hnone', hfree', hcount'⟩ | hentered
  · simp only [step, not_le.mpr hfailed, if_false]
    exact Shape.vacant hnone' hfree' (hcount'.trans hcount) hopened
  · simp only [step, hentered, le_refl, if_true]
    refine Shape.taken world.table.allocated firstSlot rfl rfl ?_ rfl ?_
    · simp [record_zero, hcount]
    · intro other hother
      by_contra hne
      simp [record_zero, hne, hopened other] at hother

/-- Opening beside a connection gives it a second slot. -/
theorem not_shape_open_of_taken {world : World} {connection : Nat} {slot : Fin cmMaxFdNum}
    (hsome : world.table.mqttConncection = some connection)
    (hslot : world.table.cmFd = Function.update (fun _ => none) slot (some connection))
    (hlock : world.table.fdLock = true) (mallocOk paramOk mutexOk : Bool) :
    ¬Shape (step world (.openMqtt mallocOk paramOk mutexOk)) := by
  obtain ⟨other, hother, hfd⟩ := getFd_of_taken hlock hslot connection mutexOk
  have hvalid : ¬((other : Int) < 0) := by omega
  intro hshape
  have hconsistent := consistent_of_shape hshape
  have hdone : (step world (.openMqtt mallocOk paramOk mutexOk)).table =
      { world.table with
        cmFd := Function.update world.table.cmFd other (some connection) } := by
    simp only [step, iotxCmOpen, iotxCmOpenMqtt, hsome, hfd, hvalid, if_false]
    rw [if_pos (not_lt.mp hvalid)]
  obtain ⟨_, _, honly⟩ := hconsistent.one_slot connection (by rw [hdone]; exact hsome)
  have hfirst := honly other (by simp [hdone])
  have hsecond := honly slot (by simp [hdone, hslot, Function.update_of_ne (Ne.symm hother)])
  exact hother (hfirst.trans hsecond.symm)

/-- In a vacant table no descriptor can be connected or closed. -/
theorem shape_of_vacant {world : World} (hnone : world.table.mqttConncection = none)
    (hfree : world.table.cmFd = fun _ => none) (hcount : world.table.initedConnNum = 0)
    (hopened : ∀ slot, world.opened slot = false) (call : Call) : Shape (step world call) := by
  have hinvalid := fdIsValid_of_free hfree
  cases call with
  | openMqtt mallocOk paramOk mutexOk =>
      exact shape_open_of_vacant hnone hfree hcount hopened mallocOk paramOk mutexOk
  | connect fd connectOk threadOk =>
      simp only [step, iotxCmConnect, hinvalid]
      exact Shape.vacant hnone hfree hcount hopened
  | close fd mutexOk =>
      simp only [step, iotxCmClose, hinvalid]
      exact Shape.vacant hnone hfree hcount hopened

/-- Closing the taken slot's descriptor leaves the table vacant, and closing any other leaves it as
it is. -/
theorem shape_close_of_taken {world : World} {connection : Nat} {slot : Fin cmMaxFdNum}
    (hsome : world.table.mqttConncection = some connection)
    (hslot : world.table.cmFd = Function.update (fun _ => none) slot (some connection))
    (hcount : world.table.initedConnNum = if world.connected slot then 1 else 0)
    (hlock : world.table.fdLock = true)
    (hopened : ∀ other, world.opened other = true → other = slot) (fd : Int) (mutexOk : Bool) :
    Shape (step world (.close fd mutexOk)) := by
  have hvalid := fdIsValid_of_taken hlock hslot fd
  by_cases hnamed : slotOf fd = some slot
  · have huncounted : (if world.table.initedConnNum > 0 then world.table.initedConnNum - 1
        else world.table.initedConnNum) = 0 := by
      rw [hcount]
      cases world.connected slot <;> rfl
    rw [if_pos hnamed] at hvalid
    have hclosed : iotxCmClose world.table fd mutexOk =
        (0, { world.table with
          fdLock := false
          cmFd := Function.update world.table.cmFd slot none
          initedConnNum := 0
          mqttConncection := none }) := by
      simp only [iotxCmClose, hvalid, huncounted, mqttClose, hsome, recycleFd, lockOrCreate,
        hlock, hnamed]
      rfl
    simp only [step, hclosed, if_true]
    refine Shape.vacant rfl ?_ rfl ?_
    · simp only [hslot]
      funext other
      by_cases hsame : other = slot
      · simp [hsame]
      · simp [hsame]
    · intro other
      rw [Bool.eq_false_iff]
      intro hother
      by_cases hsame : other = slot
      · simp [record, hnamed, hsame] at hother
      · simp only [record, hnamed, Function.update_of_ne hsame] at hother
        exact hsame (hopened other hother)
  · rw [if_neg hnamed] at hvalid
    simp only [step, iotxCmClose, hvalid]
    exact Shape.taken connection slot hsome hslot hcount hlock hopened

/-- Connecting keeps the shape exactly when it does not connect the connected descriptor. -/
theorem shape_connect_of_taken_iff {world : World} {connection : Nat} {slot : Fin cmMaxFdNum}
    (hsome : world.table.mqttConncection = some connection)
    (hslot : world.table.cmFd = Function.update (fun _ => none) slot (some connection))
    (hcount : world.table.initedConnNum = if world.connected slot then 1 else 0)
    (hlock : world.table.fdLock = true)
    (hopened : ∀ other, world.opened other = true → other = slot)
    (fd : Int) (connectOk threadOk : Bool) :
    Shape (step world (.connect fd connectOk threadOk)) ↔
      KeepsApart world (.connect fd connectOk threadOk) := by
  have hvalid := fdIsValid_of_taken hlock hslot fd
  have hsame := Shape.taken connection slot hsome hslot hcount hlock hopened
  by_cases hnamed : slotOf fd = some slot
  · rw [if_pos hnamed] at hvalid
    cases connectOk with
    | false =>
        refine ⟨fun _ hok => absurd hok (by decide), fun _ => ?_⟩
        simp only [step, iotxCmConnect, hvalid, mqttConnect, hsome, Bool.false_eq_true, if_false]
        exact hsame
    | true =>
        cases hconnected : world.connected slot with
        | true =>
            -- the count goes to two for one connected descriptor
            refine ⟨fun hshape => ?_, fun hapart => ?_⟩
            · have hcounted := (consistent_of_shape hshape).counted
              have htable : (step world (.connect fd true threadOk)).table =
                  { world.table with initedConnNum := 2 } := by
                simp [step, iotxCmConnect, hvalid, mqttConnect, hsome, hcount, hconnected,
                  stateSuccess]
              rw [htable, card_connected_of_taken hslot] at hcounted
              simp only at hcounted
              split at hcounted <;> simp at hcounted
            · have hother := hapart rfl slot hvalid
              rw [hconnected] at hother
              exact absurd hother (by decide)
        | false =>
            refine ⟨fun _ _ other hother => ?_, fun _ => ?_⟩
            · obtain rfl : slot = other := Option.some.inj (hvalid.symm.trans hother)
              exact hconnected
            · cases threadOk with
              | false =>
                  have huncounted : step world (.connect fd true false) =
                      { world with table := { world.table with initedConnNum := 0 } } := by
                    simp [step, iotxCmConnect, hvalid, mqttConnect, hsome, hcount, hconnected,
                      stateSuccess]
                  rw [huncounted]
                  exact Shape.taken connection slot hsome hslot (by simp [hconnected]) hlock
                    hopened
              | true =>
                  have hcounted : step world (.connect fd true true) =
                      { world with
                        table := { world.table with initedConnNum := 1 }
                        connected := Function.update world.connected slot true } := by
                    simp [step, iotxCmConnect, hvalid, mqttConnect, hsome, hcount, hconnected,
                      stateSuccess, record, hnamed]
                  rw [hcounted]
                  exact Shape.taken connection slot hsome hslot (by simp) hlock hopened
  · rw [if_neg hnamed] at hvalid
    refine ⟨fun _ _ other hother => ?_, fun _ => ?_⟩
    · rw [hvalid] at hother
      exact absurd hother (by simp)
    · simp only [step, iotxCmConnect, hvalid]
      exact hsame

/-! ## Runs -/

/-- A call keeps the four pieces in step exactly when it meets the condition. -/
theorem consistent_step_iff (world : World) (call : Call) (hconsistent : Consistent world) :
    Consistent (step world call) ↔ KeepsApart world call := by
  have hshapes : ∀ reached, Consistent reached ↔ Shape reached := fun _ =>
    ⟨shape_of_consistent, consistent_of_shape⟩
  rw [hshapes]
  cases shape_of_consistent hconsistent with
  | vacant hnone hfree hcount hopened =>
      have hshape := shape_of_vacant hnone hfree hcount hopened call
      refine ⟨fun _ => ?_, fun _ => hshape⟩
      cases call with
      | openMqtt mallocOk paramOk mutexOk => exact hnone
      | connect fd connectOk threadOk =>
          intro _ slot hslot
          rw [fdIsValid_of_free hfree] at hslot
          exact absurd hslot (by simp)
      | close fd mutexOk => trivial
  | taken connection slot hsome hslot hcount hlock hopened =>
      cases call with
      | openMqtt mallocOk paramOk mutexOk =>
          have hbroken := not_shape_open_of_taken hsome hslot hlock mallocOk paramOk mutexOk
          refine ⟨fun hshape => absurd hshape hbroken, fun hnone => ?_⟩
          exact absurd (hsome.symm.trans hnone) (by simp)
      | connect fd connectOk threadOk =>
          exact shape_connect_of_taken_iff hsome hslot hcount hlock hopened fd connectOk threadOk
      | close fd mutexOk =>
          exact ⟨fun _ => trivial, fun _ =>
            shape_close_of_taken hsome hslot hcount hlock hopened fd mutexOk⟩

theorem consistent_start : Consistent start :=
  consistent_of_shape (Shape.vacant rfl rfl rfl fun _ => rfl)

/-- The four pieces of state agree in every state of a run exactly when nothing is opened while the
connection exists and no connected descriptor is connected again. -/
theorem consistent_always_iff (calls : List Call) :
    Always step Consistent start calls ↔ StepsMeet step KeepsApart start calls := by
  have hnoSide : ∀ (world : World) (call : Call), True → True := fun _ _ _ => trivial
  apply always_iff_stepsMeet hnoSide ?_ trivial consistent_start
  intro world call _ hconsistent
  exact consistent_step_iff world call hconsistent

/-- A second open, and a second connect. -/
theorem consistent_fails_after_reopen :
    (¬Always step Consistent start
      [.openMqtt true true true, .openMqtt true true true]) ∧
    ¬Always step Consistent start
      [.openMqtt true true true, .connect 0 true true, .connect 0 true true] := by
  constructor
  · intro halways
    obtain ⟨_, _, honly⟩ := halways.finish.one_slot 0 (by decide)
    have hsame := (honly ⟨0, by decide⟩ (by decide)).trans (honly ⟨1, by decide⟩ (by decide)).symm
    exact absurd hsame (by decide)
  · intro halways
    have hcounted := halways.finish.counted
    revert hcounted
    decide

end EnosDeviceSdk.DevModel.Connection
