/-
# The list of devices

`dm_manager.c` keeps one node for every device, the gateway's own first, and finds them by
device id or by product key and device key. Creating a device looks its keys up and links a
node under the next id of a counter; destroying one unlinks the node and gives no id back.

Both keys stay unique, and walking from one id to the next visits every device once, as long
as the counter stays below the largest `int`. Creation takes the next id without asking whether
it is in use, and nothing checks the counter's increment.
-/

import EnosDeviceSdk.Library.Keyed
import EnosDeviceSdk.Library.Run
import EnosDeviceSdk.Infra.Memory
import EnosDeviceSdk.Infra.State
import Mathlib.Algebra.Order.Group.Int

namespace EnosDeviceSdk.DevModel

open EnosDeviceSdk.Infra EnosDeviceSdk.Library

/-- `IOTX_DM_LOCAL_NODE_DEVID` -/
def iotxDmLocalNodeDevid : Int := 0

/-- `IOTX_DM_DEVICE_TYPE` of a gateway, which is `IOTX_DM_DEVICE_GATEWAY`. -/
def iotxDmDeviceType : Int := 4

/-- `IOTX_DM_DEVICE_SUBDEV` -/
def iotxDmDeviceSubdev : Int := 2

/-- `IOTX_PRODUCT_KEY_LEN` -/
def iotxProductKeyLen : Nat := 20

/-- `IOTX_PRODUCT_SECRET_LEN` -/
def iotxProductSecretLen : Nat := 64

/-- `IOTX_DEVICE_KEY_LEN` -/
def iotxDeviceKeyLen : Nat := 64

/-- `IOTX_DEVICE_SECRET_LEN` -/
def iotxDeviceSecretLen : Nat := 64

/-- `iotx_dm_dev_avail_t` -/
inductive DevAvail
  | enable | disable
  deriving DecidableEq

/-- `iotx_dm_dev_status_t` -/
inductive DevStatus
  | unauthorized | authorized | registered | attached | logined | online
  deriving DecidableEq

/-- The number of a status, by which the code compares them. -/
def DevStatus.toNat : DevStatus → Nat
  | .unauthorized => 0
  | .authorized => 1
  | .registered => 2
  | .attached => 3
  | .logined => 4
  | .online => 5

/-- `dm_mgr_dev_node_t`. The keys and secrets are character arrays. -/
structure DmMgrDevNode where
  devid : Int
  devType : Int
  productKey : List UInt8
  productSecret : List UInt8
  deviceKey : List UInt8
  deviceSecret : List UInt8
  status : DevAvail
  devStatus : DevStatus
  deriving DecidableEq

/-- The key pair that a node stands for. -/
def DmMgrDevNode.pair (node : DmMgrDevNode) : List UInt8 × List UInt8 :=
  (arrayText node.productKey, arrayText node.deviceKey)

/-- `dm_mgr_ctx`, the list in link order. -/
structure DmMgrCtx where
  globalDevid : Int
  devList : List DmMgrDevNode
  deriving DecidableEq

/-- The largest `int`. -/
def intMax : Int := 2 ^ 31 - 1

/-- `value++` on an `int`. The language leaves the increment of the largest one undefined; the
hardware goes on with the smallest. -/
def intSucc (value : Int) : Int := if value = intMax then -2 ^ 31 else value + 1

/-- `_dm_mgr_search_dev_by_devid` -/
def dmMgrSearchDevByDevid (ctx : DmMgrCtx) (devid : Int) : Option DmMgrDevNode :=
  ctx.devList.find? fun node => node.devid = devid

/-- The comparison that `_dm_mgr_search_dev_by_pkdk` makes. -/
def DmMgrDevNode.matchesKeys (node : DmMgrDevNode) (productKey deviceKey : CString) : Bool :=
  arrayStrlen node.productKey = productKey.strlen &&
    memcmpEqual node.productKey productKey.bytes productKey.strlen &&
    arrayStrlen node.deviceKey = deviceKey.strlen &&
    memcmpEqual node.deviceKey deviceKey.bytes deviceKey.strlen

/-- `_dm_mgr_search_dev_by_pkdk` -/
def dmMgrSearchDevByPkdk (ctx : DmMgrCtx) (productKey deviceKey : CString) :
    Option DmMgrDevNode :=
  ctx.devList.find? fun node => node.matchesKeys productKey deviceKey

/-- `_dm_mgr_insert_dev` -/
def dmMgrInsertDev (ctx : DmMgrCtx) (devid devType : Int) (productKey deviceKey : CString)
    (mallocOk : Bool) : Int × DmMgrCtx :=
  if productKey.strlen ≥ iotxProductKeyLen + 1 then (stateUserInputPk, ctx)
  else if deviceKey.strlen ≥ iotxDeviceKeyLen + 1 then (stateUserInputDn, ctx)
  else
    match dmMgrSearchDevByDevid ctx devid with
    | some _ => (stateDevModelDeviceAlreadyExist, ctx)
    | none =>
        if !mallocOk then (stateSysDependMalloc, ctx)
        else
          (successReturn,
            { ctx with
              devList := ctx.devList ++
                [{ devid := devid
                   devType := devType
                   productKey := productKey.stored (iotxProductKeyLen + 1)
                   productSecret := List.replicate (iotxProductSecretLen + 1) 0
                   deviceKey := deviceKey.stored (iotxDeviceKeyLen + 1)
                   deviceSecret := List.replicate (iotxDeviceSecretLen + 1) 0
                   status := .enable
                   devStatus := .unauthorized }] })

/-- `dm_mgr_init`, with the keys that the SDK was given for the gateway. A failure leaves no
context. -/
def dmMgrInit (productKey deviceKey : CString) (mutexOk mallocOk : Bool) :
    Int × Option DmMgrCtx :=
  if !mutexOk then (stateSysDependMutexCreate, none)
  else
    let (res, ctx) := dmMgrInsertDev ⟨iotxDmLocalNodeDevid + 1, []⟩ iotxDmLocalNodeDevid
      iotxDmDeviceType productKey deviceKey mallocOk
    if res ≠ successReturn then (res, none) else (successReturn, some ctx)

/-- The arguments of `dm_mgr_device_create`; `none` is the null pointer. -/
structure CreateRequest where
  devType : Int
  productKey : Option CString
  productSecret : Option CString
  deviceKey : Option CString
  deviceSecret : Option CString

/-- `dm_mgr_device_create`. The second component is what it stores through `devid`. -/
def dmMgrDeviceCreate (ctx : DmMgrCtx) (request : CreateRequest) (mallocOk : Bool) :
    Int × Option Int × DmMgrCtx :=
  match request.productKey, request.productSecret, request.deviceKey with
  | some productKey, some productSecret, some deviceKey =>
      if productKey.strlen ≥ iotxProductKeyLen + 1 ∨
          productSecret.strlen ≥ iotxProductSecretLen + 1 ∨
          deviceKey.strlen ≥ iotxDeviceKeyLen + 1 then
        (stateUserInputInvalid, none, ctx)
      else if request.deviceSecret.any fun secret =>
          secret.strlen ≥ iotxDeviceSecretLen + 1 then
        (stateUserInputInvalid, none, ctx)
      else
        match dmMgrSearchDevByPkdk ctx productKey deviceKey with
        | some node => (stateDevModelDeviceAlreadyExist, some node.devid, ctx)
        | none =>
            if !mallocOk then (stateSysDependMalloc, none, ctx)
            else
              (successReturn, some ctx.globalDevid,
                { globalDevid := intSucc ctx.globalDevid
                  devList := ctx.devList ++
                    [{ devid := ctx.globalDevid
                       devType := request.devType
                       productKey := productKey.stored (iotxProductKeyLen + 1)
                       productSecret := productSecret.stored (iotxProductSecretLen + 1)
                       deviceKey := deviceKey.stored (iotxDeviceKeyLen + 1)
                       deviceSecret :=
                         match request.deviceSecret with
                         | some secret => secret.stored (iotxDeviceSecretLen + 1)
                         | none => List.replicate (iotxDeviceSecretLen + 1) 0
                       status := .enable
                       devStatus := .authorized }] })
  | _, _, _ => (stateUserInputInvalid, none, ctx)

/-- `dm_mgr_device_destroy`. The node that the search finds is unlinked. -/
def dmMgrDeviceDestroy (ctx : DmMgrCtx) (devid : Int) : Int × DmMgrCtx :=
  if devid < 0 then (stateUserInputDevid, ctx)
  else
    match dmMgrSearchDevByDevid ctx devid with
    | none => (stateDevModelDeviceNotFound, ctx)
    | some node =>
        if node.devid = iotxDmLocalNodeDevid then (stateDevModelSubdNotDeleteable, ctx)
        else
          (successReturn,
            { ctx with devList := ctx.devList.eraseP fun other => other.devid = devid })

/-- The loop of `dm_mgr_get_next_devid`: `search` is the last node seen with the id. -/
def nextDevidLoop (devid : Int) : Option DmMgrDevNode → List DmMgrDevNode → Option Int
  | _, [] => none
  | search, next :: rest =>
      if search.any fun node => node.devid = devid then some next.devid
      else nextDevidLoop devid (if next.devid = devid then some next else search) rest

/-- `dm_mgr_get_next_devid`. The result is what it stores, or `none` for an error code. -/
def dmMgrGetNextDevid (ctx : DmMgrCtx) (devid : Int) : Option Int :=
  if devid < 0 then none else nextDevidLoop devid none ctx.devList

/-- The ids that a walk from an id to the next and the next passes. -/
inductive Visits (ctx : DmMgrCtx) : Int → List Int → Prop
  | last {devid : Int} (hnext : dmMgrGetNextDevid ctx devid = none) : Visits ctx devid [devid]
  | more {devid next : Int} {later : List Int}
      (hnext : dmMgrGetNextDevid ctx devid = some next) (hlater : Visits ctx next later) :
      Visits ctx devid (devid :: later)

/-- A call that changes the list. -/
inductive ManagerCall
  | create (request : CreateRequest) (mallocOk : Bool)
  | destroy (devid : Int)

/-- The context after a call. -/
def managerStep (ctx : DmMgrCtx) : ManagerCall → DmMgrCtx
  | .create request mallocOk => (dmMgrDeviceCreate ctx request mallocOk).2.2
  | .destroy devid => (dmMgrDeviceDestroy ctx devid).2

/-! ## What the calls do -/

/-- The key comparison is equality of the pairs. -/
theorem matchesKeys_iff (node : DmMgrDevNode) (productKey deviceKey : CString) :
    node.matchesKeys productKey deviceKey = true ↔
      node.pair = (productKey.bytes, deviceKey.bytes) := by
  rw [DmMgrDevNode.pair, Prod.mk.injEq, ← CString.memcmpEqual_iff, ← CString.memcmpEqual_iff]
  simp only [DmMgrDevNode.matchesKeys, Bool.and_eq_true, decide_eq_true_iff, and_assoc]

/-- The search by keys fails where no node has the pair. -/
theorem search_pkdk_eq_none_iff (ctx : DmMgrCtx) (productKey deviceKey : CString) :
    dmMgrSearchDevByPkdk ctx productKey deviceKey = none ↔
      (productKey.bytes, deviceKey.bytes) ∉ ctx.devList.map DmMgrDevNode.pair := by
  have hsame : (fun other : DmMgrDevNode => other.matchesKeys productKey deviceKey) =
      fun other => decide (other.pair = (productKey.bytes, deviceKey.bytes)) := by
    funext other
    rw [Bool.eq_iff_iff, matchesKeys_iff, decide_eq_true_iff]
  rw [dmMgrSearchDevByPkdk, hsame]
  exact find?_key_eq_none_iff ctx.devList _

/-- The arguments pass the checks of `dm_mgr_device_create`. -/
structure CreateRequest.Accepts (request : CreateRequest) (productKey deviceKey : CString) :
    Prop where
  productKey_eq : request.productKey = some productKey
  deviceKey_eq : request.deviceKey = some deviceKey
  productKey_le : productKey.strlen ≤ iotxProductKeyLen
  deviceKey_le : deviceKey.strlen ≤ iotxDeviceKeyLen
  productSecret : ∃ secret ∈ request.productSecret, secret.strlen ≤ iotxProductSecretLen
  deviceSecret : ∀ secret ∈ request.deviceSecret, secret.strlen ≤ iotxDeviceSecretLen

/-- A call that links a device: it passes the checks, its pair is not in the list, and there is
memory. -/
def LinksDevice (ctx : DmMgrCtx) (request : CreateRequest) (mallocOk : Bool) : Prop :=
  (∃ productKey deviceKey, request.Accepts productKey deviceKey ∧
    dmMgrSearchDevByPkdk ctx productKey deviceKey = none) ∧ mallocOk = true

/-- With arguments that pass the checks, creation depends on the search and on memory only. -/
theorem dmMgrDeviceCreate_of_accepts {request : CreateRequest} {productKey deviceKey : CString}
    (haccepts : request.Accepts productKey deviceKey) (ctx : DmMgrCtx) (mallocOk : Bool) :
    match dmMgrSearchDevByPkdk ctx productKey deviceKey with
    | some node => dmMgrDeviceCreate ctx request mallocOk =
        (stateDevModelDeviceAlreadyExist, some node.devid, ctx)
    | none =>
        if mallocOk then
          ∃ node, node.devid = ctx.globalDevid ∧
            node.pair = (productKey.bytes, deviceKey.bytes) ∧
            dmMgrDeviceCreate ctx request mallocOk =
              (successReturn, some ctx.globalDevid,
                ⟨intSucc ctx.globalDevid, ctx.devList ++ [node]⟩)
        else dmMgrDeviceCreate ctx request mallocOk = (stateSysDependMalloc, none, ctx) := by
  obtain ⟨devType, _, productSecret, _, deviceSecret⟩ := request
  obtain ⟨rfl, rfl, hproductKey, hdeviceKey, ⟨secret, hsecret, hproductSecret⟩,
    hdeviceSecret⟩ := haccepts
  rw [Option.mem_def] at hsecret
  subst hsecret
  have hchecks : ¬(productKey.strlen ≥ iotxProductKeyLen + 1 ∨
      secret.strlen ≥ iotxProductSecretLen + 1 ∨
      deviceKey.strlen ≥ iotxDeviceKeyLen + 1) := by
    omega
  have hshort : (deviceSecret.any fun secret =>
      decide (secret.strlen ≥ iotxDeviceSecretLen + 1)) = false := by
    cases deviceSecret with
    | none => rfl
    | some secret =>
        have hle := hdeviceSecret secret rfl
        simp only [Option.any_some, decide_eq_false_iff_not]
        omega
  unfold dmMgrDeviceCreate
  simp only [hchecks, if_false, hshort, Bool.false_eq_true]
  cases dmMgrSearchDevByPkdk ctx productKey deviceKey with
  | some node => rfl
  | none =>
      cases mallocOk with
      | false => rfl
      | true =>
          refine ⟨_, ?_, ?_, rfl⟩
          · rfl
          · simp [DmMgrDevNode.pair, CString.arrayText_stored]

/-- Arguments that do not pass the checks change nothing. -/
theorem dmMgrDeviceCreate_of_not_accepts {request : CreateRequest}
    (hrejected : ¬∃ productKey deviceKey, request.Accepts productKey deviceKey)
    (ctx : DmMgrCtx) (mallocOk : Bool) :
    dmMgrDeviceCreate ctx request mallocOk = (stateUserInputInvalid, none, ctx) := by
  obtain ⟨devType, productKey, productSecret, deviceKey, deviceSecret⟩ := request
  cases productKey with
  | none => rfl
  | some productKey =>
      cases productSecret with
      | none => rfl
      | some productSecret =>
          cases deviceKey with
          | none => rfl
          | some deviceKey =>
              unfold dmMgrDeviceCreate
              dsimp only
              split
              · rfl
              · rename_i hchecks
                split
                · rfl
                · rename_i hshort
                  refine absurd ⟨productKey, deviceKey, rfl, rfl, by omega, by omega,
                    ⟨productSecret, rfl, by omega⟩, ?_⟩ hrejected
                  intro secret hsecret
                  simp only at hsecret
                  rw [Option.mem_def] at hsecret
                  subst hsecret
                  simp only [Option.any_some, decide_eq_true_iff] at hshort
                  omega

/-- A creation links one node, under the counter's id and the requested pair, which no node had
before; or it changes nothing. -/
theorem managerStep_create_cases (ctx : DmMgrCtx) (request : CreateRequest) (mallocOk : Bool) :
    (¬LinksDevice ctx request mallocOk ∧ managerStep ctx (.create request mallocOk) = ctx) ∨
      LinksDevice ctx request mallocOk ∧ ∃ node,
        node.devid = ctx.globalDevid ∧ node.pair ∉ ctx.devList.map DmMgrDevNode.pair ∧
        managerStep ctx (.create request mallocOk) =
          ⟨intSucc ctx.globalDevid, ctx.devList ++ [node]⟩ := by
  by_cases haccepted : ∃ productKey deviceKey, request.Accepts productKey deviceKey
  · obtain ⟨productKey, deviceKey, haccepts⟩ := haccepted
    have hcreate := dmMgrDeviceCreate_of_accepts haccepts ctx mallocOk
    have hsame : ∀ otherKey otherDevice, request.Accepts otherKey otherDevice →
        otherKey = productKey ∧ otherDevice = deviceKey := by
      intro otherKey otherDevice hother
      have hkey := hother.productKey_eq.symm.trans haccepts.productKey_eq
      have hdevice := hother.deviceKey_eq.symm.trans haccepts.deviceKey_eq
      exact ⟨Option.some.inj hkey, Option.some.inj hdevice⟩
    cases hsearch : dmMgrSearchDevByPkdk ctx productKey deviceKey with
    | some found =>
        rw [hsearch] at hcreate
        refine Or.inl ⟨?_, congrArg (·.2.2) hcreate⟩
        rintro ⟨⟨otherKey, otherDevice, hother, hnone⟩, _⟩
        obtain ⟨rfl, rfl⟩ := hsame otherKey otherDevice hother
        rw [hsearch] at hnone
        exact absurd hnone (by simp)
    | none =>
        rw [hsearch] at hcreate
        cases mallocOk with
        | false =>
            refine Or.inl ⟨?_, congrArg (·.2.2) hcreate⟩
            rintro ⟨_, hmalloc⟩
            exact absurd hmalloc (by decide)
        | true =>
            obtain ⟨node, hdevid, hpair, hresult⟩ := hcreate
            refine Or.inr ⟨⟨⟨productKey, deviceKey, haccepts, hsearch⟩, rfl⟩, node, hdevid, ?_,
              congrArg (·.2.2) hresult⟩
            intro hmem
            obtain ⟨other, hother, hsamePair⟩ := List.mem_map.mp hmem
            have hmatches : other.matchesKeys productKey deviceKey = true := by
              rw [matchesKeys_iff, hsamePair, hpair]
            have hnone := List.find?_eq_none.mp hsearch other hother
            exact hnone hmatches
  · refine Or.inl ⟨?_, ?_⟩
    · rintro ⟨⟨productKey, deviceKey, haccepts, _⟩, _⟩
      exact haccepted ⟨productKey, deviceKey, haccepts⟩
    · rw [managerStep, dmMgrDeviceCreate_of_not_accepts haccepted]

/-- A destruction drops the first node with the id, never the local node, or changes nothing. -/
theorem managerStep_destroy_cases (ctx : DmMgrCtx) (devid : Int) :
    managerStep ctx (.destroy devid) = ctx ∨
      devid ≠ iotxDmLocalNodeDevid ∧ managerStep ctx (.destroy devid) =
        { ctx with devList := ctx.devList.eraseP fun other => other.devid = devid } := by
  simp only [managerStep, dmMgrDeviceDestroy]
  by_cases hnegative : devid < 0
  · exact Or.inl (by simp [hnegative])
  · cases hsearch : dmMgrSearchDevByDevid ctx devid with
    | none => exact Or.inl (by simp [hnegative])
    | some node =>
        have hdevid : node.devid = devid := by
          have hfound := List.find?_some hsearch
          simpa using hfound
        by_cases hlocal : devid = iotxDmLocalNodeDevid
        · subst hlocal
          exact Or.inl (by simp [hnegative, hdevid])
        · exact Or.inr ⟨hlocal, by simp [hnegative, hdevid, hlocal]⟩

/-! ## What the list promises -/

/-- The gateway's own node is the first of the list. -/
def LocalFirst (ctx : DmMgrCtx) : Prop :=
  ∃ node rest, ctx.devList = node :: rest ∧ node.devid = iotxDmLocalNodeDevid

/-- Ids are distinct, between the local id and the counter, and key pairs are distinct. -/
structure Registered (ctx : DmMgrCtx) : Prop where
  ids_distinct : (ctx.devList.map DmMgrDevNode.devid).Nodup
  ids_below : ∀ node ∈ ctx.devList, 0 ≤ node.devid ∧ node.devid < ctx.globalDevid
  pairs_distinct : (ctx.devList.map DmMgrDevNode.pair).Nodup

/-- What the manager promises: ids and key pairs are unique, ids lie below the counter, and the
local node is there. Creating an existing pair reports the existing id and changes nothing.
Either lookup finds exactly the node that is meant, and the walk from the local node passes the
ids of the list in their order. -/
structure KeepsRegistry (ctx : DmMgrCtx) : Prop extends Registered ctx where
  local_present : ∃ node ∈ ctx.devList, node.devid = iotxDmLocalNodeDevid
  existing : ∀ node ∈ ctx.devList, ∀ request productKey deviceKey,
    request.Accepts productKey deviceKey →
    node.pair = (productKey.bytes, deviceKey.bytes) → ∀ mallocOk,
      dmMgrDeviceCreate ctx request mallocOk =
        (stateDevModelDeviceAlreadyExist, some node.devid, ctx)
  found_by_devid : ∀ devid node, dmMgrSearchDevByDevid ctx devid = some node ↔
    node ∈ ctx.devList ∧ node.devid = devid
  found_by_keys : ∀ productKey deviceKey node,
    dmMgrSearchDevByPkdk ctx productKey deviceKey = some node ↔
      node ∈ ctx.devList ∧ node.pair = (productKey.bytes, deviceKey.bytes)
  visited : Visits ctx iotxDmLocalNodeDevid (ctx.devList.map DmMgrDevNode.devid)

theorem Registered.found_by_devid {ctx : DmMgrCtx} (hregistered : Registered ctx)
    (devid : Int) (node : DmMgrDevNode) :
    dmMgrSearchDevByDevid ctx devid = some node ↔ node ∈ ctx.devList ∧ node.devid = devid :=
  find?_key_iff hregistered.ids_distinct devid node

theorem Registered.found_by_keys {ctx : DmMgrCtx} (hregistered : Registered ctx)
    (productKey deviceKey : CString) (node : DmMgrDevNode) :
    dmMgrSearchDevByPkdk ctx productKey deviceKey = some node ↔
      node ∈ ctx.devList ∧ node.pair = (productKey.bytes, deviceKey.bytes) := by
  have hsame : (fun other : DmMgrDevNode => other.matchesKeys productKey deviceKey) =
      fun other => decide (other.pair = (productKey.bytes, deviceKey.bytes)) := by
    funext other
    rw [Bool.eq_iff_iff, matchesKeys_iff, decide_eq_true_iff]
  rw [dmMgrSearchDevByPkdk, hsame]
  exact find?_key_iff hregistered.pairs_distinct _ node

/-- Past the node with the id, the loop stops at the node after it. -/
theorem nextDevidLoop_of_mem {devid : Int} {before after : List DmMgrDevNode}
    {node : DmMgrDevNode} (hdevid : node.devid = devid)
    (hbefore : ∀ other ∈ before, other.devid ≠ devid) :
    nextDevidLoop devid none (before ++ node :: after) =
      after.head?.map DmMgrDevNode.devid := by
  induction before with
  | nil => cases after <;> simp [nextDevidLoop, hdevid]
  | cons earlier rest ih =>
      have hother := hbefore earlier List.mem_cons_self
      have hrest := ih fun other hmem => hbefore other (List.mem_cons_of_mem earlier hmem)
      simpa [nextDevidLoop, hother] using hrest

/-- The next id after a node's is that of the node after it. -/
theorem Registered.nextDevid_eq {ctx : DmMgrCtx} (hregistered : Registered ctx)
    {before after : List DmMgrDevNode} {node : DmMgrDevNode}
    (hlist : ctx.devList = before ++ node :: after) :
    dmMgrGetNextDevid ctx node.devid = after.head?.map DmMgrDevNode.devid := by
  have hmem : node ∈ ctx.devList := by simp [hlist]
  have hvalid : ¬node.devid < 0 := not_lt.mpr (hregistered.ids_below node hmem).1
  have hdistinct := hregistered.ids_distinct
  rw [hlist, List.map_append, List.nodup_append] at hdistinct
  rw [dmMgrGetNextDevid, if_neg hvalid, hlist]
  apply nextDevidLoop_of_mem rfl
  intro other hother
  exact hdistinct.2.2 _ (List.mem_map_of_mem hother) _ (by simp)

/-- The walk from a node passes the ids from this node on. -/
theorem Registered.visits_from {ctx : DmMgrCtx} (hregistered : Registered ctx)
    {before after : List DmMgrDevNode} {node : DmMgrDevNode}
    (hlist : ctx.devList = before ++ node :: after) :
    Visits ctx node.devid (node.devid :: after.map DmMgrDevNode.devid) := by
  have hnext := hregistered.nextDevid_eq hlist
  induction after generalizing before node with
  | nil => exact Visits.last hnext
  | cons next later ih =>
      have hlater : ctx.devList = (before ++ [node]) ++ next :: later := by
        rw [hlist, List.append_assoc]
        rfl
      exact Visits.more hnext (ih hlater (hregistered.nextDevid_eq hlater))

/-- Distinct ids and pairs give everything that the manager promises. -/
theorem keepsRegistry_iff {ctx : DmMgrCtx} (hfirst : LocalFirst ctx) :
    KeepsRegistry ctx ↔ Registered ctx := by
  refine ⟨KeepsRegistry.toRegistered, fun hregistered => ?_⟩
  obtain ⟨first, rest, hlist, hlocal⟩ := hfirst
  refine
    { hregistered with
      local_present := ⟨first, by simp [hlist], hlocal⟩
      existing := ?_
      found_by_devid := hregistered.found_by_devid
      found_by_keys := hregistered.found_by_keys
      visited := ?_ }
  · intro node hnode request productKey deviceKey haccepts hpair mallocOk
    have hfound := (hregistered.found_by_keys productKey deviceKey node).mpr ⟨hnode, hpair⟩
    have hcreate := dmMgrDeviceCreate_of_accepts haccepts ctx mallocOk
    rwa [hfound] at hcreate
  · have hwalk : ctx.devList = [] ++ first :: rest := hlist
    have hvisits := hregistered.visits_from hwalk
    rwa [← List.map_cons, ← hlist, hlocal] at hvisits

/-! ## Runs -/

theorem localFirst_managerStep (ctx : DmMgrCtx) (call : ManagerCall)
    (hfirst : LocalFirst ctx) : LocalFirst (managerStep ctx call) := by
  obtain ⟨first, rest, hlist, hlocal⟩ := hfirst
  cases call with
  | create request mallocOk =>
      rcases managerStep_create_cases ctx request mallocOk with
        ⟨_, hsame⟩ | ⟨_, node, _, _, hlinked⟩
      · rw [hsame]
        exact ⟨first, rest, hlist, hlocal⟩
      · rw [hlinked]
        exact ⟨first, rest ++ [node], by simp [hlist], hlocal⟩
  | destroy devid =>
      rcases managerStep_destroy_cases ctx devid with hsame | ⟨hother, hunlinked⟩
      · rw [hsame]
        exact ⟨first, rest, hlist, hlocal⟩
      · have hkept : ¬first.devid = devid := fun hdevid => hother (hdevid ▸ hlocal)
        rw [hunlinked, hlist]
        exact ⟨first, rest.eraseP fun other => other.devid = devid, by simp [hkept], hlocal⟩

/-- The call does not link a device under the largest id there is. -/
def CounterHasRoom (ctx : DmMgrCtx) : ManagerCall → Prop
  | .create request mallocOk => LinksDevice ctx request mallocOk → ctx.globalDevid ≠ intMax
  | .destroy _ => True

/-- Linking a node under the counter keeps ids and pairs distinct, exactly when the counter can be
incremented. -/
theorem registered_link_iff {ctx : DmMgrCtx} (hregistered : Registered ctx)
    (hlocal : LocalFirst ctx) {node : DmMgrDevNode} (hdevid : node.devid = ctx.globalDevid)
    (hpair : node.pair ∉ ctx.devList.map DmMgrDevNode.pair) :
    Registered ⟨intSucc ctx.globalDevid, ctx.devList ++ [node]⟩ ↔
      ctx.globalDevid ≠ intMax := by
  constructor
  · intro hlinked hmax
    have hbelow := (hlinked.ids_below node (by simp)).2
    simp only [intSucc, hmax, if_true, hdevid] at hbelow
    exact absurd hbelow (by decide)
  · intro hroom
    have hsucc : intSucc ctx.globalDevid = ctx.globalDevid + 1 := if_neg hroom
    obtain ⟨first, rest, hlist, hzero⟩ := hlocal
    have hpositive : 0 < ctx.globalDevid := by
      have hfirst := (hregistered.ids_below first (by simp [hlist])).2
      rwa [hzero] at hfirst
    refine ⟨?_, ?_, ?_⟩
    · rw [List.map_append, List.nodup_append]
      refine ⟨hregistered.ids_distinct, List.nodup_singleton _, ?_⟩
      intro devid hmem other hother hsame
      obtain ⟨old, hold, rfl⟩ := List.mem_map.mp hmem
      have hbelow := (hregistered.ids_below old hold).2
      rw [List.map_singleton, List.mem_singleton, hdevid] at hother
      omega
    · intro member hmember
      rw [List.mem_append, List.mem_singleton] at hmember
      simp only [hsucc]
      rcases hmember with hold | rfl
      · have hbelow := hregistered.ids_below member hold
        omega
      · omega
    · rw [List.map_append, List.nodup_append]
      refine ⟨hregistered.pairs_distinct, List.nodup_singleton _, ?_⟩
      intro pair hmem other hother hsame
      rw [List.map_singleton, List.mem_singleton] at hother
      exact hpair (hother ▸ hsame ▸ hmem)

/-- A call keeps ids and pairs distinct exactly when the counter has room for it. -/
theorem registered_managerStep_iff (ctx : DmMgrCtx) (call : ManagerCall)
    (hfirst : LocalFirst ctx) (hregistered : Registered ctx) :
    Registered (managerStep ctx call) ↔ CounterHasRoom ctx call := by
  cases call with
  | create request mallocOk =>
      rcases managerStep_create_cases ctx request mallocOk with
        ⟨hnone, hsame⟩ | ⟨hlinks, node, hdevid, hpair, hlinked⟩
      · rw [hsame]
        exact ⟨fun _ hlinks => absurd hlinks hnone, fun _ => hregistered⟩
      · rw [hlinked, registered_link_iff hregistered hfirst hdevid hpair]
        exact ⟨fun hroom _ => hroom, fun hroom => hroom hlinks⟩
  | destroy devid =>
      refine ⟨fun _ => trivial, fun _ => ?_⟩
      rcases managerStep_destroy_cases ctx devid with hsame | ⟨_, hunlinked⟩
      · rw [hsame]
        exact hregistered
      · have hkept : List.Sublist (ctx.devList.eraseP fun other => other.devid = devid)
            ctx.devList := List.eraseP_sublist
        rw [hunlinked]
        exact
          { ids_distinct := hregistered.ids_distinct.sublist (hkept.map _)
            ids_below := fun node hnode => hregistered.ids_below node (hkept.subset hnode)
            pairs_distinct := hregistered.pairs_distinct.sublist (hkept.map _) }

/-- An insertion fails, or links a node with the id. -/
theorem dmMgrInsertDev_cases (ctx : DmMgrCtx) (devid devType : Int)
    (productKey deviceKey : CString) (mallocOk : Bool) :
    (dmMgrInsertDev ctx devid devType productKey deviceKey mallocOk).1 ≠ successReturn ∨
      ∃ node, node.devid = devid ∧
        dmMgrInsertDev ctx devid devType productKey deviceKey mallocOk =
          (successReturn, { ctx with devList := ctx.devList ++ [node] }) := by
  unfold dmMgrInsertDev
  by_cases hproductKey : productKey.strlen ≥ iotxProductKeyLen + 1
  · exact Or.inl (by simp [hproductKey, stateUserInputPk, successReturn])
  · by_cases hdeviceKey : deviceKey.strlen ≥ iotxDeviceKeyLen + 1
    · exact Or.inl (by simp [hproductKey, hdeviceKey, stateUserInputDn, successReturn])
    · simp only [hproductKey, hdeviceKey, if_false]
      cases dmMgrSearchDevByDevid ctx devid with
      | some _ => exact Or.inl (by simp [stateDevModelDeviceAlreadyExist, successReturn])
      | none =>
          cases mallocOk with
          | false => exact Or.inl (by simp [stateSysDependMalloc, successReturn])
          | true => exact Or.inr ⟨_, rfl, rfl⟩

/-- A successful initialisation leaves the local node alone in the list. -/
theorem dmMgrInit_registered {productKey deviceKey : CString} {mutexOk mallocOk : Bool}
    {ctx : DmMgrCtx}
    (hinit : dmMgrInit productKey deviceKey mutexOk mallocOk = (successReturn, some ctx)) :
    LocalFirst ctx ∧ Registered ctx := by
  obtain ⟨node, hlocal, rfl⟩ : ∃ node : DmMgrDevNode, node.devid = iotxDmLocalNodeDevid ∧
      ctx = ⟨iotxDmLocalNodeDevid + 1, [node]⟩ := by
    cases mutexOk with
    | false => simp [dmMgrInit] at hinit
    | true =>
        rcases dmMgrInsertDev_cases ⟨iotxDmLocalNodeDevid + 1, []⟩ iotxDmLocalNodeDevid
            iotxDmDeviceType productKey deviceKey mallocOk with hfailed | ⟨node, hdevid, hlinked⟩
        · simp [dmMgrInit, hfailed] at hinit
        · refine ⟨node, hdevid, ?_⟩
          simp only [dmMgrInit, hlinked] at hinit
          simpa using hinit.symm
  refine ⟨⟨node, [], rfl, hlocal⟩, ?_, ?_, ?_⟩
  · simp
  · intro other hother
    rw [List.mem_singleton] at hother
    subst hother
    rw [hlocal]
    exact ⟨le_refl _, by simp⟩
  · simp

/-- From a successful initialisation on, the manager keeps its promises in every state of a run
exactly when no device is linked under the largest `int`. -/
theorem keepsRegistry_always_iff {productKey deviceKey : CString} {mutexOk mallocOk : Bool}
    {ctx : DmMgrCtx}
    (hinit : dmMgrInit productKey deviceKey mutexOk mallocOk = (successReturn, some ctx))
    (calls : List ManagerCall) :
    Always managerStep KeepsRegistry ctx calls ↔
      StepsMeet managerStep CounterHasRoom ctx calls := by
  obtain ⟨hfirst, hregistered⟩ := dmMgrInit_registered hinit
  apply always_iff_stepsMeet localFirst_managerStep ?_ hfirst
    ((keepsRegistry_iff hfirst).mpr hregistered)
  intro state call hlocal hkeeps
  rw [keepsRegistry_iff (localFirst_managerStep state call hlocal)]
  exact registered_managerStep_iff state call hlocal hkeeps.toRegistered

/-- The request for a device with these keys and no secrets. -/
def plainRequest (productKey deviceKey : CString) : CreateRequest where
  devType := iotxDmDeviceSubdev
  productKey := some productKey
  productSecret := some .empty
  deviceKey := some deviceKey
  deviceSecret := none

/-- A subdevice with product key `p` and device key `d`. -/
def subdevRequest : CreateRequest := plainRequest ⟨[112], by decide⟩ ⟨[100], by decide⟩

/-- A gateway with product key `p` and device key `g`, right after the initialisation. -/
def gatewayAlone : DmMgrCtx where
  globalDevid := 1
  devList :=
    [{ devid := 0
       devType := 4
       productKey := CString.stored ⟨[112], by decide⟩ 21
       productSecret := List.replicate 65 0
       deviceKey := CString.stored ⟨[103], by decide⟩ 65
       deviceSecret := List.replicate 65 0
       status := .enable
       devStatus := .unauthorized }]

theorem dmMgrInit_gatewayAlone :
    dmMgrInit ⟨[112], by decide⟩ ⟨[103], by decide⟩ true true =
      (successReturn, some gatewayAlone) := by
  decide

/-- Two devices whose keys begin alike, one created twice and one destroyed. -/
theorem keepsRegistry_always_two_devices :
    Always managerStep KeepsRegistry gatewayAlone
      [.create (plainRequest ⟨[112], by decide⟩ ⟨[100, 49], by decide⟩) true,
        .create (plainRequest ⟨[112], by decide⟩ ⟨[100, 49, 50], by decide⟩) true,
        .create (plainRequest ⟨[112], by decide⟩ ⟨[100, 49], by decide⟩) true,
        .destroy 1, .destroy 0] := by
  refine (keepsRegistry_always_iff dmMgrInit_gatewayAlone _).mpr
    ⟨?_, ?_, ?_, trivial, trivial, trivial⟩ <;>
  · intro _
    decide +kernel

/-- The same device is created and destroyed so many times. -/
def createDestroyRounds : Nat → List ManagerCall
  | 0 => []
  | rounds + 1 =>
      createDestroyRounds rounds ++ [.create subdevRequest true, .destroy (rounds + 1)]

/-- Creating the device leaves it under the counter's id, behind the gateway's own node. -/
theorem managerStep_create_gatewayAlone (globalDevid : Int) :
    ∃ node, node.devid = globalDevid ∧
      managerStep { gatewayAlone with globalDevid := globalDevid }
          (.create subdevRequest true) =
        ⟨intSucc globalDevid, gatewayAlone.devList ++ [node]⟩ := by
  rcases managerStep_create_cases { gatewayAlone with globalDevid := globalDevid }
      subdevRequest true with
    ⟨hnone, _⟩ | ⟨_, node, hdevid, _, hlinked⟩
  · have hsearch : dmMgrSearchDevByPkdk gatewayAlone ⟨[112], by decide⟩ ⟨[100], by decide⟩ =
        none := by
      decide +kernel
    exact absurd ⟨⟨_, _, ⟨rfl, rfl, by decide, by decide, ⟨_, rfl, by decide⟩, nofun⟩,
      hsearch⟩, rfl⟩ hnone
  · exact ⟨node, hdevid, hlinked⟩

/-- Every round takes one id, for as long as there are ids to take. -/
theorem runFrom_createDestroyRounds (rounds : Nat) (hrounds : (rounds : Int) + 1 ≤ intMax) :
    runFrom managerStep gatewayAlone (createDestroyRounds rounds) =
      { gatewayAlone with globalDevid := rounds + 1 } := by
  induction rounds with
  | zero => rfl
  | succ rounds ih =>
      push_cast at hrounds
      have hsucc : intSucc (rounds + 1) = rounds + 1 + 1 := if_neg (by omega)
      obtain ⟨node, hdevid, hlinked⟩ := managerStep_create_gatewayAlone (rounds + 1)
      rw [createDestroyRounds, runFrom_append, ih (by omega), runFrom_cons, runFrom_cons,
        runFrom_nil, hlinked, hsucc]
      have hlocal : ¬(0 : Int) = rounds + 1 := by omega
      have hvalid : ¬(rounds : Int) + 1 < 0 := by omega
      have hother : ¬(rounds : Int) + 1 = iotxDmLocalNodeDevid := by
        simp only [iotxDmLocalNodeDevid]
        omega
      simp [managerStep, dmMgrDeviceDestroy, dmMgrSearchDevByDevid, gatewayAlone, hdevid,
        hlocal, hvalid, hother]

/-- With the counter at the largest `int`, one more creation wraps it. -/
theorem not_keepsRegistry_of_last {rounds : Nat} (hlast : (rounds : Int) + 1 = intMax) :
    ¬Always managerStep KeepsRegistry gatewayAlone
      (createDestroyRounds rounds ++ [.create subdevRequest true]) := by
  intro halways
  have hkeeps := halways.finish
  obtain ⟨node, hdevid, hlinked⟩ := managerStep_create_gatewayAlone intMax
  rw [runFrom_append, runFrom_createDestroyRounds _ hlast.le, hlast, runFrom_cons, runFrom_nil,
    hlinked] at hkeeps
  have hbelow : node.devid < intSucc intMax := (hkeeps.ids_below node (by simp)).2
  rw [hdevid] at hbelow
  exact absurd hbelow (by decide)

/-- After `2 ^ 31 - 2` rounds the next creation takes the largest id, and the counter goes on with
the smallest. -/
theorem counter_wraps :
    dmMgrInit ⟨[112], by decide⟩ ⟨[103], by decide⟩ true true =
        (successReturn, some gatewayAlone) ∧
      ¬Always managerStep KeepsRegistry gatewayAlone
        (createDestroyRounds (2 ^ 31 - 2) ++
          [.create (plainRequest ⟨[112], by decide⟩ ⟨[100], by decide⟩) true]) :=
  ⟨dmMgrInit_gatewayAlone, not_keepsRegistry_of_last (by rw [intMax]; omega)⟩

end EnosDeviceSdk.DevModel
