/-
# The message cache of pending upstream requests

`dm_message_cache.c` keeps every request that waits for a reply in `dmc_list`
and counts the entries separately in `dmc_list_size`. Insertion and removal
move the list and the counter together; the expiry pass `dm_msg_cache_tick`
unlinks nodes and leaves the counter alone.

The central fact is that the counter is the list's length plus the number of
nodes that have ever expired. Counter and list therefore agree throughout a run
exactly when no tick of the run finds an expired node.
-/

import EnosDeviceSdk.Library.Run
import EnosDeviceSdk.Infra.State
import Mathlib.Algebra.Order.Group.Int

namespace EnosDeviceSdk.DevModel

open EnosDeviceSdk.Infra EnosDeviceSdk.Library

/-- `CONFIG_MSGCACHE_QUEUE_MAXLEN` -/
def configMsgcacheQueueMaxlen : Int := 50

/-- `DM_MSG_CACHE_TIMEOUT_MS_DEFAULT` -/
def dmMsgCacheTimeoutMsDefault : Nat := 10000

/-- `DM_UTILS_UINT32_STRLEN` -/
def dmUtilsUint32Strlen : Nat := 10

/-- The reply events of `iotx_dm_event_types_t` that requests are cached under. -/
def iotxDmEventSubdevRegisterReply : Nat := 23
def iotxDmEventThingReply : Nat := 30

/-- The codes of `iotx_dm_error_code_t` that the code looks at or makes up. -/
def iotxDmErrCodeSuccess : Int := 200
def iotxDmErrCodeTimeout : Int := 100000

/-- `iotx_report_id`: the counter is unsigned and the result is an `int`. -/
def iotxReportId (gReportId : Nat) : Int :=
  if gReportId % 2 ^ 32 < 2 ^ 31 then gReportId % 2 ^ 32 else gReportId % 2 ^ 32 - 2 ^ 32

/-- `dm_msg_cache_node_t`. The response type is an `iotx_dm_event_types_t`
number that the cache only hands on. -/
structure DmMsgCacheNode where
  msgid : Int
  devid : Int
  responseType : Nat
  data : Option (List UInt8)
  ctime : Nat
  deriving DecidableEq, Repr

/-- `dm_msg_cache_ctx_t`, the list in link order. -/
structure DmMsgCacheCtx where
  dmcListSize : Int
  dmcList : List DmMsgCacheNode
  deriving DecidableEq, Repr

/-- `dm_msg_cache_init`: a zeroed context with an empty list. -/
def dmMsgCacheInit : DmMsgCacheCtx := ⟨0, []⟩

/-- What `dm_msg_send_msg_timeout_to_user` is called with. -/
structure TimeoutNotice where
  msgId : Int
  devid : Int
  type : Nat
  deriving DecidableEq, Repr

/-- `dm_msg_cache_insert`. `mallocOk` is the outcome of the node's allocation
and `uptime` the clock reading stored as creation time. -/
def dmMsgCacheInsert (ctx : DmMsgCacheCtx) (msgid devid : Int) (type : Nat)
    (data : Option (List UInt8)) (mallocOk : Bool) (uptime : Nat) :
    Int × DmMsgCacheCtx :=
  if ctx.dmcListSize ≥ configMsgcacheQueueMaxlen then
    (stateDevModelCtxListFull, ctx)
  else if !mallocOk then
    (stateSysDependMalloc, ctx)
  else
    (successReturn,
      { dmcListSize := ctx.dmcListSize + 1
        dmcList := ctx.dmcList ++ [⟨msgid, devid, type, data, uptime⟩] })

/-- `dm_msg_cache_search` -/
def dmMsgCacheSearch (ctx : DmMsgCacheCtx) (msgid : Int) : Option DmMsgCacheNode :=
  if msgid < 0 then none else ctx.dmcList.find? fun node => node.msgid = msgid

/-- The unlinking loop of `dm_msg_cache_remove`: the first node with the given
id is dropped. `none` says that the loop ran to the end. -/
def dmMsgCacheUnlink (msgid : Int) : List DmMsgCacheNode → Option (List DmMsgCacheNode)
  | [] => none
  | node :: rest =>
      if node.msgid = msgid then some rest
      else (dmMsgCacheUnlink msgid rest).map (node :: ·)

/-- `dm_msg_cache_remove` -/
def dmMsgCacheRemove (ctx : DmMsgCacheCtx) (msgid : Int) : Int × DmMsgCacheCtx :=
  match dmMsgCacheUnlink msgid ctx.dmcList with
  | some list => (successReturn, { dmcListSize := ctx.dmcListSize - 1, dmcList := list })
  | none => (stateDevModelCtxListEmpty, ctx)

/-- A clock that went backwards resets the creation time of a node. -/
def DmMsgCacheNode.clamp (node : DmMsgCacheNode) (currentTime : Nat) : DmMsgCacheNode :=
  if currentTime < node.ctime then { node with ctime := currentTime } else node

/-- The timeout test that a tick makes on a clamped node. -/
def DmMsgCacheNode.expired (node : DmMsgCacheNode) (currentTime : Nat) : Bool :=
  currentTime - (node.clamp currentTime).ctime ≥ dmMsgCacheTimeoutMsDefault

/-- The traversal of `dm_msg_cache_tick`: the nodes that stay and the timeout
messages sent to the user. -/
def dmMsgCacheTickLoop (currentTime : Nat) :
    List DmMsgCacheNode → List DmMsgCacheNode × List TimeoutNotice
  | [] => ([], [])
  | node :: rest =>
      let (kept, notices) := dmMsgCacheTickLoop currentTime rest
      if node.expired currentTime then
        (kept, ⟨node.msgid, node.devid, node.responseType⟩ :: notices)
      else (node.clamp currentTime :: kept, notices)

/-- `dm_msg_cache_tick`. The source does not touch `dmc_list_size` here. -/
def dmMsgCacheTick (ctx : DmMsgCacheCtx) (uptime : Nat) :
    DmMsgCacheCtx × List TimeoutNotice :=
  let (kept, notices) := dmMsgCacheTickLoop uptime ctx.dmcList
  ({ ctx with dmcList := kept }, notices)

/-- One call on the cache, with the outcomes that its environment decides. -/
inductive CacheCall
  | insert (msgid devid : Int) (type : Nat) (data : Option (List UInt8))
      (mallocOk : Bool) (uptime : Nat)
  | remove (msgid : Int)
  | tick (uptime : Nat)
  deriving DecidableEq, Repr

/-- The cache after one call. -/
def cacheStep (ctx : DmMsgCacheCtx) : CacheCall → DmMsgCacheCtx
  | .insert msgid devid type data mallocOk uptime =>
      (dmMsgCacheInsert ctx msgid devid type data mallocOk uptime).2
  | .remove msgid => (dmMsgCacheRemove ctx msgid).2
  | .tick uptime => (dmMsgCacheTick ctx uptime).1

/-! ## What one call does -/

/-- An insertion either leaves the cache alone or appends one node and counts it. -/
theorem dmMsgCacheInsert_cases (ctx : DmMsgCacheCtx) (msgid devid : Int) (type : Nat)
    (data : Option (List UInt8)) (mallocOk : Bool) (uptime : Nat) :
    (dmMsgCacheInsert ctx msgid devid type data mallocOk uptime).2 = ctx ∨
      ctx.dmcListSize < configMsgcacheQueueMaxlen ∧
        (dmMsgCacheInsert ctx msgid devid type data mallocOk uptime).2 =
          { dmcListSize := ctx.dmcListSize + 1
            dmcList := ctx.dmcList ++ [⟨msgid, devid, type, data, uptime⟩] } := by
  by_cases hfull : ctx.dmcListSize ≥ configMsgcacheQueueMaxlen
  · exact Or.inl (by simp [dmMsgCacheInsert, hfull])
  · cases mallocOk with
    | false => exact Or.inl (by simp [dmMsgCacheInsert, hfull])
    | true =>
        exact Or.inr ⟨not_le.mp hfull, by simp [dmMsgCacheInsert, hfull]⟩

/-- The full-list code is returned exactly when the counter stands at the limit. -/
theorem dmMsgCacheInsert_full_iff (ctx : DmMsgCacheCtx) (msgid devid : Int) (type : Nat)
    (data : Option (List UInt8)) (mallocOk : Bool) (uptime : Nat) :
    (dmMsgCacheInsert ctx msgid devid type data mallocOk uptime).1 =
        stateDevModelCtxListFull ↔
      configMsgcacheQueueMaxlen ≤ ctx.dmcListSize := by
  by_cases hfull : ctx.dmcListSize ≥ configMsgcacheQueueMaxlen
  · simp [dmMsgCacheInsert, hfull]
  · cases mallocOk <;>
      simp [dmMsgCacheInsert, hfull, stateDevModelCtxListFull, stateSysDependMalloc,
        successReturn]

/-- A node that is found and unlinked shortens the list by one. -/
theorem length_of_dmMsgCacheUnlink {msgid : Int} {list shorter : List DmMsgCacheNode}
    (hunlink : dmMsgCacheUnlink msgid list = some shorter) :
    list.length = shorter.length + 1 := by
  induction list generalizing shorter with
  | nil => simp [dmMsgCacheUnlink] at hunlink
  | cons node rest ih =>
      by_cases hfound : node.msgid = msgid
      · simp only [dmMsgCacheUnlink, hfound, if_true, Option.some.injEq] at hunlink
        simp [hunlink]
      · simp only [dmMsgCacheUnlink, hfound, if_false, Option.map_eq_some_iff] at hunlink
        obtain ⟨tail, htail, rfl⟩ := hunlink
        simp [ih htail]

/-- A removal either leaves the cache alone or drops one node and uncounts it. -/
theorem dmMsgCacheRemove_cases (ctx : DmMsgCacheCtx) (msgid : Int) :
    (dmMsgCacheRemove ctx msgid).2 = ctx ∨
      ∃ shorter, ctx.dmcList.length = shorter.length + 1 ∧
        (dmMsgCacheRemove ctx msgid).2 =
          { dmcListSize := ctx.dmcListSize - 1, dmcList := shorter } := by
  cases hunlink : dmMsgCacheUnlink msgid ctx.dmcList with
  | none => exact Or.inl (by simp [dmMsgCacheRemove, hunlink])
  | some shorter =>
      exact Or.inr ⟨shorter, length_of_dmMsgCacheUnlink hunlink,
        by simp [dmMsgCacheRemove, hunlink]⟩

/-- A tick shortens the list by the number of expired nodes. -/
theorem length_dmMsgCacheTickLoop (currentTime : Nat) (list : List DmMsgCacheNode) :
    (dmMsgCacheTickLoop currentTime list).1.length +
        list.countP (·.expired currentTime) = list.length := by
  induction list with
  | nil => rfl
  | cons node rest ih =>
      by_cases hexpired : node.expired currentTime
      · simp only [dmMsgCacheTickLoop, hexpired, if_true, List.countP_cons_of_pos,
          List.length_cons]
        omega
      · simp only [dmMsgCacheTickLoop, hexpired, List.countP_cons_of_neg,
          List.length_cons, not_false_eq_true, Bool.false_eq_true, if_false]
        omega

/-- Every expired node is reported to the user once, with its own id, device and
response type, in list order. -/
theorem notices_dmMsgCacheTickLoop (currentTime : Nat) (list : List DmMsgCacheNode) :
    (dmMsgCacheTickLoop currentTime list).2 =
      (list.filter (·.expired currentTime)).map
        fun node => ⟨node.msgid, node.devid, node.responseType⟩ := by
  induction list with
  | nil => rfl
  | cons node rest ih =>
      by_cases hexpired : node.expired currentTime
      · simp [dmMsgCacheTickLoop, hexpired, ih]
      · simp [dmMsgCacheTickLoop, hexpired, ih]

/-- A tick leaves the nodes that are not expired, with their ids and response types. -/
theorem dmMsgCacheTickLoop_kept (currentTime : Nat) (list : List DmMsgCacheNode) :
    (dmMsgCacheTickLoop currentTime list).1 =
      (list.filter fun node => !node.expired currentTime).map (·.clamp currentTime) := by
  induction list with
  | nil => rfl
  | cons node rest ih =>
      by_cases hexpired : node.expired currentTime
      · simp [dmMsgCacheTickLoop, hexpired, ih]
      · simp [dmMsgCacheTickLoop, hexpired, ih]

@[simp]
theorem msgid_clamp (node : DmMsgCacheNode) (currentTime : Nat) :
    (node.clamp currentTime).msgid = node.msgid := by
  unfold DmMsgCacheNode.clamp
  split <;> rfl

@[simp]
theorem responseType_clamp (node : DmMsgCacheNode) (currentTime : Nat) :
    (node.clamp currentTime).responseType = node.responseType := by
  unfold DmMsgCacheNode.clamp
  split <;> rfl

/-! ## Counter and list over whole runs -/

/-- The counter covers the list and never passes the limit. -/
structure CounterCovers (ctx : DmMsgCacheCtx) : Prop where
  length_le : (ctx.dmcList.length : Int) ≤ ctx.dmcListSize
  size_le : ctx.dmcListSize ≤ configMsgcacheQueueMaxlen

theorem counterCovers_init : CounterCovers dmMsgCacheInit :=
  ⟨le_refl _, by decide⟩

/-- No call breaks the covering invariant: a tick only shortens the list. -/
theorem counterCovers_step (ctx : DmMsgCacheCtx) (call : CacheCall)
    (hcovers : CounterCovers ctx) : CounterCovers (cacheStep ctx call) := by
  obtain ⟨hlength, hsize⟩ := hcovers
  cases call with
  | insert msgid devid type data mallocOk uptime =>
      rcases dmMsgCacheInsert_cases ctx msgid devid type data mallocOk uptime with
        hsame | ⟨hroom, hadded⟩
      · simpa only [cacheStep, hsame] using CounterCovers.mk hlength hsize
      · rw [cacheStep, hadded]
        refine ⟨?_, Int.add_one_le_iff.mpr hroom⟩
        simp only [List.length_append, List.length_singleton]
        omega
  | remove msgid =>
      rcases dmMsgCacheRemove_cases ctx msgid with hsame | ⟨shorter, hshorter, hremoved⟩
      · simpa only [cacheStep, hsame] using CounterCovers.mk hlength hsize
      · rw [cacheStep, hremoved]
        exact ⟨by simp only; omega, by simp only; omega⟩
  | tick uptime =>
      have hkept := length_dmMsgCacheTickLoop uptime ctx.dmcList
      exact ⟨by simp only [cacheStep, dmMsgCacheTick]; omega, hsize⟩

/-- What the cache promises about its counter: it is the number of pending
requests, within the limit, and a full-list refusal means that many are pending. -/
def CounterExact (ctx : DmMsgCacheCtx) : Prop :=
  ctx.dmcListSize = ctx.dmcList.length ∧
    (ctx.dmcList.length : Int) ≤ configMsgcacheQueueMaxlen ∧
    ∀ msgid devid type data mallocOk uptime,
      (dmMsgCacheInsert ctx msgid devid type data mallocOk uptime).1 =
          stateDevModelCtxListFull →
        (ctx.dmcList.length : Int) = configMsgcacheQueueMaxlen

/-- Under the covering invariant the promise is equality of counter and length. -/
theorem counterExact_iff {ctx : DmMsgCacheCtx} (hcovers : CounterCovers ctx) :
    CounterExact ctx ↔ ctx.dmcListSize = ctx.dmcList.length := by
  refine ⟨And.left, fun hsize => ⟨hsize, hcovers.length_le.trans hcovers.size_le, ?_⟩⟩
  intro msgid devid type data mallocOk uptime hfull
  rw [dmMsgCacheInsert_full_iff] at hfull
  have hle := hcovers.size_le
  omega

/-- The call is not a tick that finds an expired node. -/
def ExpiresNothing (ctx : DmMsgCacheCtx) : CacheCall → Prop
  | .tick uptime => ∀ node ∈ ctx.dmcList, node.expired uptime = false
  | _ => True

/-- One call keeps counter and list equal exactly when it expires nothing. -/
theorem sizeEq_step_iff (ctx : DmMsgCacheCtx) (call : CacheCall)
    (hsize : ctx.dmcListSize = ctx.dmcList.length) :
    (cacheStep ctx call).dmcListSize = (cacheStep ctx call).dmcList.length ↔
      ExpiresNothing ctx call := by
  cases call with
  | insert msgid devid type data mallocOk uptime =>
      rcases dmMsgCacheInsert_cases ctx msgid devid type data mallocOk uptime with
        hsame | ⟨_, hadded⟩
      · simp [cacheStep, ExpiresNothing, hsame, hsize]
      · simp [cacheStep, ExpiresNothing, hadded, hsize]
  | remove msgid =>
      rcases dmMsgCacheRemove_cases ctx msgid with hsame | ⟨shorter, hshorter, hremoved⟩
      · simp [cacheStep, ExpiresNothing, hsame, hsize]
      · simp [cacheStep, ExpiresNothing, hremoved, hsize, hshorter]
  | tick uptime =>
      have hkept := length_dmMsgCacheTickLoop uptime ctx.dmcList
      have hcount : ctx.dmcList.countP (·.expired uptime) = 0 ↔
          ∀ node ∈ ctx.dmcList, node.expired uptime = false := by
        simp [List.countP_eq_zero]
      simp only [cacheStep, dmMsgCacheTick, ExpiresNothing, hsize]
      rw [← hcount]
      omega

/-- Counter and list agree in every state of a run exactly when no tick of the
run expires a request. -/
theorem counterExact_always_iff (calls : List CacheCall) :
    Always cacheStep CounterExact dmMsgCacheInit calls ↔
      StepsMeet cacheStep ExpiresNothing dmMsgCacheInit calls := by
  refine always_iff_stepsMeet counterCovers_step ?_ counterCovers_init
    ((counterExact_iff counterCovers_init).mpr rfl) calls
  intro ctx call hcovers hexact
  rw [counterExact_iff (counterCovers_step ctx call hcovers)]
  exact sizeEq_step_iff ctx call ((counterExact_iff hcovers).mp hexact)

/-- One request that times out stays counted for good. -/
theorem counterExact_fails_after_expiry :
    ¬ Always cacheStep CounterExact dmMsgCacheInit
      [.insert 1 0 30 none true 0, .tick 10000] := by
  intro halways
  have hsize := halways.finish.1
  revert hsize
  decide

end EnosDeviceSdk.DevModel
