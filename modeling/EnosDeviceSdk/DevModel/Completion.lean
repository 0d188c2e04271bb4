/-
# The completion of asynchronous requests

With the reply option on, `dm_mgr_upstream_thing_request` and its like enter every request
in the message cache under `IOTX_DM_EVENT_THING_REPLY`. From there a request can go two
ways. A reply from the cloud finds it, an event is printed and goes to the user through the
IPC queue, and the request leaves the cache. Or `dm_msg_cache_tick` finds it expired, sends a
timeout message under the same event type, and drops it.

The dispatcher reads the message back before it calls the user, and returns without a call
unless it finds an id, a code, a device id, an event id and a payload. The timeout message has
no more than the first three, so every timeout is dropped. The event of a reply is dropped
where its data breaks the quotes or does not fit into the buffer. A request is therefore
completed exactly once as long as none expires, and every reply to one has an event that fits
and is queued and read.

Report ids wrap after `2 ^ 32` requests, and the search refuses the negative half of them.
The ledger is therefore kept on lists: the requests that were entered are, one for one, those
that wait, those whose completion is queued and those that are completed.
-/

import EnosDeviceSdk.DevModel.ThingReply

namespace EnosDeviceSdk.DevModel

open EnosDeviceSdk.Infra EnosDeviceSdk.Library EnosDeviceSdk.DevModel.Messages
open scoped List

/-! ## Messages and their dispatch -/

/-- A message in the IPC queue: one on behalf of a cached request, under the event type of the
request, or one of the many that belong to no request and have types of their own. -/
inductive UserEvent
  | message (type : Nat) (data : List UInt8)
  | other
  deriving DecidableEq

/-- The call that `_iotx_enos_event_callback` makes for a message, with a callback registered
and memory for the strings. -/
def UserEvent.call : UserEvent → Option ThingReplyCall
  | .message type data => if type = iotxDmEventThingReply then thingReplyCall data else none
  | .other => none

/-- The request that a message completes when it is dispatched: the one whose id the user is
called with. -/
def UserEvent.completes (event : UserEvent) : Option Int := event.call.map ThingReplyCall.id

/-- `DM_MSG_SEND_MSG_TIMEOUT_FMT` -/
def timeoutFormat (msgId devid : Int) : List FormatPart :=
  [.text (ascii "\x7b\"id\":"), .d msgId, .text (ascii ",\"code\":"), .d iotxDmErrCodeTimeout,
    .text (ascii ",\"devid\":"), .d devid, .text (ascii "\x7d")]

/-- The message of `dm_msg_send_msg_timeout_to_user`. -/
def timeoutMessage (notice : TimeoutNotice) : UserEvent :=
  let format := timeoutFormat notice.msgId notice.devid
  .message notice.type (halSnprintf (formatStrlen format + dmUtilsUint32Strlen * 3 + 1) format)

/-! ## The device model -/

/-- `CONFIG_DISPATCH_QUEUE_MAXLEN` -/
def configDispatchQueueMaxlen : Nat := 50

/-- The message cache, the IPC queue and the counter of report ids, and beside them the
requests that have been entered and the calls that the user has got. -/
structure DeviceModel where
  cache : DmMsgCacheCtx
  queue : List UserEvent
  gReportId : Nat
  entered : List Int
  calls : List ThingReplyCall

/-- `_dm_msg_send_to_user`: the message is queued if there is memory for it and the queue
is not full. -/
def dmMsgSendToUser (queue : List UserEvent) (mallocOk : Bool) (event : UserEvent) :
    List UserEvent :=
  if mallocOk ∧ queue.length < configDispatchQueueMaxlen then queue ++ [event] else queue

/-- `dm_mgr_upstream_thing_request` with the reply option on: the request is entered under
the next report id, and taken out again if it cannot be sent. -/
def dmMgrUpstreamThingRequest (model : DeviceModel) (devid : Int) (mallocOk : Bool)
    (uptime : Nat) (sendOk : Bool) : DeviceModel :=
  let msgid := iotxReportId model.gReportId
  let (res, cache) :=
    dmMsgCacheInsert model.cache msgid devid iotxDmEventThingReply none mallocOk uptime
  if sendOk then
    { model with
      cache := cache
      gReportId := model.gReportId + 1
      entered := if res = successReturn then model.entered ++ [msgid] else model.entered }
  else
    { model with
      cache := (dmMsgCacheRemove cache msgid).2
      gReportId := model.gReportId + 1 }

/-- `dm_msg_proc_thing_reply`, for a reply on a topic with this method: the event goes into the
queue, and the request out of the cache whether it does or not. -/
def dmMsgProcThingReply (model : DeviceModel) (identifier : CString) (payload : List UInt8)
    (mallocOk : Bool) : DeviceModel :=
  match dmMsgResponseParse payload with
  | none => model
  | some response =>
      let queue :=
        match dmMsgThingReply model.cache identifier response mallocOk with
        | none => model.queue
        | some text => dmMsgSendToUser model.queue mallocOk (.message iotxDmEventThingReply text)
      if response.id.length > dmUtilsUint32Strlen then { model with queue := queue }
      else
        let id := atoi (padded (dmUtilsUint32Strlen + 1) response.id)
        { model with queue := queue, cache := (dmMsgCacheRemove model.cache id).2 }

/-- The timeout messages of a tick on their way into the queue. -/
def sendTimeouts (mallocOk : TimeoutNotice → Bool) :
    List TimeoutNotice → List UserEvent → List UserEvent
  | [], queue => queue
  | notice :: rest, queue =>
      sendTimeouts mallocOk rest (dmMsgSendToUser queue (mallocOk notice) (timeoutMessage notice))

/-- `dm_msg_cache_tick` at the start of `iotx_dm_dispatch`. -/
def tick (model : DeviceModel) (uptime : Nat) (mallocOk : TimeoutNotice → Bool) : DeviceModel :=
  let (cache, notices) := dmMsgCacheTick model.cache uptime
  { model with cache := cache, queue := sendTimeouts mallocOk notices model.queue }

/-- One turn of the loop of `iotx_dm_dispatch`: the message leaves the queue, and the user is
called if it has what the dispatcher asks for and there is memory for its two strings. -/
def dispatchNext (model : DeviceModel) (mallocOk : Bool) : DeviceModel :=
  match model.queue with
  | [] => model
  | event :: rest =>
      { model with
        queue := rest
        calls := if mallocOk then model.calls ++ event.call.toList else model.calls }

/-- What happens to the device model. The device id of a request is an `int`. -/
inductive ModelAction
  | request (devid : {devid : Int // IsInt devid}) (mallocOk : Bool) (uptime : Nat)
      (sendOk : Bool)
  | reply (identifier : CString) (payload : List UInt8) (mallocOk : Bool)
  | notify (mallocOk : Bool)
  | tick (uptime : Nat) (mallocOk : TimeoutNotice → Bool)
  | dispatch (mallocOk : Bool)

/-- The device model after it has happened. -/
def modelStep (model : DeviceModel) : ModelAction → DeviceModel
  | .request devid mallocOk uptime sendOk =>
      dmMgrUpstreamThingRequest model devid mallocOk uptime sendOk
  | .reply identifier payload mallocOk => dmMsgProcThingReply model identifier payload mallocOk
  | .notify mallocOk => { model with queue := dmMsgSendToUser model.queue mallocOk .other }
  | .tick uptime mallocOk => tick model uptime mallocOk
  | .dispatch mallocOk => dispatchNext model mallocOk

/-- The device model at first. -/
def deviceModelInit : DeviceModel := ⟨dmMsgCacheInit, [], 0, [], []⟩

/-- The ids in the cache. -/
def pendingIds (ctx : DmMsgCacheCtx) : List Int := ctx.dmcList.map DmMsgCacheNode.msgid

/-- The ids that the user has been called with. -/
def DeviceModel.completions (model : DeviceModel) : List Int :=
  model.calls.map ThingReplyCall.id

/-- Where the requests are: in the cache, in the queue with a message that the dispatcher takes,
or completed. -/
def DeviceModel.whereabouts (model : DeviceModel) : List Int :=
  pendingIds model.cache ++ (model.queue.filterMap UserEvent.completes ++ model.completions)

/-- The requests that were entered are, one for one, in one place each: waiting in the
cache, or with their one completion queued, or with their one call made. -/
def CompletedOnce (model : DeviceModel) : Prop :=
  model.whereabouts.Perm model.entered

/-- A reply costs no request its completion: it is not understood, or has no request, or the
request is found and there is room for an event that fits. -/
def SparesRequest (model : DeviceModel) (identifier : CString) (payload : List UInt8)
    (mallocOk : Bool) : Prop :=
  ∀ response, dmMsgResponseParse payload = some response →
    dmUtilsUint32Strlen < response.id.length ∨ atoi response.id ∉ pendingIds model.cache ∨
      ∃ node, dmMsgCacheSearch model.cache (atoi response.id) = some node ∧
        model.queue.length < configDispatchQueueMaxlen ∧
        FitsEvent node.devid identifier response mallocOk

/-- A step that costs no request its completion. A request that is neither entered nor sent
has no namesake in the cache, a reply spares the request that it is for, a tick finds no request
expired, and a message that the dispatcher takes finds memory for its strings. -/
def LosesNothing (model : DeviceModel) : ModelAction → Prop
  | .request _ mallocOk _ sendOk =>
      sendOk = true ∨
        model.cache.dmcListSize < configMsgcacheQueueMaxlen ∧ mallocOk = true ∨
        iotxReportId model.gReportId ∉ pendingIds model.cache
  | .reply identifier payload mallocOk => SparesRequest model identifier payload mallocOk
  | .notify _ => True
  | .tick uptime _ => ∀ node ∈ model.cache.dmcList, node.expired uptime = false
  | .dispatch mallocOk => mallocOk = true ∨ ∀ event ∈ model.queue.head?, event.call = none

/-! ## What the operations do to the ids -/

@[simp]
theorem completes_dmMsgSendToUser (queue : List UserEvent) (mallocOk : Bool)
    (event : UserEvent) :
    (dmMsgSendToUser queue mallocOk event).filterMap UserEvent.completes =
      queue.filterMap UserEvent.completes ++
        if mallocOk = true ∧ queue.length < configDispatchQueueMaxlen then
          event.completes.toList else [] := by
  unfold dmMsgSendToUser
  by_cases hroom : mallocOk = true ∧ queue.length < configDispatchQueueMaxlen
  · rw [if_pos hroom, if_pos hroom, List.filterMap_append]
    cases hcompletes : event.completes with
    | none => simp [hcompletes]
    | some id => simp [hcompletes]
  · rw [if_neg hroom, if_neg hroom, List.append_nil]

/-- The letter `n` is not in a timeout message. -/
theorem not_mem_timeoutFormat (msgId devid : Int) (size : Nat) :
    110 ∉ halSnprintf size (timeoutFormat msgId devid) := by
  intro hmem
  have hprinted := List.mem_of_mem_take hmem
  have hnumber : ∀ value : Int, 110 ∉ intDecimal value := by
    intro value hvalue
    rcases intDecimal_bytes value 110 hvalue with hsign | hdigit
    · exact absurd hsign (by decide)
    · exact absurd hdigit (by decide)
  simp only [formatText, timeoutFormat, List.map_cons, List.map_nil, FormatPart.print,
    List.flatten_cons, List.flatten_nil, List.append_nil, List.mem_append, hnumber, false_or]
    at hprinted
  revert hprinted
  decide

/-- A timeout completes nothing: the dispatcher asks for an event id, which it does not have. -/
theorem completes_timeoutMessage (notice : TimeoutNotice) :
    (timeoutMessage notice).completes = none := by
  rw [UserEvent.completes, timeoutMessage, UserEvent.call]
  split
  · rw [Option.map_eq_none_iff, Option.eq_none_iff_forall_not_mem]
    intro call hcall
    obtain ⟨lite, hparse, hcall⟩ := Option.bind_eq_some_iff.mp hcall
    obtain ⟨id, -, hcall⟩ := Option.bind_eq_some_iff.mp hcall
    obtain ⟨code, -, hcall⟩ := Option.bind_eq_some_iff.mp hcall
    obtain ⟨devid, -, hcall⟩ := Option.bind_eq_some_iff.mp hcall
    obtain ⟨eventid, heventid, -⟩ := Option.bind_eq_some_iff.mp hcall
    obtain ⟨item, hitem, -⟩ := Option.bind_eq_some_iff.mp heventid
    have hname := (Returned.root (Outcome.toOption_eq_some.mp hparse)).mem_of_key
      (Outcome.toOption_eq_some.mp hitem)
    exact not_mem_timeoutFormat _ _ _ (hname 110 (by decide))
  · rfl

/-- So the timeouts of a tick leave the completions in the queue as they are. -/
theorem completes_sendTimeouts (mallocOk : TimeoutNotice → Bool) (notices : List TimeoutNotice)
    (queue : List UserEvent) :
    (sendTimeouts mallocOk notices queue).filterMap UserEvent.completes =
      queue.filterMap UserEvent.completes := by
  induction notices generalizing queue with
  | nil => rfl
  | cons notice rest ih =>
      rw [sendTimeouts, ih]
      simp [completes_timeoutMessage notice]

/-- A node that is unlinked was in the list, and the others stay. -/
theorem perm_of_dmMsgCacheUnlink {msgid : Int} {list shorter : List DmMsgCacheNode}
    (hunlink : dmMsgCacheUnlink msgid list = some shorter) :
    (list.map DmMsgCacheNode.msgid).Perm (msgid :: shorter.map DmMsgCacheNode.msgid) ∧
      shorter ⊆ list := by
  induction list generalizing shorter with
  | nil => simp [dmMsgCacheUnlink] at hunlink
  | cons node rest ih =>
      by_cases hfound : node.msgid = msgid
      · simp only [dmMsgCacheUnlink, hfound, if_true, Option.some.injEq] at hunlink
        subst hunlink
        rw [List.map_cons, hfound]
        exact ⟨List.Perm.refl _, List.subset_cons_self node rest⟩
      · simp only [dmMsgCacheUnlink, hfound, if_false, Option.map_eq_some_iff] at hunlink
        obtain ⟨tail, htail, rfl⟩ := hunlink
        obtain ⟨hperm, hsubset⟩ := ih htail
        constructor
        · rw [List.map_cons, List.map_cons]
          exact (hperm.cons node.msgid).trans (List.Perm.swap msgid node.msgid _)
        · exact List.cons_subset_cons node hsubset

theorem dmMsgCacheUnlink_eq_none {msgid : Int} {list : List DmMsgCacheNode}
    (hunlink : dmMsgCacheUnlink msgid list = none) :
    msgid ∉ list.map DmMsgCacheNode.msgid := by
  induction list with
  | nil => simp
  | cons node rest ih =>
      by_cases hfound : node.msgid = msgid
      · simp [dmMsgCacheUnlink, hfound] at hunlink
      · simp only [dmMsgCacheUnlink, hfound, if_false, Option.map_eq_none_iff] at hunlink
        rw [List.map_cons, List.mem_cons]
        rintro (hhead | htail)
        · exact hfound hhead.symm
        · exact ih hunlink htail

/-- A removal takes one node with the id out, if there is any. -/
theorem pendingIds_dmMsgCacheRemove (ctx : DmMsgCacheCtx) (msgid : Int) :
    msgid ∉ pendingIds ctx ∧ (dmMsgCacheRemove ctx msgid).2 = ctx ∨
      msgid ∈ pendingIds ctx ∧
        (pendingIds ctx).Perm (msgid :: pendingIds (dmMsgCacheRemove ctx msgid).2) := by
  unfold dmMsgCacheRemove
  cases hunlink : dmMsgCacheUnlink msgid ctx.dmcList with
  | none => exact Or.inl ⟨dmMsgCacheUnlink_eq_none hunlink, rfl⟩
  | some shorter =>
      have hperm := (perm_of_dmMsgCacheUnlink hunlink).1
      exact Or.inr ⟨hperm.mem_iff.mpr (List.mem_cons_self ..), hperm⟩

theorem dmMsgCacheRemove_subset (ctx : DmMsgCacheCtx) (msgid : Int) :
    (dmMsgCacheRemove ctx msgid).2.dmcList ⊆ ctx.dmcList := by
  unfold dmMsgCacheRemove
  cases hunlink : dmMsgCacheUnlink msgid ctx.dmcList with
  | none => exact List.Subset.refl _
  | some shorter => exact (perm_of_dmMsgCacheUnlink hunlink).2

/-- What a search finds is in the cache, under the id. -/
theorem mem_of_dmMsgCacheSearch {ctx : DmMsgCacheCtx} {msgid : Int} {node : DmMsgCacheNode}
    (hsearch : dmMsgCacheSearch ctx msgid = some node) :
    node ∈ ctx.dmcList ∧ node.msgid = msgid := by
  obtain ⟨-, hfind⟩ := Option.ite_none_left_eq_some.mp hsearch
  exact ⟨List.mem_of_find?_eq_some hfind, by simpa using List.find?_some hfind⟩

/-- A reply to a request that is not cached makes no event. -/
theorem dmMsgThingReply_of_not_mem {ctx : DmMsgCacheCtx} {identifier : CString}
    {response : DmMsgResponsePayload} {queued : Bool}
    (habsent : atoi response.id ∉ pendingIds ctx) :
    dmMsgThingReply ctx identifier response queued = none := by
  rw [dmMsgThingReply, BatchReply.atoi_padded]
  split
  · rfl
  · cases hsearch : dmMsgCacheSearch ctx (atoi response.id) with
    | none => simp only [hsearch]
    | some node =>
        obtain ⟨hnode, hid⟩ := mem_of_dmMsgCacheSearch hsearch
        exact absurd (List.mem_map.mpr ⟨node, hnode, hid⟩) habsent

theorem pendingIds_dmMsgCacheTick (ctx : DmMsgCacheCtx) (uptime : Nat) :
    pendingIds (dmMsgCacheTick ctx uptime).1 =
      (ctx.dmcList.filter fun node => !node.expired uptime).map DmMsgCacheNode.msgid := by
  simp [pendingIds, dmMsgCacheTick, dmMsgCacheTickLoop_kept, Function.comp_def]

/-! ## The ledger of a step -/

/-- The bookkeeping of a step. What was there before and what the step enters is what the
step loses and what is there after it, so the promise survives if nothing is lost. -/
theorem completedOnce_iff_of_ledger {before after : DeviceModel} (fresh lost : List Int)
    (hledger : (before.whereabouts ++ fresh).Perm (lost ++ after.whereabouts))
    (hentered : after.entered = before.entered ++ fresh) (honce : CompletedOnce before) :
    CompletedOnce after ↔ lost = [] := by
  have htotal : (lost ++ after.whereabouts).Perm after.entered := by
    rw [hentered]
    exact hledger.symm.trans (List.Perm.append_right fresh honce)
  constructor
  · intro hafter
    have hlength := htotal.length_eq
    rw [List.length_append, hafter.length_eq] at hlength
    exact List.eq_nil_of_length_eq_zero (by omega)
  · intro hlost
    rwa [hlost, List.nil_append] at htotal

/-- Where the cache is the only thing that a step moves, the ledger is the cache's. -/
theorem cache_completedOnce_iff {model : DeviceModel} {cache : DmMsgCacheCtx}
    {fresh lost : List Int} (gReportId : Nat)
    (hledger : (pendingIds model.cache ++ fresh).Perm (lost ++ pendingIds cache))
    (honce : CompletedOnce model) :
    CompletedOnce
        { model with
          cache := cache
          gReportId := gReportId
          entered := model.entered ++ fresh } ↔
      lost = [] := by
  let others := model.queue.filterMap UserEvent.completes ++ model.completions
  have hwhole : (model.whereabouts ++ fresh).Perm (lost ++ (pendingIds cache ++ others)) := by
    calc model.whereabouts ++ fresh
        = pendingIds model.cache ++ (others ++ fresh) := List.append_assoc ..
      _ ~ pendingIds model.cache ++ (fresh ++ others) :=
          List.Perm.append_left _ List.perm_append_comm
      _ = (pendingIds model.cache ++ fresh) ++ others := (List.append_assoc ..).symm
      _ ~ (lost ++ pendingIds cache) ++ others := List.Perm.append_right others hledger
      _ = lost ++ (pendingIds cache ++ others) := List.append_assoc ..
  exact completedOnce_iff_of_ledger fresh lost hwhole rfl honce

/-- A request is entered if it finds room and memory, and else leaves the cache alone. -/
theorem dmMsgCacheInsert_result (ctx : DmMsgCacheCtx) (msgid devid : Int) (type : Nat)
    (data : Option (List UInt8)) (mallocOk : Bool) (uptime : Nat) :
    (ctx.dmcListSize < configMsgcacheQueueMaxlen ∧ mallocOk = true) ∧
        dmMsgCacheInsert ctx msgid devid type data mallocOk uptime =
          (successReturn,
            { dmcListSize := ctx.dmcListSize + 1
              dmcList := ctx.dmcList ++ [⟨msgid, devid, type, data, uptime⟩] }) ∨
      ¬(ctx.dmcListSize < configMsgcacheQueueMaxlen ∧ mallocOk = true) ∧
        ∃ code, code ≠ successReturn ∧
          dmMsgCacheInsert ctx msgid devid type data mallocOk uptime = (code, ctx) := by
  by_cases hfull : ctx.dmcListSize ≥ configMsgcacheQueueMaxlen
  · refine Or.inr ⟨fun hroom => absurd hroom.1 (not_lt.mpr hfull), stateDevModelCtxListFull,
      by decide, ?_⟩
    simp [dmMsgCacheInsert, hfull]
  · cases mallocOk with
    | false =>
        exact Or.inr ⟨by simp, stateSysDependMalloc, by decide, by simp [dmMsgCacheInsert, hfull]⟩
    | true =>
        exact Or.inl ⟨⟨not_le.mp hfull, rfl⟩, by simp [dmMsgCacheInsert, hfull]⟩

/-- A request that is entered keeps the promise, whether it is sent or taken out again. -/
theorem request_entered_completedOnce (model : DeviceModel) (devid : Int) (mallocOk : Bool)
    (uptime : Nat) (sendOk : Bool) (entered : DmMsgCacheCtx)
    (hinsert : dmMsgCacheInsert model.cache (iotxReportId model.gReportId) devid
      iotxDmEventThingReply none mallocOk uptime = (successReturn, entered))
    (hids : pendingIds entered = pendingIds model.cache ++ [iotxReportId model.gReportId])
    (honce : CompletedOnce model) :
    CompletedOnce (dmMgrUpstreamThingRequest model devid mallocOk uptime sendOk) := by
  let msgid := iotxReportId model.gReportId
  cases sendOk with
  | true =>
      have hledger : (pendingIds model.cache ++ [msgid]).Perm ([] ++ pendingIds entered) := by
        rw [hids, List.nil_append]
      have honce' := (cache_completedOnce_iff (model.gReportId + 1) hledger honce).mpr rfl
      simpa [dmMgrUpstreamThingRequest, hinsert] using honce'
  | false =>
      have hledger : (pendingIds model.cache ++ []).Perm
          ([] ++ pendingIds (dmMsgCacheRemove entered msgid).2) := by
        rcases pendingIds_dmMsgCacheRemove entered msgid with ⟨habsent, _⟩ | ⟨_, hperm⟩
        · exact absurd (by simp [hids, msgid]) habsent
        · rw [hids] at hperm
          have hcons := (List.perm_append_singleton msgid _).symm.trans hperm
          simpa using (List.perm_cons msgid).mp hcons
      have honce' := (cache_completedOnce_iff (model.gReportId + 1) hledger honce).mpr rfl
      simpa [dmMgrUpstreamThingRequest, hinsert] using honce'

/-- A request that is not entered keeps the promise unless it is not sent either and its
removal takes a namesake out of the cache. -/
theorem request_refused_completedOnce_iff (model : DeviceModel) (devid : Int)
    (mallocOk : Bool) (uptime : Nat) (sendOk : Bool) (code : Int) (hcode : code ≠ successReturn)
    (hinsert : dmMsgCacheInsert model.cache (iotxReportId model.gReportId) devid
      iotxDmEventThingReply none mallocOk uptime = (code, model.cache))
    (honce : CompletedOnce model) :
    CompletedOnce (dmMgrUpstreamThingRequest model devid mallocOk uptime sendOk) ↔
      sendOk = true ∨ iotxReportId model.gReportId ∉ pendingIds model.cache := by
  let msgid := iotxReportId model.gReportId
  cases sendOk with
  | true =>
      have hledger : (pendingIds model.cache ++ []).Perm ([] ++ pendingIds model.cache) := by
        rw [List.append_nil, List.nil_append]
      have honce' := (cache_completedOnce_iff (model.gReportId + 1) hledger honce).mpr rfl
      simpa [dmMgrUpstreamThingRequest, hinsert, hcode] using honce'
  | false =>
      rcases pendingIds_dmMsgCacheRemove model.cache msgid with ⟨habsent, hsame⟩ | ⟨hpresent, hperm⟩
      · have hledger : (pendingIds model.cache ++ []).Perm
            ([] ++ pendingIds (dmMsgCacheRemove model.cache msgid).2) := by
          rw [hsame, List.append_nil, List.nil_append]
        have honce' := (cache_completedOnce_iff (model.gReportId + 1) hledger honce).mpr rfl
        have hkept : CompletedOnce
            (dmMgrUpstreamThingRequest model devid mallocOk uptime false) := by
          simpa [dmMgrUpstreamThingRequest, hinsert] using honce'
        exact iff_of_true hkept (Or.inr habsent)
      · have hledger : (pendingIds model.cache ++ []).Perm
            ([msgid] ++ pendingIds (dmMsgCacheRemove model.cache msgid).2) := by
          rwa [List.append_nil]
        have honce' := cache_completedOnce_iff (model.gReportId + 1) hledger honce
        have hlost : ¬CompletedOnce
            (dmMgrUpstreamThingRequest model devid mallocOk uptime false) := by
          simpa [dmMgrUpstreamThingRequest, hinsert] using honce'
        exact iff_of_false hlost (by simpa using hpresent)

/-- What a request asks for to keep the promise. -/
theorem request_completedOnce_iff (model : DeviceModel) (devid : {devid : Int // IsInt devid})
    (mallocOk : Bool) (uptime : Nat) (sendOk : Bool) (honce : CompletedOnce model) :
    CompletedOnce (dmMgrUpstreamThingRequest model devid mallocOk uptime sendOk) ↔
      LosesNothing model (.request devid mallocOk uptime sendOk) := by
  rcases dmMsgCacheInsert_result model.cache (iotxReportId model.gReportId) devid
    iotxDmEventThingReply none mallocOk uptime with ⟨hroom, hinsert⟩ |
      ⟨hrefused, code, hcode, hinsert⟩
  · have honce' := request_entered_completedOnce model devid mallocOk uptime sendOk _ hinsert
      (by simp [pendingIds]) honce
    exact iff_of_true honce' (Or.inr (Or.inl hroom))
  · rw [request_refused_completedOnce_iff model devid mallocOk uptime sendOk code hcode hinsert
      honce]
    simp only [LosesNothing, hrefused, false_or]

/-- A step that moves the cache and the queue, and enters nothing. -/
theorem queue_completedOnce_iff {model after : DeviceModel} {lost : List Int}
    (hledger : model.whereabouts.Perm (lost ++ after.whereabouts))
    (hentered : after.entered = model.entered) (honce : CompletedOnce model) :
    CompletedOnce after ↔ lost = [] := by
  apply completedOnce_iff_of_ledger [] lost _ _ honce
  · rwa [List.append_nil]
  · rw [hentered, List.append_nil]

/-- The device ids in the cache are of the type `int`. -/
def DevidsFit (model : DeviceModel) : Prop :=
  ∀ node ∈ model.cache.dmcList, IsInt node.devid

/-- The event of a reply takes the place of the cached request. -/
theorem found_completedOnce (model : DeviceModel) {identifier : CString}
    {response : DmMsgResponsePayload} {mallocOk : Bool} {node : DmMsgCacheNode}
    (hnode : dmMsgCacheSearch model.cache (atoi response.id) = some node)
    (hroom : model.queue.length < configDispatchQueueMaxlen)
    (hfits : FitsEvent node.devid identifier response mallocOk) (hcode : IsInt response.code)
    (hdevid : IsInt node.devid) (honce : CompletedOnce model) :
    CompletedOnce
      { model with
        queue :=
          match dmMsgThingReply model.cache identifier response mallocOk with
          | none => model.queue
          | some text =>
              dmMsgSendToUser model.queue mallocOk (.message iotxDmEventThingReply text)
        cache := (dmMsgCacheRemove model.cache (atoi response.id)).2 } := by
  let id := atoi response.id
  let queued := model.queue.filterMap UserEvent.completes
  have hevent := (@dmMsgThingReply_eq_some_iff _ _ response identifier mallocOk hnode _).mpr
    ⟨hfits.queued, hfits.id, rfl⟩
  have hcall := thingReplyCall_of_fits hcode hdevid hfits
  rw [hevent]
  set text := halSnprintf (thingReplyLen node.devid identifier response)
    (thingReplyFormat (atoi response.id) response.code node.devid identifier.bytes response.data
      response.message)
  set after : DeviceModel :=
    { model with
      queue := dmMsgSendToUser model.queue mallocOk (.message iotxDmEventThingReply text)
      cache := (dmMsgCacheRemove model.cache (atoi response.id)).2 } with hafter
  have hcompletes : (UserEvent.message iotxDmEventThingReply text).completes = some id := by
    rw [UserEvent.completes, UserEvent.call, if_pos rfl, hcall]
    rfl
  have hqueue : after.queue.filterMap UserEvent.completes = queued ++ [id] := by
    rw [hafter, completes_dmMsgSendToUser, if_pos ⟨hfits.queued, hroom⟩, hcompletes]
    rfl
  have hperm : (pendingIds model.cache).Perm (id :: pendingIds after.cache) := by
    rcases pendingIds_dmMsgCacheRemove model.cache (atoi response.id) with
      ⟨habsent, _⟩ | ⟨_, hperm⟩
    · obtain ⟨hmem, hid⟩ := mem_of_dmMsgCacheSearch hnode
      exact absurd (List.mem_map.mpr ⟨node, hmem, hid⟩) habsent
    · exact hperm
  have hledger : model.whereabouts.Perm ([] ++ after.whereabouts) := by
    calc model.whereabouts
        ~ (id :: pendingIds after.cache) ++ (queued ++ model.completions) :=
          List.Perm.append_right _ hperm
      _ ~ pendingIds after.cache ++ (id :: (queued ++ model.completions)) :=
          List.perm_middle.symm
      _ ~ pendingIds after.cache ++ (queued ++ id :: model.completions) :=
          List.Perm.append_left _ List.perm_middle.symm
      _ = [] ++ after.whereabouts := by
          rw [DeviceModel.whereabouts, hqueue, List.append_assoc]
          rfl
  exact (queue_completedOnce_iff hledger rfl honce).mpr rfl

/-- A reply that spares its request keeps the promise. -/
theorem reply_completedOnce (model : DeviceModel) (identifier : CString) (payload : List UInt8)
    (mallocOk : Bool) (hdevids : DevidsFit model) (honce : CompletedOnce model)
    (hspares : SparesRequest model identifier payload mallocOk) :
    CompletedOnce (dmMsgProcThingReply model identifier payload mallocOk) := by
  cases hresponse : dmMsgResponseParse payload with
  | none =>
      simp only [dmMsgProcThingReply, hresponse]
      exact honce
  | some response =>
      simp only [dmMsgProcThingReply, hresponse, BatchReply.atoi_padded]
      rcases hspares response hresponse with hlong | habsent | ⟨node, hnode, hroom, hfits⟩
      · have hnone : dmMsgThingReply model.cache identifier response mallocOk = none := by
          rw [dmMsgThingReply, if_pos hlong]
        rw [hnone, if_pos hlong]
        exact honce
      · have hsame : (dmMsgCacheRemove model.cache (atoi response.id)).2 = model.cache := by
          rcases pendingIds_dmMsgCacheRemove model.cache (atoi response.id) with
            ⟨_, hsame⟩ | ⟨hpresent, _⟩
          · exact hsame
          · exact absurd hpresent habsent
        rw [dmMsgThingReply_of_not_mem habsent, hsame]
        split <;> exact honce
      · rw [if_neg (Nat.not_lt.mpr hfits.id)]
        exact found_completedOnce model hnode hroom hfits (response_isInt hresponse)
          (hdevids node (mem_of_dmMsgCacheSearch hnode).1) honce

/-- The expired requests of a tick are lost: their timeouts complete nothing. -/
theorem tick_completedOnce_iff (model : DeviceModel) (uptime : Nat)
    (mallocOk : TimeoutNotice → Bool) (honce : CompletedOnce model) :
    CompletedOnce (tick model uptime mallocOk) ↔ LosesNothing model (.tick uptime mallocOk) := by
  let nodes := model.cache.dmcList
  let lost := (nodes.filter (·.expired uptime)).map DmMsgCacheNode.msgid
  have hcompletes : (tick model uptime mallocOk).queue.filterMap UserEvent.completes =
      model.queue.filterMap UserEvent.completes :=
    completes_sendTimeouts mallocOk _ model.queue
  have hsplit : (pendingIds model.cache).Perm
      (lost ++ pendingIds (dmMsgCacheTick model.cache uptime).1) := by
    rw [pendingIds_dmMsgCacheTick, ← List.map_append]
    exact (List.filter_append_perm (·.expired uptime) nodes).symm.map DmMsgCacheNode.msgid
  have hledger : model.whereabouts.Perm (lost ++ (tick model uptime mallocOk).whereabouts) := by
    rw [DeviceModel.whereabouts, DeviceModel.whereabouts, hcompletes, ← List.append_assoc lost]
    exact List.Perm.append_right _ hsplit
  rw [queue_completedOnce_iff hledger rfl honce]
  simp [lost, nodes, LosesNothing]

/-- The ids of the calls, with a message that is dispatched or dropped. -/
theorem completions_dispatch (calls : List ThingReplyCall) (event : UserEvent)
    (mallocOk : Bool) :
    (if mallocOk then calls ++ event.call.toList else calls).map ThingReplyCall.id =
      calls.map ThingReplyCall.id ++ if mallocOk then event.completes.toList else [] := by
  cases mallocOk with
  | true => cases hcall : event.call <;> simp [UserEvent.completes, hcall]
  | false => simp

/-- A dispatch calls the user for the message it takes, or loses it. -/
theorem dispatch_completedOnce_iff (model : DeviceModel) (mallocOk : Bool)
    (honce : CompletedOnce model) :
    CompletedOnce (dispatchNext model mallocOk) ↔ LosesNothing model (.dispatch mallocOk) := by
  unfold dispatchNext
  split
  next hqueue => exact iff_of_true honce (by simp [LosesNothing, hqueue])
  next event rest hqueue =>
    let lost := if mallocOk then [] else event.completes.toList
    let made := if mallocOk then event.completes.toList else []
    let others := rest.filterMap UserEvent.completes
    have hsplit : model.queue.filterMap UserEvent.completes =
        event.completes.toList ++ others := by
      rw [hqueue]
      cases hcompletes : event.completes <;> simp [hcompletes, others]
    have hhead : event.completes.toList = lost ++ made := by
      cases mallocOk <;> simp [lost, made]
    let after : DeviceModel :=
      { model with
        queue := rest
        calls := if mallocOk then model.calls ++ event.call.toList else model.calls }
    have hafter : after.whereabouts =
        pendingIds model.cache ++ (others ++ (model.completions ++ made)) :=
      congrArg (fun completions => pendingIds model.cache ++ (others ++ completions))
        (completions_dispatch model.calls event mallocOk)
    have hledger : model.whereabouts.Perm (lost ++ after.whereabouts) := by
      rw [DeviceModel.whereabouts, hsplit, hhead, hafter]
      calc pendingIds model.cache ++ ((lost ++ made ++ others) ++ model.completions)
          = pendingIds model.cache ++ (lost ++ (made ++ (others ++ model.completions))) := by
            simp only [List.append_assoc]
        _ ~ pendingIds model.cache ++ (lost ++ ((others ++ model.completions) ++ made)) :=
            ((List.perm_append_comm.append_left lost).append_left _)
        _ ~ (lost ++ ((others ++ model.completions) ++ made)) ++ pendingIds model.cache :=
            List.perm_append_comm
        _ = lost ++ ((others ++ (model.completions ++ made)) ++ pendingIds model.cache) := by
            simp only [List.append_assoc]
        _ ~ lost ++ (pendingIds model.cache ++ (others ++ (model.completions ++ made))) :=
            List.perm_append_comm.append_left lost
    have hiff := queue_completedOnce_iff hledger rfl honce
    refine hiff.trans ?_
    cases mallocOk with
    | true => simp [lost, LosesNothing]
    | false => simp [lost, LosesNothing, hqueue, UserEvent.completes]

/-- The messages that belong to no request complete none. -/
theorem notify_completedOnce (model : DeviceModel) (mallocOk : Bool)
    (honce : CompletedOnce model) : CompletedOnce (modelStep model (.notify mallocOk)) := by
  have hledger : model.whereabouts.Perm
      ([] ++ (modelStep model (.notify mallocOk)).whereabouts) := by
    simp [modelStep, DeviceModel.whereabouts, DeviceModel.completions, UserEvent.completes,
      UserEvent.call]
  exact (queue_completedOnce_iff hledger rfl honce).mpr rfl

/-- One step keeps the promise when it loses nothing. -/
theorem completedOnce_step (model : DeviceModel) (action : ModelAction)
    (hdevids : DevidsFit model) (honce : CompletedOnce model)
    (hloses : LosesNothing model action) : CompletedOnce (modelStep model action) := by
  cases action with
  | request devid mallocOk uptime sendOk =>
      exact (request_completedOnce_iff model devid mallocOk uptime sendOk honce).mpr hloses
  | reply identifier payload mallocOk =>
      exact reply_completedOnce model identifier payload mallocOk hdevids honce hloses
  | notify mallocOk => exact notify_completedOnce model mallocOk honce
  | tick uptime mallocOk => exact (tick_completedOnce_iff model uptime mallocOk honce).mpr hloses
  | dispatch mallocOk => exact (dispatch_completedOnce_iff model mallocOk honce).mpr hloses

/-- The cache never holds a device id that is no `int`. -/
theorem devidsFit_step (model : DeviceModel) (action : ModelAction)
    (hdevids : DevidsFit model) : DevidsFit (modelStep model action) := by
  cases action with
  | request devid mallocOk uptime sendOk =>
      let cache := (dmMsgCacheInsert model.cache (iotxReportId model.gReportId) devid
        iotxDmEventThingReply none mallocOk uptime).2
      have hcache : ∀ node ∈ cache.dmcList, IsInt node.devid := by
        rcases dmMsgCacheInsert_cases model.cache (iotxReportId model.gReportId) devid
          iotxDmEventThingReply none mallocOk uptime with hsame | ⟨_, hadded⟩
        · rw [show cache = model.cache from hsame]
          exact hdevids
        · intro node hnode
          simp only [cache, hadded, List.mem_append, List.mem_singleton] at hnode
          rcases hnode with hold | rfl
          · exact hdevids node hold
          · exact devid.2
      cases sendOk with
      | true => exact hcache
      | false =>
          intro node hnode
          exact hcache node (dmMsgCacheRemove_subset cache _ hnode)
  | reply identifier payload mallocOk =>
      intro node hnode
      simp only [modelStep, dmMsgProcThingReply] at hnode
      split at hnode
      next => exact hdevids node hnode
      next =>
        split at hnode
        next => exact hdevids node hnode
        next => exact hdevids node (dmMsgCacheRemove_subset model.cache _ hnode)
  | notify mallocOk => exact hdevids
  | tick uptime mallocOk =>
      intro node hnode
      simp only [modelStep, tick, dmMsgCacheTick, dmMsgCacheTickLoop_kept] at hnode
      obtain ⟨old, hold, rfl⟩ := List.mem_map.mp hnode
      have hsame : (old.clamp uptime).devid = old.devid := by
        unfold DmMsgCacheNode.clamp
        split <;> rfl
      rw [hsame]
      exact hdevids old (List.mem_of_mem_filter hold)
  | dispatch mallocOk =>
      intro node hnode
      simp only [modelStep, dispatchNext] at hnode
      split at hnode
      next => exact hdevids node hnode
      next => exact hdevids node hnode

/-! ## Whole runs -/

/-- The requests that were entered are in one place each throughout a run in which no step
loses one. -/
theorem completedOnce_always {actions : List ModelAction}
    (hmeet : StepsMeet modelStep LosesNothing deviceModelInit actions) :
    Always modelStep CompletedOnce deviceModelInit actions := by
  have hboth : Always modelStep (fun model => DevidsFit model ∧ CompletedOnce model)
      deviceModelInit actions := by
    refine always_of_stepsMeet ?_ ⟨?_, List.Perm.nil⟩ hmeet
    · rintro model action ⟨hdevids, honce⟩ hloses
      exact ⟨devidsFit_step model action hdevids,
        completedOnce_step model action hdevids honce hloses⟩
    · exact fun node hnode => absurd hnode List.not_mem_nil
  exact hboth.mono fun _ hmodel => hmodel.2

/-- Among requests with different ids this is one place for each. -/
theorem CompletedOnce.count_eq_one {model : DeviceModel} (honce : CompletedOnce model)
    (hdistinct : model.entered.Nodup) {id : Int} (hentered : id ∈ model.entered) :
    model.whereabouts.count id = 1 := by
  rw [List.Perm.count_eq honce id, hdistinct.count, if_pos hentered]

/-- Once nothing waits and nothing is queued, the user has seen one completion of each
request and no others. -/
theorem CompletedOnce.completions_perm {model : DeviceModel} (honce : CompletedOnce model)
    (hcache : model.cache.dmcList = []) (hqueue : model.queue = []) :
    model.completions.Perm model.entered := by
  simpa [CompletedOnce, DeviceModel.whereabouts, pendingIds, hcache, hqueue] using honce

/-- A response to the request with the id zero. -/
def replyToFirst (data : List UInt8) : List UInt8 :=
  ascii "\x7b\"id\":\"0\",\"code\":200,\"data\":" ++ data ++ [125]

/-- A request of the device 1, whose id is zero, and a reply to it with the data. -/
def answeredRun (data : List UInt8) : List ModelAction :=
  [.request ⟨1, by decide⟩ true 0 true, .tick 9999 fun _ => true,
    .reply postMethod (replyToFirst data) true, .tick 10000 fun _ => true, .dispatch true]

/-- The user is called once where the data is a short string. -/
theorem completedOnce_always_string :
    Always modelStep CompletedOnce deviceModelInit (answeredRun (ascii "\"ok\"")) := by
  apply completedOnce_always
  have hparsed : (dmMsgResponseParse (replyToFirst (ascii "\"ok\""))).map (fun response =>
      (response.id, response.code, response.data, response.message)) =
        some (ascii "0", 200, ascii "ok", []) := by decide +kernel
  refine ⟨Or.inl rfl, ?_, ?_, ?_, Or.inl rfl, trivial⟩
  · simp only [LosesNothing]
    decide
  · intro response hresponse
    rw [hresponse] at hparsed
    obtain ⟨id, code, data, message⟩ := response
    simp only [Option.map_some, Option.some.injEq, Prod.mk.injEq] at hparsed
    obtain ⟨rfl, rfl, rfl, rfl⟩ := hparsed
    refine Or.inr (Or.inr ⟨⟨0, 1, iotxDmEventThingReply, none, 0⟩, by decide, by decide, ?_⟩)
    exact
      { queued := rfl
        id := by decide
        identifier := stringBody_of_plain (by decide)
        data := stringBody_of_plain (by decide)
        noNul := by decide
        message := .nil
        room := by decide }
  · simp only [LosesNothing]
    decide +kernel

/-- A request whose reply never comes times out, and the user never hears of it. -/
theorem timed_out_request_is_lost :
    ¬Always modelStep CompletedOnce deviceModelInit
      [.request ⟨1, by decide⟩ true 0 true, .tick 10000 fun _ => true, .dispatch true] := by
  intro halways
  have hdone := (halways.finish).completions_perm rfl rfl
  revert hdone
  decide +kernel

/-- Nor does the user hear of one whose reply has an object for its data. -/
theorem quoted_reply_is_lost :
    ¬Always modelStep CompletedOnce deviceModelInit
      (answeredRun (ascii "\x7b\"a\":1\x7d")) := by
  intro halways
  have hdone := (halways.finish).completions_perm (by decide +kernel) (by decide +kernel)
  revert hdone
  decide +kernel

end EnosDeviceSdk.DevModel
