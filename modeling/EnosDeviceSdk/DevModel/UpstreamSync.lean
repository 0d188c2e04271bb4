/-
# The list of callers that wait for a reply

`upstream_sync_callback_list` holds a node for every caller that waits for the cloud's reply to
its request: the id of the request, the semaphore the caller waits on, and the code of the reply.
A caller links its node, waits, reads the code and removes the node. The event dispatcher looks
the id of a reply up once, stores the code and posts the semaphore.
-/

import EnosDeviceSdk.DevModel.MessageCache
import EnosDeviceSdk.Library.Keyed

namespace EnosDeviceSdk.DevModel

open EnosDeviceSdk.Infra EnosDeviceSdk.Library

/-- `iotx_enos_upstream_sync_callback_node_t`. The semaphore is the number of its posts that no
wait has taken yet. -/
structure SyncNode where
  msgid : Int
  semaphore : Nat
  code : Int
  deriving DecidableEq

/-- The events of the device model that report the cloud's reply to a request of a gateway. -/
inductive ReplyEvent
  | subdevRegisterReply
  | topoAddReply
  | topoDeleteReply
  | combineLoginReply
  | combineLoginBatchReply
  | combineLogoutReply
  deriving DecidableEq

/-- What a caller is to return for the code of a reply. -/
def replyResult (code : Int) : Int :=
  if code = iotxDmErrCodeSuccess then successReturn else stateDevModelRefusedByCloud

/-- `_iotx_enos_upstream_sync_callback_list_search` -/
def upstreamSyncCallbackListSearch (list : List SyncNode) (msgid : Int) : Option SyncNode :=
  list.find? fun node => node.msgid = msgid

/-- `_iotx_enos_upstream_sync_callback_list_insert`, of a node with a fresh semaphore. -/
def upstreamSyncCallbackListInsert (list : List SyncNode) (msgid : Int) (mallocOk : Bool) :
    Int × List SyncNode :=
  if (upstreamSyncCallbackListSearch list msgid).isSome then
    (stateDevModelDupUpstreamMsg, list)
  else if !mallocOk then (stateSysDependMalloc, list)
  else (successReturn, ⟨msgid, 0, 0⟩ :: list)

/-- `_iotx_enos_upstream_sync_callback_list_remove` -/
def upstreamSyncCallbackListRemove (list : List SyncNode) (msgid : Int) :
    Int × List SyncNode :=
  if (upstreamSyncCallbackListSearch list msgid).isSome then
    (successReturn, list.eraseP fun node => node.msgid = msgid)
  else (stateDevModelUpstreamRecNotFound, list)

/-- The dispatcher stores the code and posts the semaphore. -/
def SyncNode.answer (node : SyncNode) (code : Int) : SyncNode :=
  { node with code := replyResult code, semaphore := node.semaphore + 1 }

/-- A wait for the semaphore takes a post. -/
def SyncNode.takePost (node : SyncNode) : SyncNode :=
  { node with semaphore := node.semaphore - 1 }

/-- `_iotx_enos_upstream_callback_remove` -/
def upstreamCallbackRemove (list : List SyncNode) (msgid code : Int) : List SyncNode :=
  writeFirst SyncNode.msgid msgid (fun node => node.answer code) list

/-- The switch of `_iotx_enos_event_callback` on a reply event with the numbers `id` and `code`.
There is no case for the reply to a batch login. -/
def handleReplyEvent (list : List SyncNode) (event : ReplyEvent) (id code : Int) :
    List SyncNode :=
  match event with
  | .subdevRegisterReply => upstreamCallbackRemove list id code
  | .topoDeleteReply | .topoAddReply | .combineLoginReply | .combineLogoutReply =>
      upstreamCallbackRemove list id code
  | .combineLoginBatchReply => list

/-! ## Searches after a change of the list -/

theorem search_isSome_iff (list : List SyncNode) (msgid : Int) :
    (upstreamSyncCallbackListSearch list msgid).isSome ↔ msgid ∈ list.map SyncNode.msgid := by
  simp [upstreamSyncCallbackListSearch]

/-- Removing the node of one id does not hide the node of another. -/
theorem search_remove_of_ne (list : List SyncNode) {msgid other : Int}
    (hother : other ≠ msgid) :
    upstreamSyncCallbackListSearch (upstreamSyncCallbackListRemove list msgid).2 other =
      upstreamSyncCallbackListSearch list other := by
  unfold upstreamSyncCallbackListRemove
  split
  · exact find?_eraseP_of_ne hother list
  · rfl

/-! ## Reply events -/

theorem SyncNode.answer_msgid (node : SyncNode) (code : Int) :
    (node.answer code).msgid = node.msgid := rfl

theorem SyncNode.takePost_msgid (node : SyncNode) : node.takePost.msgid = node.msgid := rfl

/-- An event with a case writes to the node with its id. -/
theorem handleReplyEvent_of_ne {event : ReplyEvent} (hcase : event ≠ .combineLoginBatchReply)
    (list : List SyncNode) (id code : Int) :
    handleReplyEvent list event id code = upstreamCallbackRemove list id code := by
  cases event with
  | combineLoginBatchReply => exact absurd rfl hcase
  | subdevRegisterReply | topoAddReply | topoDeleteReply | combineLoginReply
  | combineLogoutReply => rfl

/-- No event changes which ids are in the list. -/
theorem map_msgid_handleReplyEvent (list : List SyncNode) (event : ReplyEvent)
    (id code : Int) :
    (handleReplyEvent list event id code).map SyncNode.msgid = list.map SyncNode.msgid := by
  by_cases hcase : event = .combineLoginBatchReply
  · rw [hcase]
    rfl
  · rw [handleReplyEvent_of_ne hcase]
    exact map_writeFirst (SyncNode.answer_msgid · code) id list

/-- An event says nothing to those who wait for other replies. -/
theorem search_handleReplyEvent_of_ne (list : List SyncNode) (event : ReplyEvent)
    {id other : Int} (code : Int) (hother : other ≠ id) :
    upstreamSyncCallbackListSearch (handleReplyEvent list event id code) other =
      upstreamSyncCallbackListSearch list other := by
  by_cases hcase : event = .combineLoginBatchReply
  · rw [hcase]
    rfl
  · rw [handleReplyEvent_of_ne hcase]
    exact find?_writeFirst_of_ne (SyncNode.answer_msgid · code) hother list

end EnosDeviceSdk.DevModel
