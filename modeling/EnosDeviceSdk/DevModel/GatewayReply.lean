/-
# Replies to the requests of a gateway

The handlers of `dm_message.c` for the cloud's replies to topology and session requests. A reply
to a topology request belongs to the device that the message cache has under its id, one to a
session request to the device whose keys are in its data. A successful reply changes the status
of the device, and every reply that is understood is reported to the user by an event.

The handlers for the two topology requests are one function of the event that they send, and so
are those for login and logout. Their results are not looked at by anyone and are left out.
-/

import EnosDeviceSdk.DevModel.MessageCache
import EnosDeviceSdk.DevModel.Manager
import EnosDeviceSdk.DevModel.UpstreamSync
import EnosDeviceSdk.Infra.CjsonMembers
import EnosDeviceSdk.Infra.Printf

namespace EnosDeviceSdk.DevModel

open EnosDeviceSdk.Infra EnosDeviceSdk.Library

/-- `dm_msg_response_payload_t`: the bytes that its items span, and the code. -/
structure DmMsgResponsePayload where
  id : List UInt8
  code : Int
  data : List UInt8
  message : List UInt8

/-- A message in the queue to the user. -/
structure ReplyMessage where
  event : ReplyEvent
  payload : List UInt8
  deriving DecidableEq

/-- The message for an event, if there is memory for it and room in the queue. The buffer has the
length of the format and `extra` bytes more. -/
def replyMessage (event : ReplyEvent) (format : List FormatPart) (extra : Nat) (queued : Bool) :
    Option ReplyMessage :=
  if queued then some ⟨event, halSnprintf (formatStrlen format + extra + 1) format⟩ else none

/-- The format of the events with an id, a code and a device id. -/
def replyFormat (id code devid : Int) : List FormatPart :=
  [.text (ascii "\x7b\"id\":"), .d id, .text (ascii ",\"code\":"), .d code,
    .text (ascii ",\"devid\":"), .d devid, .text (ascii "\x7d")]

/-- `dm_mgr_set_dev_status` -/
def dmMgrSetDevStatus (ctx : DmMgrCtx) (devid : Int) (status : DevStatus) : DmMgrCtx :=
  if devid < 0 then ctx
  else
    { ctx with
      devList := writeFirst DmMgrDevNode.devid devid
        (fun node => { node with devStatus := status }) ctx.devList }

/-- The change of status that a handler makes for a code. -/
def updateStatus (ctx : DmMgrCtx) (code devid : Int) (status : DevStatus) : DmMgrCtx :=
  if code = iotxDmErrCodeSuccess then dmMgrSetDevStatus ctx devid status else ctx

/-! ## Topology -/

/-- `dm_msg_thing_topo_add_reply` and `dm_msg_thing_topo_delete_reply` up to their events. -/
def topoReply (event : ReplyEvent) (ctx : DmMgrCtx) (cache : DmMsgCacheCtx)
    (response : DmMsgResponsePayload) (queued : Bool) : DmMgrCtx × Option ReplyMessage :=
  if response.id.length > dmUtilsUint32Strlen then (ctx, none)
  else
    let id := atoi (padded (dmUtilsUint32Strlen + 1) response.id)
    match dmMsgCacheSearch cache id with
    | none => (ctx, none)
    | some node =>
        (updateStatus ctx response.code node.devid .attached,
          replyMessage event (replyFormat id response.code node.devid)
            (dmUtilsUint32Strlen * 3) queued)

/-- `dm_msg_thing_topo_add_reply` -/
def dmMsgThingTopoAddReply : DmMgrCtx → DmMsgCacheCtx → DmMsgResponsePayload → Bool →
    DmMgrCtx × Option ReplyMessage :=
  topoReply .topoAddReply

/-- `dm_msg_thing_topo_delete_reply`. The status is the one that an added device gets, too. -/
def dmMsgThingTopoDeleteReply : DmMgrCtx → DmMsgCacheCtx → DmMsgResponsePayload → Bool →
    DmMgrCtx × Option ReplyMessage :=
  topoReply .topoDeleteReply

/-! ## Sessions -/

/-- A string member that fits a key buffer, as the string that is in the buffer then. -/
def keyMember (src : List UInt8) (item : LiteCjson) (key : List UInt8) (limit : Nat) :
    Option CString := do
  let bytes ← jsonMember src item key .string
  if bytes.length ≥ limit + 1 then none else some (CString.ofArray bytes)

/-- The device whose keys are in an object. -/
def subdevDevid (ctx : DmMgrCtx) (src : List UInt8) (item : LiteCjson) : Option Int := do
  let productKey ← keyMember src item (ascii "productKey") iotxProductKeyLen
  let deviceKey ← keyMember src item (ascii "deviceKey") iotxDeviceKeyLen
  let node ← dmMgrSearchDevByPkdk ctx productKey deviceKey
  return node.devid

/-- The device that a reply to a login or a logout names. -/
def replyDevid (ctx : DmMgrCtx) (data : List UInt8) : Option Int := do
  let item ← jsonParse data
  subdevDevid ctx data item

/-- The id that the session handlers read. Their buffer has room for ten digits and no byte more,
and `stack` is what lies behind it. -/
def sessionId (response : DmMsgResponsePayload) (stack : List UInt8) : Int :=
  atoi (padded dmUtilsUint32Strlen response.id ++ stack)

/-- `dm_msg_combine_login_reply` and `dm_msg_combine_logout_reply` up to their statuses and
events. -/
def sessionReply (event : ReplyEvent) (status : DevStatus) (ctx : DmMgrCtx)
    (response : DmMsgResponsePayload) (stack : List UInt8) (queued : Bool) :
    DmMgrCtx × Option ReplyMessage :=
  match replyDevid ctx response.data with
  | none => (ctx, none)
  | some devid =>
      (updateStatus ctx response.code devid status,
        replyMessage event (replyFormat (sessionId response stack) response.code devid)
          (dmUtilsUint32Strlen * 3) queued)

/-- `dm_msg_combine_login_reply` -/
def dmMsgCombineLoginReply : DmMgrCtx → DmMsgResponsePayload → List UInt8 → Bool →
    DmMgrCtx × Option ReplyMessage :=
  sessionReply .combineLoginReply .logined

/-- `dm_msg_combine_logout_reply` -/
def dmMsgCombineLogoutReply : DmMgrCtx → DmMsgResponsePayload → List UInt8 → Bool →
    DmMgrCtx × Option ReplyMessage :=
  sessionReply .combineLogoutReply .attached

/-! ## Batch login -/

/-- The object at an index of an array, and the device whose keys it has. -/
def subdevAt (ctx : DmMgrCtx) (src : List UInt8) (subdevs : LiteCjson) (index : Nat) :
    Option Int := do
  let item ← jsonArrayItem src subdevs index
  if item.type = .object then subdevDevid ctx src item else none

/-- The loop over the devices of the reply. It stops at one that is not understood or not known;
what it has done for the others stays done. -/
def subdevLoop (visit : DmMgrCtx → Int → DmMgrCtx) (src : List UInt8) (subdevs : LiteCjson) :
    List Nat → DmMgrCtx → List Int → DmMgrCtx × Option (List Int)
  | [], ctx, devids => (ctx, some devids)
  | index :: rest, ctx, devids =>
      match subdevAt ctx src subdevs index with
      | none => (ctx, none)
      | some devid => subdevLoop visit src subdevs rest (visit ctx devid) (devids ++ [devid])

/-- An array of the reply, with the indices of its elements. -/
def subdevArray (src : List UInt8) (item : LiteCjson) (key : List UInt8) :
    Option (LiteCjson × List Nat) := do
  let subdevs ← jsonObjectItem src item key
  if subdevs.type = .array then some (subdevs, List.range subdevs.size.toNat) else none

/-- The ids of devices with commas between them. -/
def devidsText (devids : List Int) : List UInt8 :=
  ((devids.map intDecimal).intersperse [44]).flatten

/-- `DM_MSG_EVENT_COMBINE_LOGIN_BATCH_REPLY_FMT` -/
def batchFormat (id code : Int) (logined failed : List Int) : List FormatPart :=
  [.text (ascii "\x7b\"id\":"), .d id, .text (ascii ",\"code\":"), .d code,
    .text (ascii ",\"logined_devids\":["), .s (devidsText logined),
    .text (ascii "],\"failed_devids\":["), .s (devidsText failed), .text (ascii "]\x7d")]

/-- `dm_msg_combine_login_batch_reply`. The source prints the device ids into buffers of five bytes
for each, of which the model does not count the bytes. -/
def dmMsgCombineLoginBatchReply (ctx : DmMgrCtx) (response : DmMsgResponsePayload)
    (stack : List UInt8) (queued : Bool) : DmMgrCtx × Option ReplyMessage :=
  let login := fun ctx devid => updateStatus ctx response.code devid .logined
  match jsonParse response.data with
  | none => (ctx, none)
  | some item =>
      match subdevArray response.data item (ascii "loginedSubDevices") with
      | none => (ctx, none)
      | some (subdevs, indices) =>
          let (ctx, logined) := subdevLoop login response.data subdevs indices ctx []
          match logined, subdevArray response.data item (ascii "failedSubDevices") with
          | some logined, some (subdevs, indices) =>
              let (ctx, failed) :=
                subdevLoop (fun ctx _ => ctx) response.data subdevs indices ctx []
              match failed with
              | some failed =>
                  (ctx, replyMessage .combineLoginBatchReply
                    (batchFormat (sessionId response stack) response.code logined failed)
                    (dmUtilsUint32Strlen * 3) queued)
              | none => (ctx, none)
          | _, _ => (ctx, none)

/-! ## Events -/

/-- How long an event with an id, a code and a device id is. -/
theorem length_replyFormat (id code devid : Int) :
    (formatText (replyFormat id code devid)).length =
      (intDecimal id).length + (intDecimal code).length + (intDecimal devid).length + 24 := by
  have hfirst : (ascii "\x7b\"id\":").length = 6 := by decide
  have hsecond : (ascii ",\"code\":").length = 8 := by decide
  have hthird : (ascii ",\"devid\":").length = 9 := by decide
  have hlast : (ascii "\x7d").length = 1 := by decide
  simp only [formatText, replyFormat, List.map_cons, List.map_nil, FormatPart.print,
    List.flatten_cons, List.flatten_nil, List.length_append, List.length_nil, hfirst, hsecond,
    hthird, hlast]
  omega

/-- The buffer of an event has the length of its format, six bytes of which are for conversions,
and the extra bytes. An event that fits is printed whole. -/
theorem replyMessage_of_fits {id code devid : Int} {extra : Nat} (event : ReplyEvent)
    (hfits : (intDecimal id).length + (intDecimal code).length + (intDecimal devid).length ≤
      extra + 6) :
    replyMessage event (replyFormat id code devid) extra true =
      some ⟨event, formatText (replyFormat id code devid)⟩ := by
  have hformat : formatStrlen (replyFormat id code devid) = 30 := rfl
  have hlength := length_replyFormat id code devid
  rw [replyMessage, if_pos rfl, halSnprintf, hformat, List.take_of_length_le (by omega)]

end EnosDeviceSdk.DevModel
