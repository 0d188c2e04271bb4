/-
# From a command of the cloud to its response

A command comes in as a JSON request. Its handler prints an event with the id, the device id and
the parameters into a buffer. The dispatcher reads the event back, links a node with the id into
the list of commands, and calls the user with the parameters and the node. When the user replies
for the node, its id goes into the response.

The dispatcher keeps the digits with which the id begins, the reply copies them into an array of
32 bytes, and the buffer of a measurepoint event has ten bytes for the two numbers that it prints,
and no room for the id.
-/

import EnosDeviceSdk.Infra.CjsonTruncated
import EnosDeviceSdk.Infra.Printf
import EnosDeviceSdk.DevModel.CommandList
import EnosDeviceSdk.DevModel.MessageCache
import EnosDeviceSdk.DevModel.Manager
import EnosDeviceSdk.DevModel.UpstreamSync

namespace EnosDeviceSdk.DevModel.CommandChain

open EnosDeviceSdk.Infra EnosDeviceSdk.Library EnosDeviceSdk.DevModel.CommandList

universe u v

variable {ι : Type u} {τ : Type v}

/-! ## Requests -/

/-- `dm_msg_request_payload_t`: the bytes that its items span. -/
structure DmMsgRequestPayload where
  id : List UInt8
  version : List UInt8
  method : List UInt8
  params : List UInt8

/-- `dm_msg_request_parse`. The parameters may be of any type. -/
def dmMsgRequestParse (payload : List UInt8) : Option DmMsgRequestPayload := do
  let lite ← jsonParse payload
  let id ← jsonMember payload lite (ascii "id") .string
  let version ← jsonMember payload lite (ascii "version") .string
  let method ← jsonMember payload lite (ascii "method") .string
  let params ← jsonObjectItem payload lite (ascii "params")
  if lite.type = .object then return ⟨id, version, method, itemText payload params⟩ else none

/-- `iotx_command_type_t` -/
inductive CommandType
  | measurepointSet
  | serviceInvoke
  deriving DecidableEq

/-- A command with what its handler has besides the request: the service that the topic names and
the bytes of the source's context pointer. -/
inductive Command
  | measurepointSet
  | serviceInvoke (identifier : CString) (context : List UInt8)

/-- The type of a command. -/
def Command.type : Command → CommandType
  | .measurepointSet => .measurepointSet
  | .serviceInvoke _ _ => .serviceInvoke

/-- The digits of `infra_hex2str`. -/
def zEncode : List UInt8 := ascii "0123456789ABCDEF"

/-- `infra_hex2str` -/
def infraHex2str (input : List UInt8) : List UInt8 :=
  input.flatMap fun (byte : UInt8) =>
    [zEncode.getD (byte >>> 4).toNat 48, zEncode.getD (byte &&& 15).toNat 48]

theorem infraHex2str_digits (input : List UInt8) : ∀ byte ∈ infraHex2str input, byte ∈ zEncode := by
  have hdigit : ∀ place, zEncode.getD place 48 ∈ zEncode := by
    intro place
    rw [List.getD_eq_getElem?_getD]
    cases hplace : zEncode[place]? with
    | none => decide
    | some byte => exact List.mem_of_getElem? hplace
  intro byte hbyte
  obtain ⟨first, -, hpair⟩ := List.mem_flatMap.mp hbyte
  rcases List.mem_pair.mp hpair with rfl | rfl <;> exact hdigit _

theorem zero_not_mem_hex (input : List UInt8) : 0 ∉ infraHex2str input :=
  fun hzero => absurd (infraHex2str_digits input 0 hzero) (by decide)

theorem stringBody_hex (input : List UInt8) : StringBody (infraHex2str input) := by
  have hplain : zEncode.all fun byte => byte ≠ 34 ∧ byte ≠ 92 := by decide
  apply stringBody_of_plain
  rw [List.all_eq_true] at hplain ⊢
  exact fun byte hbyte => hplain byte (infraHex2str_digits input byte hbyte)

/-- No two inputs have the same digits. -/
theorem infraHex2str_injective : Function.Injective infraHex2str := by
  have hdigits : ∀ high < 16, ∀ low < 16, zEncode.getD high 48 = zEncode.getD low 48 →
      high = low := by decide
  have hhigh : ∀ byte : UInt8, (byte >>> 4).toNat = byte.toNat / 16 := fun byte => by
    rw [UInt8.toNat_shiftRight, Nat.shiftRight_eq_div_pow]
    rfl
  have hlow : ∀ byte : UInt8, (byte &&& 15).toNat = byte.toNat % 16 := fun byte => by
    rw [UInt8.toNat_and]
    exact Nat.and_two_pow_sub_one_eq_mod _ 4
  intro first second hsame
  induction first generalizing second with
  | nil =>
      cases second with
      | nil => rfl
      | cons byte second => cases hsame
  | cons byte first ih =>
      cases second with
      | nil => cases hsame
      | cons other second =>
          obtain ⟨hhighs, hrest⟩ := List.cons.inj hsame
          obtain ⟨hlows, hrest⟩ := List.cons.inj hrest
          have hbyte := byte.toNat_lt
          have hother := other.toNat_lt
          rw [hhigh, hhigh] at hhighs
          rw [hlow, hlow] at hlows
          have hquotients := hdigits _ (by omega) _ (by omega) hhighs
          have hremainders := hdigits _ (by omega) _ (by omega) hlows
          rw [ih hrest, UInt8.toNat_inj.mp (by omega : byte.toNat = other.toNat)]

/-- `DM_MSG_MEASUREPOINT_SET_FMT`. The id has no quotes. -/
def measurepointSetFormat (devid : Int) (id params : List UInt8) : List FormatPart :=
  [.text (ascii "\x7b\"devid\":"), .d devid, .text (ascii ",\"id\":"), .precise id,
    .text (ascii ",\"payload\":"), .precise params, .text (ascii "\x7d")]

/-- `dm_msg_measurepoint_set`: the event, if there is memory and room in the queue. -/
def dmMsgMeasurepointSet (devid : Int) (request : DmMsgRequestPayload) (queued : Bool) :
    Option (List UInt8) :=
  let format := measurepointSetFormat devid request.id request.params
  if queued then
    some (halSnprintf (formatStrlen format + dmUtilsUint32Strlen + request.params.length + 1)
      format)
  else none

/-- `DM_MSG_SERVICE_INVOKE_FMT` -/
def serviceInvokeFormat (devid : Int) (id identifier params ctx : List UInt8) : List FormatPart :=
  [.text (ascii "\x7b\"id\":\""), .precise id, .text (ascii "\",\"devid\":"), .d devid,
    .text (ascii ",\"serviceid\":\""), .precise identifier, .text (ascii "\",\"payload\":"),
    .precise params, .text (ascii ",\"ctx\":\""), .s ctx, .text (ascii "\"\x7d")]

/-- `dm_msg_thing_service_invoke` behind the search for its device. -/
def dmMsgThingServiceInvoke (devid : Int) (identifier : CString) (request : DmMsgRequestPayload)
    (context : List UInt8) (queued : Bool) : Option (List UInt8) :=
  let ctx := infraHex2str context
  let format := serviceInvokeFormat devid request.id identifier.bytes request.params ctx
  if queued then
    some (halSnprintf (formatStrlen format + request.id.length + dmUtilsUint32Strlen +
      identifier.strlen + request.params.length + ctx.length + 1) format)
  else none

/-- `dm_msg_proc_thing_measurepoint_set` and `dm_msg_proc_thing_service_invoke`, behind the reading
of the topic. One looks for the device first and the other one parses the request first. -/
def dmMsgProcCommand (command : Command) (ctx : DmMgrCtx) (productKey deviceKey : CString)
    (payload : List UInt8) (queued : Bool) : Option (List UInt8) :=
  match command with
  | .measurepointSet => do
      let node ← dmMgrSearchDevByPkdk ctx productKey deviceKey
      let request ← dmMsgRequestParse payload
      dmMsgMeasurepointSet node.devid request queued
  | .serviceInvoke identifier context => do
      let request ← dmMsgRequestParse payload
      let node ← dmMgrSearchDevByPkdk ctx productKey deviceKey
      dmMsgThingServiceInvoke node.devid identifier request context queued

/-! ## Events -/

/-- What the dispatcher takes from the event of a command: the address of the id, and the values
that the user gets. -/
structure EventItems where
  id : Int
  devid : Int
  serviceid : List UInt8
  payload : List UInt8

/-- The items of `IOTX_DM_EVENT_MEASUREPOINT_SET`. The type of the id is not looked at; without an
id the dispatcher reads at a null pointer. -/
def measurepointSetItems (text : List UInt8) : Option EventItems := do
  let lite ← jsonParse text
  let devid ← jsonMember text lite (ascii "devid") .number
  let payload ← jsonMember text lite (ascii "payload") .object
  let id ← jsonObjectItem text lite (ascii "id")
  return ⟨id.value.getD 0, valueInt devid, [], payload⟩

/-- The items of `IOTX_DM_EVENT_THING_SERVICE_INVOKE`. -/
def serviceInvokeItems (text : List UInt8) : Option EventItems := do
  let lite ← jsonParse text
  let id ← jsonObjectItem text lite (ascii "id")
  let devid ← jsonMember text lite (ascii "devid") .number
  let serviceid ← jsonMember text lite (ascii "serviceid") .string
  let payload ← jsonMember text lite (ascii "payload") .object
  if id.type = .string then return ⟨id.value.getD 0, valueInt devid, serviceid, payload⟩ else none

/-- The items of the event of a command. -/
def eventItems : CommandType → List UInt8 → Option EventItems
  | .measurepointSet => measurepointSetItems
  | .serviceInvoke => serviceInvokeItems

/-- A call of the user. The context of a measurepoint call may be null. -/
inductive UserCall (ι : Type u)
  | measurepointSet (devid : Int) (payload : List UInt8) (context : Option ι)
  | serviceRequest (devid : Int) (serviceid payload : List UInt8) (context : ι)

/-- The call that the dispatcher makes. For a service there is none without a context. -/
def userCall (type : CommandType) (items : EventItems) (context : Option ι) :
    Option (UserCall ι) :=
  match type with
  | .measurepointSet => some (.measurepointSet items.devid items.payload context)
  | .serviceInvoke =>
      context.map fun node => .serviceRequest items.devid items.serviceid items.payload node

section Steps

variable [DecidableEq ι] [DecidableEq τ] (allocator : HeapAllocator ι)

/-- `_enos_command_list_insert` by the dispatcher alone: the list, and the node's address. The id is
what the text has of digits from an address on. -/
def enosCommandListInsert (world : World τ ι) (thread : τ) (moment uptime : Nat)
    (text : List UInt8) (address : Int) : World τ ι × Option ι :=
  let msgid := (text.drop address.toNat).takeWhile isDigit
  let linked := link allocator (arrive world thread msgid) thread moment uptime
  if linked.allocated = world.allocated then (linked, none)
  else (linked, linked.downstreamCommandList.head?.map CommandNode.address)

/-- The case of `_iotx_enos_event_callback` for a command, with a callback registered. -/
def iotxEnosEventCallback (type : CommandType) (world : World τ ι) (thread : τ)
    (moment uptime : Nat) (text : List UInt8) : World τ ι × Option (UserCall ι) :=
  match eventItems type text with
  | none => (world, none)
  | some items =>
      let (linked, context) :=
        enosCommandListInsert allocator world thread moment uptime text items.id
      (linked, userCall type items context)

/-- A command from its arrival to the call of the user. -/
def handleCommand (command : Command) (ctx : DmMgrCtx) (productKey deviceKey : CString)
    (payload : List UInt8) (queued : Bool) (world : World τ ι) (thread : τ)
    (moment uptime : Nat) : World τ ι × Option (UserCall ι) :=
  match dmMsgProcCommand command ctx productKey deviceKey payload queued with
  | none => (world, none)
  | some text =>
      iotxEnosEventCallback allocator command.type world thread moment uptime text

end Steps

/-! ## Responses -/

/-- `DM_MSG_RESPONSE_WITH_DATA` -/
def responseFormat (id : List UInt8) (code : Int) (data : List UInt8) : List FormatPart :=
  [.text (ascii "\x7b\"id\":\""), .precise id, .text (ascii "\",\"code\":"), .d code,
    .text (ascii ",\"data\":"), .precise data, .text (ascii "\x7d")]

/-- `dm_msg_response` to the cloud: the payload that it publishes. The buffer is parsed with the
zeros behind the text. -/
def dmMsgResponse (id : List UInt8) (code : Int) (data : List UInt8) (mallocOk : Bool) :
    Option (List UInt8) :=
  if data = [] ∨ !mallocOk then none
  else
    let format := responseFormat id code data
    let size := formatStrlen format + id.length + dmUtilsUint32Strlen + data.length + 1
    let payload := halSnprintf size format
    if (jsonParse (padded size payload)).isSome then some payload else none

/-- `dm_mgr_upstream_thing_measurepoint_set_response` -/
def dmMgrUpstreamThingMeasurepointSetResponse (ctx : DmMgrCtx) (devid : Int)
    (msgid payload : List UInt8) (mallocOk : Bool) : Option (List UInt8) :=
  if devid < 0 ∨ msgid = [] ∨ payload = [] then none
  else
    match dmMgrSearchDevByDevid ctx devid with
    | none => none
    | some _ => dmMsgResponse msgid iotxDmErrCodeSuccess payload mallocOk

/-- `dm_mgr_upstream_thing_service_invoke_response`, which asks for the service in addition. -/
def dmMgrUpstreamThingServiceInvokeResponse (ctx : DmMgrCtx) (devid : Int)
    (msgid identifier payload : List UInt8) (mallocOk : Bool) : Option (List UInt8) :=
  if identifier = [] then none
  else dmMgrUpstreamThingMeasurepointSetResponse ctx devid msgid payload mallocOk

/-- The string in `char msgid[32]` behind the copy of the node's id. A longer id is written over
what lies behind the array, or leaves it without a terminator, and then the code says no more what
is sent. -/
def replyMsgid (msgid : List UInt8) : Option (List UInt8) :=
  if msgid.length < 32 then some (arrayText (padded 32 msgid)) else none

/-- `IOT_EnOS_CommandReply` up to the deletion of the node: the response that it publishes. -/
def iotEnosCommandReply [DecidableEq ι] (world : World τ ι) (ctx : DmMgrCtx)
    (isOpened isConnected : Bool) (devid : Int) (commandType : CommandType)
    (serviceid payload : List UInt8) (commandCtx : Option ι) (mallocOk : Bool) :
    Option (List UInt8) :=
  if devid < 0 ∨ commandType = .serviceInvoke ∧ serviceid = [] ∨ payload = [] then none
  else if !isOpened ∨ !isConnected then none
  else
    match (commandCtx.bind world.nodeAt).bind fun node => replyMsgid node.msgid with
    | none => none
    | some msgid =>
        match commandType with
        | .measurepointSet =>
            dmMgrUpstreamThingMeasurepointSetResponse ctx devid msgid payload mallocOk
        | .serviceInvoke =>
            dmMgrUpstreamThingServiceInvokeResponse ctx devid msgid serviceid payload mallocOk

/-! ## What the chain promises -/

/-- The parameters of the request are a JSON object. -/
def ObjectParams (payload : List UInt8) (request : DmMsgRequestPayload) : Prop :=
  (jsonParse payload).bind (fun lite => jsonMember payload lite (ascii "params") .object) =
      some request.params ∧
    ∃ blank entries, (Doc.nest .object blank entries).Spelled ∧
      (Doc.nest .object blank entries).render = request.params

/-- The text of a value that can be a member of a document. -/
def JsonValue (text : List UInt8) : Prop :=
  ∃ doc : Doc, doc.WellFormed (liteCjsonNestingLimit - 1) ∧ doc.render = text ∧ 0 ∉ text

/-- The id of a response. -/
def responseId (text : List UInt8) : Option (List UInt8) := do
  let lite ← jsonParse text
  jsonMember text lite (ascii "id") .string

/-- The call of the user that a command asks for. -/
def Command.call (command : Command) (devid : Int) (params : List UInt8) (context : ι) :
    UserCall ι :=
  match command with
  | .measurepointSet => .measurepointSet devid params (some context)
  | .serviceInvoke identifier _ => .serviceRequest devid identifier.bytes params context

section Promises

variable [DecidableEq ι] [DecidableEq τ] (allocator : HeapAllocator ι)

/-- Whenever the node is still linked, a reply for it to a connected device publishes a response
with the id, whatever value the user replies with. -/
def RepliesWith (id : List UInt8) (type : CommandType) (devid : Int) (world : World τ ι)
    (context : ι) : Prop :=
  ∀ (later : World τ ι) (ctx : DmMgrCtx) (serviceid payload : List UInt8),
    later.nodeAt context = world.nodeAt context →
    (dmMgrSearchDevByDevid ctx devid).isSome = true → serviceid ≠ [] → JsonValue payload →
      (iotEnosCommandReply later ctx true true devid type serviceid payload (some context)
        true).bind responseId = some id

/-- The user is called with the parameters of the request and a node, and a reply for the node has
the id of the request. -/
def Delivers (command : Command) (ctx : DmMgrCtx) (productKey deviceKey : CString)
    (payload : List UInt8) (queued : Bool) (world : World τ ι) (thread : τ)
    (moment uptime : Nat) (devid : Int) (request : DmMsgRequestPayload) : Prop :=
  ∃ linked context,
    handleCommand allocator command ctx productKey deviceKey payload queued world thread moment
        uptime = (linked, some (command.call devid request.params context)) ∧
      RepliesWith request.id command.type devid linked context

/-- The event is queued and a node allocated, the parameters have no NUL, and the id consists of
digits. The id of a service has at most 31 of them, and the name of the service can stand between
quotes. The id of a measurepoint has at most 21 together with the characters of the device id. -/
def Survives (command : Command) (queued : Bool) (world : World τ ι) (moment : Nat) (devid : Int)
    (request : DmMsgRequestPayload) : Prop :=
  queued = true ∧
    (allocator.malloc moment (world.downstreamCommandList.map CommandNode.address)).isSome = true ∧
    0 ∉ request.params ∧ (∀ byte ∈ request.id, isDigit byte = true) ∧
    match command with
    | .measurepointSet => (intDecimal devid).length + request.id.length ≤ 21
    | .serviceInvoke identifier _ => StringBody identifier.bytes ∧ request.id.length < 32

end Promises

end EnosDeviceSdk.DevModel.CommandChain
