/-
# Commands that manage a device

The cloud can disable, enable and delete a device. A thing command is sent to the device's own
topic, and a combine command comes over a session, names the device in its parameters, and has in
its topic the keys that the response goes to. The handlers of a kind are alike.

A handler for thing commands keeps the result of the operation for its response. A handler for
combine commands writes the result of the reading of the topic over it, and so answers with a
success whatever the operation did. It also counts the slashes of its topic as if the prefix were
the other one, which is shorter by a level, and takes the word `session` for the product key.
-/

import EnosDeviceSdk.DevModel.CommandChain
import EnosDeviceSdk.DevModel.Uri

namespace EnosDeviceSdk.DevModel.Management

open EnosDeviceSdk.Infra EnosDeviceSdk.Library
open EnosDeviceSdk.DevModel.CommandChain (DmMsgRequestPayload dmMsgRequestParse)

/-- `FAIL_RETURN` -/
def failReturn : Int := -1

/-- `IOTX_DM_ERR_CODE_REQUEST_ERROR` -/
def iotxDmErrCodeRequestError : Int := 400

/-- The operations on a device. -/
inductive Operation
  | disable | enable | delete
  deriving DecidableEq

/-! ## Operations -/

/-- `dm_mgr_set_dev_enable` and `dm_mgr_set_dev_disable` -/
def dmMgrSetDevAvail (ctx : DmMgrCtx) (devid : Int) (avail : DevAvail) : Int × DmMgrCtx :=
  if devid < 0 then (stateUserInputInvalid, ctx)
  else
    match dmMgrSearchDevByDevid ctx devid with
    | none => (stateDevModelDeviceNotFound, ctx)
    | some _ =>
        (successReturn,
          { ctx with
            devList := writeFirst DmMgrDevNode.devid devid
              (fun node => { node with status := avail }) ctx.devList })

/-- What an operation does to the list of devices. A failure to disable is not looked at. -/
def Operation.perform (operation : Operation) (ctx : DmMgrCtx) (devid : Int) : Int × DmMgrCtx :=
  match operation with
  | .disable => (successReturn, (dmMgrSetDevAvail ctx devid .disable).2)
  | .enable => dmMgrSetDevAvail ctx devid .enable
  | .delete => dmMgrDeviceDestroy ctx devid

/-- The formats of the events. Those of the thing and the combine events are alike. -/
def Operation.format (operation : Operation) (productKey deviceKey : CString) (devid : Int) :
    List FormatPart :=
  match operation with
  | .disable | .enable => [.text (ascii "\x7b\"devid\":"), .d devid, .text (ascii "\x7d")]
  | .delete =>
      [.text (ascii "\x7b\"res\":"), .d successReturn, .text (ascii ",\"productKey\":\""),
        .s productKey.bytes, .text (ascii "\",\"deviceKey\":\""), .s deviceKey.bytes,
        .text (ascii "\",\"devid\":"), .d devid, .text (ascii "\x7d")]

/-- What the length of the format grows by for the buffer of an event. -/
def Operation.extra (operation : Operation) (productKey deviceKey : CString) : Nat :=
  match operation with
  | .disable | .enable => dmUtilsUint32Strlen
  | .delete => productKey.strlen + deviceKey.strlen

/-- What happens besides: whether there is memory for the event, whether it gets into the queue,
and the bytes on the stack behind the arrays for the keys of the topic. -/
structure Surroundings where
  mallocOk : Bool
  queued : Bool
  behindProductKey : List UInt8
  behindDeviceKey : List UInt8

/-- `dm_msg_thing_disable` and its siblings, with the arrays that the keys are in: the result, the
list of devices, and the event. -/
def dmMsgManage (operation : Operation) (ctx : DmMgrCtx) (productKey deviceKey : List UInt8)
    (surroundings : Surroundings) : Int × DmMgrCtx × Option (List UInt8) :=
  if iotxProductKeyLen + 1 ≤ arrayStrlen productKey ∨
      iotxDeviceKeyLen + 1 ≤ arrayStrlen deviceKey then (stateUserInputInvalid, ctx, none)
  else
    match dmMgrSearchDevByPkdk ctx (.ofArray productKey) (.ofArray deviceKey) with
    | none => (failReturn, ctx, none)
    | some node =>
        let (res, ctx) := operation.perform ctx node.devid
        if res ≠ successReturn then (failReturn, ctx, none)
        else if !surroundings.mallocOk then (stateSysDependMalloc, ctx, none)
        else if !surroundings.queued then (failReturn, ctx, none)
        else
          let format := operation.format (.ofArray productKey) (.ofArray deviceKey) node.devid
          let messageLen := formatStrlen format +
            operation.extra (.ofArray productKey) (.ofArray deviceKey) + 1
          (successReturn, ctx, some (halSnprintf messageLen format))

/-! ## Handlers -/

/-- `dm_msg_response_t` -/
structure DmMsgResponse where
  replyPrefix : UriPrefix
  replyName : CString
  productKey : List UInt8
  deviceKey : List UInt8
  code : Int

/-- What a handler leaves: the list of devices, the event, and the request with the response to it,
if it gets that far. -/
structure Handled where
  ctx : DmMgrCtx
  event : Option (List UInt8)
  answer : Option (DmMsgRequestPayload × DmMsgResponse)

/-- The response of a handler to the keys of the topic. They are copied by their lengths as
strings, which go on behind an array without a terminator. -/
def respond (replyPrefix : UriPrefix) (replyName : CString) (keys : List UInt8 × List UInt8)
    (res : Int) (surroundings : Surroundings) : Outcome DmMsgResponse := do
  let productKey ← copyAt (padded (iotxProductKeyLen + 1) []) 0
    (arrayText (keys.1 ++ surroundings.behindProductKey))
  let deviceKey ← copyAt (padded (iotxDeviceKeyLen + 1) []) 0
    (arrayText (keys.2 ++ surroundings.behindDeviceKey))
  let code := if res = successReturn then iotxDmErrCodeSuccess else iotxDmErrCodeRequestError
  return ⟨replyPrefix, replyName, productKey, deviceKey, code⟩

/-- `dm_msg_proc_thing_disable` and its siblings. -/
def procThing (operation : Operation) (ctx : DmMgrCtx) (uri : CString) (payload : List UInt8)
    (uriName : CString) (surroundings : Surroundings) : Outcome Handled :=
  match uriKeys uri.bytes, dmMsgRequestParse payload with
  | .ok (productKey, deviceKey), some request =>
      let (res, ctx, event) := dmMsgManage operation ctx productKey deviceKey surroundings
      (respond .sys uriName (productKey, deviceKey) res surroundings).bind fun response =>
        .ok ⟨ctx, event, some (request, response)⟩
  | .stray, _ => .stray
  | _, _ => .ok ⟨ctx, none, none⟩

/-- The parameters of a request that is accepted. -/
def requestParams (payload : List UInt8) : Option LiteCjson := do
  let lite ← jsonParse payload
  jsonObjectItem payload lite (ascii "params")

/-- A value in the parameters of a request, whatever its type. -/
def paramText (payload key : List UInt8) : Option (List UInt8) := do
  let params ← requestParams payload
  let item ← jsonObjectItem payload params key
  return itemText payload item

/-- `dm_msg_proc_combine_disable` and its siblings. -/
def procCombine (operation : Operation) (ctx : DmMgrCtx) (uri : CString) (payload : List UInt8)
    (uriName : CString) (surroundings : Surroundings) : Outcome Handled :=
  match dmMsgRequestParse payload, paramText payload (ascii "productKey"),
      paramText payload (ascii "deviceKey") with
  | some request, some productText, some deviceText => do
      let productKey ← copyAt (padded (iotxProductKeyLen + 1) []) 0 productText
      let deviceKey ← copyAt (padded (iotxDeviceKeyLen + 1) []) 0 deviceText
      -- the result of the operation is not used
      let (_, ctx, event) := dmMsgManage operation ctx productKey deviceKey surroundings
      match uriKeys uri.bytes with
      | .ok keys => do
          let response ← respond .extSession uriName keys successReturn surroundings
          return ⟨ctx, event, some (request, response)⟩
      | .stray => .stray
      | _ => return ⟨ctx, event, none⟩
  | _, _, _ => .ok ⟨ctx, none, none⟩

/-- `dm_msg_proc_thing_disable` -/
def dmMsgProcThingDisable := procThing .disable

/-- `dm_msg_proc_thing_enable` -/
def dmMsgProcThingEnable := procThing .enable

/-- `dm_msg_proc_thing_delete` -/
def dmMsgProcThingDelete := procThing .delete

/-- `dm_msg_proc_combine_disable` -/
def dmMsgProcCombineDisable := procCombine .disable

/-- `dm_msg_proc_combine_enable` -/
def dmMsgProcCombineEnable := procCombine .enable

/-- `dm_msg_proc_combine_delete` -/
def dmMsgProcCombineDelete := procCombine .delete

/-! ## What the handlers promise -/

/-- The kinds of commands. -/
inductive Channel
  | thing | combine
  deriving DecidableEq

/-- The handler of a command. -/
def Channel.handle : Channel → Operation → DmMgrCtx → CString → List UInt8 → CString →
    Surroundings → Outcome Handled
  | .thing => procThing
  | .combine => procCombine

/-- The prefix of the topics that a command comes in on. -/
def Channel.uriPrefix : Channel → UriPrefix
  | .thing => .sys
  | .combine => .extSession

/-- The texts that name the device of a command: the keys of its topic, or the values in its
parameters. -/
def Channel.Subject (channel : Channel) (payload : List UInt8) (productKey deviceKey : CString)
    (productText deviceText : List UInt8) : Prop :=
  match channel with
  | .thing => productText = productKey.bytes ∧ deviceText = deviceKey.bytes
  | .combine => paramText payload (ascii "productKey") = some productText ∧
      paramText payload (ascii "deviceKey") = some deviceText

/-- A command that can be read: the keys of its topic, each one level of it, and the texts that name
its device. -/
structure Names (channel : Channel) (uri : CString) (payload : List UInt8)
    (productKey deviceKey : CString) (productText deviceText : List UInt8) : Prop where
  topic : ∃ name : CString, name.bytes ≠ [] ∧
    uri.bytes = channel.uriPrefix.topic productKey deviceKey name
  productLevel : dmUriServiceDelimiter ∉ productKey.bytes
  deviceLevel : dmUriServiceDelimiter ∉ deviceKey.bytes
  request : (dmMsgRequestParse payload).isSome = true
  subject : channel.Subject payload productKey deviceKey productText deviceText

/-- The array has the string, with a terminator. -/
def Addressed (array text : List UInt8) : Prop := 0 ∈ array ∧ arrayText array = text

/-- The response says whether the operation on the device of the command succeeded, and goes to the
keys of the topic. -/
def TellsTruth (channel : Channel) (operation : Operation) (ctx : DmMgrCtx) (uri : CString)
    (payload : List UInt8) (uriName : CString) (surroundings : Surroundings)
    (productKey deviceKey : CString) (productText deviceText : List UInt8) : Prop :=
  ∃ handled request response,
    channel.handle operation ctx uri payload uriName surroundings = .ok handled ∧
    handled.answer = some (request, response) ∧
    (response.code = iotxDmErrCodeSuccess ↔
      (dmMsgManage operation ctx (padded (iotxProductKeyLen + 1) productText)
        (padded (iotxDeviceKeyLen + 1) deviceText) surroundings).1 = successReturn) ∧
    Addressed response.productKey productKey.bytes ∧
    Addressed response.deviceKey deviceKey.bytes

/-- The device ids that an operation accepts. -/
def Operation.Accepts : Operation → Int → Prop
  | .disable, _ => True
  | .enable, devid => 0 ≤ devid
  | .delete, devid => iotxDmLocalNodeDevid < devid

/-- The device is known under keys within the limits, the operation accepts it, and there are memory
for the event and room in the queue. -/
def Succeeds (operation : Operation) (ctx : DmMgrCtx) (productText deviceText : List UInt8)
    (surroundings : Surroundings) : Prop :=
  (arrayText productText).length ≤ iotxProductKeyLen ∧
    (arrayText deviceText).length ≤ iotxDeviceKeyLen ∧
    (∃ node, dmMgrSearchDevByPkdk ctx (.ofArray productText) (.ofArray deviceText) = some node ∧
      operation.Accepts node.devid) ∧
    surroundings.mallocOk = true ∧ surroundings.queued = true

/-! ## Operations -/

/-- The zeros behind a text do not change its string. -/
theorem ofArray_padded_eq (size : Nat) (text : List UInt8) :
    CString.ofArray (padded size text) = CString.ofArray text := by
  apply CString.ext
  change arrayText (padded size text) = arrayText text
  have hzeros : (List.replicate (size - text.length) (0 : UInt8)).takeWhile (· ≠ 0) = [] := by
    simp
  rw [padded, arrayText, List.takeWhile_append, hzeros, List.append_nil]
  split
  · next hwhole => exact ((List.takeWhile_prefix _).eq_of_length hwhole).symm
  · rfl

/-- A known device is found under its id, too. -/
theorem search_devid_isSome {ctx : DmMgrCtx} {productKey deviceKey : CString}
    {node : DmMgrDevNode} (hfound : dmMgrSearchDevByPkdk ctx productKey deviceKey = some node) :
    ∃ other, dmMgrSearchDevByDevid ctx node.devid = some other ∧ other.devid = node.devid := by
  have hmem := List.mem_of_find?_eq_some hfound
  cases hsearch : dmMgrSearchDevByDevid ctx node.devid with
  | none => exact absurd (List.find?_eq_none.mp hsearch node hmem) (by simp)
  | some other => exact ⟨other, rfl, by simpa using List.find?_some hsearch⟩

/-- When an operation succeeds on a known device. -/
theorem perform_success_iff (operation : Operation) {ctx : DmMgrCtx}
    {productKey deviceKey : CString} {node : DmMgrDevNode}
    (hfound : dmMgrSearchDevByPkdk ctx productKey deviceKey = some node) :
    (operation.perform ctx node.devid).1 = successReturn ↔ operation.Accepts node.devid := by
  obtain ⟨other, hother, hdevid⟩ := search_devid_isSome hfound
  cases operation with
  | disable => exact iff_of_true rfl trivial
  | enable =>
      rw [Operation.perform, dmMgrSetDevAvail, Operation.Accepts]
      by_cases hnegative : node.devid < 0
      · rw [if_pos hnegative]
        exact iff_of_false (fun hsame : stateUserInputInvalid = successReturn =>
          absurd hsame (by decide)) (by omega)
      · rw [if_neg hnegative, hother]
        exact iff_of_true rfl (by omega)
  | delete =>
      rw [Operation.perform, dmMgrDeviceDestroy, Operation.Accepts, iotxDmLocalNodeDevid]
      by_cases hnegative : node.devid < 0
      · rw [if_pos hnegative]
        exact iff_of_false (fun hsame : stateUserInputDevid = successReturn =>
          absurd hsame (by decide)) (by omega)
      · rw [if_neg hnegative, hother]
        dsimp only
        rw [hdevid]
        by_cases hlocal : node.devid = 0
        · rw [if_pos hlocal]
          exact iff_of_false (fun hsame : stateDevModelSubdNotDeleteable = successReturn =>
            absurd hsame (by decide)) (by omega)
        · rw [if_neg hlocal]
          exact iff_of_true rfl (by omega)

/-- When `dm_msg_thing_disable` and its siblings succeed. -/
theorem dmMsgManage_success_iff (operation : Operation) (ctx : DmMgrCtx)
    (productText deviceText : List UInt8) (surroundings : Surroundings) :
    (dmMsgManage operation ctx (padded (iotxProductKeyLen + 1) productText)
        (padded (iotxDeviceKeyLen + 1) deviceText) surroundings).1 = successReturn ↔
      Succeeds operation ctx productText deviceText surroundings := by
  have hproduct := ofArray_padded_eq (iotxProductKeyLen + 1) productText
  have hdevice := ofArray_padded_eq (iotxDeviceKeyLen + 1) deviceText
  have hproductLen : arrayStrlen (padded (iotxProductKeyLen + 1) productText) =
      (arrayText productText).length := congrArg CString.strlen hproduct
  have hdeviceLen : arrayStrlen (padded (iotxDeviceKeyLen + 1) deviceText) =
      (arrayText deviceText).length := congrArg CString.strlen hdevice
  rw [dmMsgManage, Succeeds, hproductLen, hdeviceLen, hproduct, hdevice]
  by_cases hlong : iotxProductKeyLen + 1 ≤ (arrayText productText).length ∨
      iotxDeviceKeyLen + 1 ≤ (arrayText deviceText).length
  · rw [if_pos hlong]
    refine iff_of_false (fun hsame : stateUserInputInvalid = successReturn =>
      absurd hsame (by decide)) ?_
    rintro ⟨hproductShort, hdeviceShort, -⟩
    omega
  · rw [if_neg hlong]
    have hproductShort : (arrayText productText).length ≤ iotxProductKeyLen := by omega
    have hdeviceShort : (arrayText deviceText).length ≤ iotxDeviceKeyLen := by omega
    cases hfound : dmMgrSearchDevByPkdk ctx (.ofArray productText) (.ofArray deviceText) with
    | none =>
        refine iff_of_false (fun hsame : failReturn = successReturn =>
          absurd hsame (by decide)) ?_
        rintro ⟨-, -, ⟨node, hnode, -⟩, -⟩
        cases hnode
    | some node =>
        have hperform := perform_success_iff operation hfound
        have haccepts : (∃ other, some node = some other ∧ operation.Accepts other.devid) ↔
            operation.Accepts node.devid := by simp
        rw [haccepts, ← hperform]
        dsimp only
        by_cases hres : (operation.perform ctx node.devid).1 = successReturn
        · rw [if_neg (not_not.mpr hres)]
          cases hmalloc : surroundings.mallocOk with
          | false => simp [stateSysDependMalloc, successReturn]
          | true =>
              cases hqueued : surroundings.queued with
              | false => simp [failReturn, successReturn]
              | true => simp [hres, hproductShort, hdeviceShort]
        · rw [if_pos hres]
          refine iff_of_false (fun hsame : failReturn = successReturn =>
            absurd hsame (by decide)) ?_
          rintro ⟨-, -, hsame, -⟩
          exact hres hsame

/-! ## Responses -/

/-- A zeroed array has a terminator behind a string that is shorter. -/
theorem addressed_padded_iff {size : Nat} {string text : List UInt8} (hstring : 0 ∉ string) :
    Addressed (padded size string) text ↔ string.length < size ∧ string = text := by
  rw [Addressed, arrayText_padded hstring, padded, List.mem_append, List.mem_replicate]
  constructor
  · rintro ⟨hzero | ⟨hroom, -⟩, hsame⟩
    · exact absurd hzero hstring
    · exact ⟨by omega, hsame⟩
  · rintro ⟨hroom, hsame⟩
    exact ⟨Or.inr ⟨by omega, rfl⟩, hsame⟩

/-- A zeroed array with room behind a string ends it, whatever comes next. -/
theorem arrayText_padded_append {size : Nat} {string : List UInt8} (hstring : 0 ∉ string)
    (hroom : string.length < size) (behind : List UInt8) :
    arrayText (padded size string ++ behind) = string := by
  have hsize : size - string.length = (size - string.length - 1) + 1 := by omega
  rw [padded, hsize, List.replicate_succ, List.append_assoc, arrayText_append hstring]
  exact List.append_nil string

section Response

variable {replyPrefix : UriPrefix} {replyName : CString} {productKey deviceKey : List UInt8}
  {surroundings : Surroundings}

/-- Keys with terminators are in the response. -/
theorem respond_of_fits (hproductNul : 0 ∉ productKey) (hdeviceNul : 0 ∉ deviceKey)
    (hproduct : productKey.length ≤ iotxProductKeyLen)
    (hdevice : deviceKey.length ≤ iotxDeviceKeyLen) (res : Int) :
    respond replyPrefix replyName (padded (iotxProductKeyLen + 1) productKey,
        padded (iotxDeviceKeyLen + 1) deviceKey) res surroundings =
      .ok ⟨replyPrefix, replyName, padded (iotxProductKeyLen + 1) productKey,
        padded (iotxDeviceKeyLen + 1) deviceKey,
        if res = successReturn then iotxDmErrCodeSuccess else iotxDmErrCodeRequestError⟩ := by
  rw [respond, arrayText_padded_append hproductNul (by omega),
    arrayText_padded_append hdeviceNul (by omega), copyAt_zeros (by omega), Outcome.ok_bind,
    copyAt_zeros (by omega), Outcome.ok_bind]
  rfl

/-- The keys that a response goes to had terminators. -/
theorem keys_of_respond {res : Int} {response : DmMsgResponse} {productTo deviceTo : List UInt8}
    (hproductNul : 0 ∉ productKey) (hdeviceNul : 0 ∉ deviceKey)
    (hrespond : respond replyPrefix replyName (padded (iotxProductKeyLen + 1) productKey,
      padded (iotxDeviceKeyLen + 1) deviceKey) res surroundings = .ok response)
    (hproductTo : Addressed response.productKey productTo)
    (hdeviceTo : Addressed response.deviceKey deviceTo) :
    (productKey.length ≤ iotxProductKeyLen ∧ productKey = productTo) ∧
      deviceKey.length ≤ iotxDeviceKeyLen ∧ deviceKey = deviceTo := by
  have hcopies : ∀ {size : Nat} {key behind copied text : List UInt8}, 0 ∉ key →
      copyAt (padded size []) 0 (arrayText (padded size key ++ behind)) = .ok copied →
      Addressed copied text → key.length < size ∧ key = text := by
    intro size key behind copied text hkey hcopy haddressed
    have hlonger : key.length ≤ (arrayText (padded size key ++ behind)).length := by
      rw [padded, List.append_assoc, arrayText_append hkey, List.length_append]
      exact Nat.le_add_right _ _
    by_cases hroom : (arrayText (padded size key ++ behind)).length ≤ size
    · rw [copyAt_zeros hroom] at hcopy
      cases hcopy
      obtain ⟨hshort, hsame⟩ := (addressed_padded_iff (zero_not_mem_arrayText _)).mp haddressed
      rw [arrayText_padded_append hkey (by omega)] at hsame
      exact ⟨by omega, hsame⟩
    · rw [copyAt_zeros_stray (by omega)] at hcopy
      cases hcopy
  rw [respond] at hrespond
  cases hfirst : copyAt (padded (iotxProductKeyLen + 1) []) 0
      (arrayText (padded (iotxProductKeyLen + 1) productKey ++ surroundings.behindProductKey)) with
  | ok first =>
      cases hsecond : copyAt (padded (iotxDeviceKeyLen + 1) []) 0
          (arrayText (padded (iotxDeviceKeyLen + 1) deviceKey ++
            surroundings.behindDeviceKey)) with
      | ok second =>
          rw [hfirst, Outcome.ok_bind, hsecond, Outcome.ok_bind] at hrespond
          cases hrespond
          have hproduct := hcopies hproductNul hfirst hproductTo
          have hdevice := hcopies hdeviceNul hsecond hdeviceTo
          exact ⟨⟨Nat.lt_succ_iff.mp hproduct.1, hproduct.2⟩, Nat.lt_succ_iff.mp hdevice.1,
            hdevice.2⟩
      | failed | stray | running =>
          rw [hfirst, Outcome.ok_bind, hsecond] at hrespond
          cases hrespond
  | failed | stray | running =>
      rw [hfirst] at hrespond
      cases hrespond

end Response

/-! ## When the response is true -/

section Truth

variable {uri : CString} {payload productText deviceText : List UInt8}
  {productKey deviceKey : CString} (operation : Operation) (ctx : DmMgrCtx) (uriName : CString)
  (surroundings : Surroundings)

/-- A code that is taken from a result tells it. -/
theorem code_iff (res : Int) :
    (if res = successReturn then iotxDmErrCodeSuccess else iotxDmErrCodeRequestError) =
      iotxDmErrCodeSuccess ↔ res = successReturn := by
  by_cases hres : res = successReturn
  · rw [if_pos hres]
    exact iff_of_true rfl hres
  · rw [if_neg hres]
    exact iff_of_false (by decide) hres

/-- The response to a thing command is true if the keys have terminators. -/
theorem tellsTruth_thing_iff
    (hnames : Names .thing uri payload productKey deviceKey productText deviceText) :
    TellsTruth .thing operation ctx uri payload uriName surroundings productKey deviceKey
        productText deviceText ↔
      productKey.strlen ≤ iotxProductKeyLen ∧ deviceKey.strlen ≤ iotxDeviceKeyLen := by
  obtain ⟨⟨name, hname, huri⟩, hproductLevel, hdeviceLevel, hrequest, rfl, rfl⟩ := hnames
  obtain ⟨request, hrequest⟩ := Option.isSome_iff_exists.mp hrequest
  have hkeys := huri ▸ hasKeys_topic productKey deviceKey name hproductLevel hdeviceLevel hname
  constructor
  · rintro ⟨handled, request', response, hhandled, hanswer, -, hproductTo, hdeviceTo⟩
    rw [Channel.handle, procThing] at hhandled
    by_cases hfits : productKey.bytes.length ≤ iotxProductKeyLen + 1 ∧
        deviceKey.bytes.length ≤ iotxDeviceKeyLen + 1
    · rw [hkeys.uriKeys_of_fits hfits.1 hfits.2, hrequest] at hhandled
      dsimp only at hhandled
      cases hrespond : respond .sys uriName (padded (iotxProductKeyLen + 1) productKey.bytes,
          padded (iotxDeviceKeyLen + 1) deviceKey.bytes)
          (dmMsgManage operation ctx (padded (iotxProductKeyLen + 1) productKey.bytes)
            (padded (iotxDeviceKeyLen + 1) deviceKey.bytes) surroundings).1 surroundings with
      | ok made =>
          rw [hrespond] at hhandled
          cases hhandled
          cases hanswer
          have hmade := keys_of_respond productKey.noNul deviceKey.noNul hrespond hproductTo
            hdeviceTo
          exact ⟨hmade.1.1, hmade.2.1⟩
      | failed | stray | running =>
          rw [hrespond] at hhandled
          cases hhandled
    · rw [hkeys.uriKeys_stray hfits] at hhandled
      cases hhandled
  · rintro ⟨hproduct, hdevice⟩
    rw [CString.strlen] at hproduct hdevice
    obtain ⟨after, event, hhandled⟩ : ∃ after event,
        Channel.thing.handle operation ctx uri payload uriName surroundings =
          (respond .sys uriName (padded (iotxProductKeyLen + 1) productKey.bytes,
            padded (iotxDeviceKeyLen + 1) deviceKey.bytes)
            (dmMsgManage operation ctx (padded (iotxProductKeyLen + 1) productKey.bytes)
              (padded (iotxDeviceKeyLen + 1) deviceKey.bytes) surroundings).1 surroundings).bind
            fun response => .ok ⟨after, event, some (request, response)⟩ := by
      rw [Channel.handle, procThing, hkeys.uriKeys_of_fits (by omega) (by omega), hrequest]
      exact ⟨_, _, rfl⟩
    rw [respond_of_fits productKey.noNul deviceKey.noNul hproduct hdevice] at hhandled
    exact ⟨_, request, _, hhandled, rfl, code_iff _,
      (addressed_padded_iff productKey.noNul).mpr ⟨by omega, rfl⟩,
      (addressed_padded_iff deviceKey.noNul).mpr ⟨by omega, rfl⟩⟩

/-- What the code takes for the product key of a combine command. -/
def sessionText : List UInt8 := ascii "session"

/-- The response to a combine command is true if the keys of its topic read like the level before
them, those of its parameters fit, and the operation succeeds. -/
theorem tellsTruth_combine_iff
    (hnames : Names .combine uri payload productKey deviceKey productText deviceText) :
    TellsTruth .combine operation ctx uri payload uriName surroundings productKey deviceKey
        productText deviceText ↔
      (productKey.bytes = sessionText ∧ deviceKey.bytes = sessionText) ∧
        productText.length ≤ iotxProductKeyLen + 1 ∧ deviceText.length ≤ iotxDeviceKeyLen + 1 ∧
        Succeeds operation ctx productText deviceText surroundings := by
  obtain ⟨⟨name, -, huri⟩, hproductLevel, hdeviceLevel, hrequest, hproductText, hdeviceText⟩ :=
    hnames
  obtain ⟨request, hrequest⟩ := Option.isSome_iff_exists.mp hrequest
  have hkeys : HasKeys uri.bytes sessionText productKey.bytes := by
    refine ⟨ascii "/ext", deviceKey.bytes ++ dmUriServiceDelimiter :: name.bytes, ?_, by decide,
      by decide, hproductLevel, List.append_ne_nil_of_right_ne_nil _ (List.cons_ne_nil _ _)⟩
    rw [huri, UriPrefix.topic]
    rfl
  have hsessionNul : 0 ∉ sessionText := by decide
  have hsessionLen : sessionText.length ≤ iotxProductKeyLen := by decide
  rw [← dmMsgManage_success_iff]
  have hstart : Channel.combine.handle operation ctx uri payload uriName surroundings =
      (do
        let productArray ← copyAt (padded (iotxProductKeyLen + 1) []) 0 productText
        let deviceArray ← copyAt (padded (iotxDeviceKeyLen + 1) []) 0 deviceText
        let (_, ctx, event) := dmMsgManage operation ctx productArray deviceArray surroundings
        match uriKeys uri.bytes with
        | .ok keys => do
            let response ← respond .extSession uriName keys successReturn surroundings
            return ⟨ctx, event, some (request, response)⟩
        | .stray => .stray
        | _ => return ⟨ctx, event, none⟩) := by
    rw [Channel.handle, procCombine, hrequest, hproductText, hdeviceText]
  constructor
  · rintro ⟨handled, request', response, hhandled, hanswer, hcode, hproductTo, hdeviceTo⟩
    rw [hstart] at hhandled
    by_cases hproduct : productText.length ≤ iotxProductKeyLen + 1
    · rw [copyAt_zeros hproduct, Outcome.ok_bind] at hhandled
      by_cases hdevice : deviceText.length ≤ iotxDeviceKeyLen + 1
      · rw [copyAt_zeros hdevice, Outcome.ok_bind] at hhandled
        dsimp only at hhandled
        by_cases hfits : sessionText.length ≤ iotxProductKeyLen + 1 ∧
            productKey.bytes.length ≤ iotxDeviceKeyLen + 1
        · rw [hkeys.uriKeys_of_fits hfits.1 hfits.2] at hhandled
          dsimp only at hhandled
          cases hrespond : respond .extSession uriName
              (padded (iotxProductKeyLen + 1) sessionText,
                padded (iotxDeviceKeyLen + 1) productKey.bytes) successReturn surroundings with
          | ok made =>
              rw [hrespond, Outcome.ok_bind] at hhandled
              cases hhandled
              cases hanswer
              obtain ⟨⟨-, hproductSame⟩, hproductLen, hdeviceSame⟩ :=
                keys_of_respond hsessionNul productKey.noNul hrespond hproductTo hdeviceTo
              rw [respond_of_fits hsessionNul productKey.noNul hsessionLen hproductLen]
                at hrespond
              cases hrespond
              exact ⟨⟨hproductSame.symm, (hproductSame.trans hdeviceSame).symm⟩, hproduct,
                hdevice, hcode.mp rfl⟩
          | failed | stray | running =>
              rw [hrespond] at hhandled
              cases hhandled
        · rw [hkeys.uriKeys_stray hfits] at hhandled
          cases hhandled
      · rw [copyAt_zeros_stray (by omega)] at hhandled
        cases hhandled
    · rw [copyAt_zeros_stray (by omega)] at hhandled
      cases hhandled
  · rintro ⟨⟨hproduct, hdevice⟩, hproductFits, hdeviceFits, hsuccess⟩
    have hproductLen : productKey.bytes.length ≤ iotxDeviceKeyLen := by
      rw [hproduct]
      decide
    rw [copyAt_zeros hproductFits, Outcome.ok_bind, copyAt_zeros hdeviceFits, Outcome.ok_bind,
      hkeys.uriKeys_of_fits (by omega) (by omega)] at hstart
    dsimp only at hstart
    rw [respond_of_fits hsessionNul productKey.noNul hsessionLen (by omega), Outcome.ok_bind]
      at hstart
    exact ⟨_, request, _, hstart, rfl, iff_of_true rfl hsuccess,
      (addressed_padded_iff hsessionNul).mpr ⟨by omega, hproduct.symm⟩,
      (addressed_padded_iff productKey.noNul).mpr ⟨by omega, hproduct.trans hdevice.symm⟩⟩

/-- The response to a thing command is true exactly where the keys of the topic are within the
limits. That to a combine command is only true where both keys of the topic are the word before
them, the keys in the parameters fit into their arrays, and the operation succeeds. -/
theorem tellsTruth_iff {channel : Channel}
    (hnames : Names channel uri payload productKey deviceKey productText deviceText) :
    TellsTruth channel operation ctx uri payload uriName surroundings productKey deviceKey
        productText deviceText ↔
      match channel with
      | .thing => productKey.strlen ≤ iotxProductKeyLen ∧ deviceKey.strlen ≤ iotxDeviceKeyLen
      | .combine => (productKey.bytes = sessionText ∧ deviceKey.bytes = sessionText) ∧
          productText.length ≤ iotxProductKeyLen + 1 ∧
          deviceText.length ≤ iotxDeviceKeyLen + 1 ∧
          Succeeds operation ctx productText deviceText surroundings := by
  cases channel with
  | thing => exact tellsTruth_thing_iff operation ctx uriName surroundings hnames
  | combine => exact tellsTruth_combine_iff operation ctx uriName surroundings hnames

end Truth

/-- Memory, room in the queue, and zeros behind the arrays. -/
def calm : Surroundings := ⟨true, true, [0], [0]⟩

/-- The gateway is enabled. -/
theorem tellsTruth_enable :
    TellsTruth .thing .enable gatewayAlone ⟨ascii "/sys/p/g/thing/enable", by decide⟩
      (ascii "\x7b\"id\":\"1\",\"version\":\"1\",\"method\":\"m\",\"params\":\x7b\x7d\x7d")
      ⟨ascii "thing/enable_reply", by decide⟩ calm ⟨[112], by decide⟩ ⟨[103], by decide⟩ [112]
      [103] := by
  have hsubject : Channel.thing.Subject
      (ascii "\x7b\"id\":\"1\",\"version\":\"1\",\"method\":\"m\",\"params\":\x7b\x7d\x7d")
      ⟨[112], by decide⟩ ⟨[103], by decide⟩ [112] [103] := ⟨rfl, rfl⟩
  exact (tellsTruth_iff _ _ _ _
    { topic := ⟨⟨ascii "thing/enable", by decide⟩, by decide, by decide⟩
      productLevel := by decide
      deviceLevel := by decide
      request := by decide +kernel
      subject := hsubject }).mpr ⟨by decide, by decide⟩

/-- An unknown device is disabled with success. -/
theorem not_tellsTruth_unknown :
    ¬ TellsTruth .combine .disable gatewayAlone
      ⟨ascii "/ext/session/p/g/combine/disable", by decide⟩
      (ascii ("\x7b\"id\":\"1\",\"version\":\"1\",\"method\":\"m\",\"params\":\x7b" ++
        "\"productKey\":\"x\",\"deviceKey\":\"y\"\x7d\x7d"))
      ⟨ascii "combine/disable_reply", by decide⟩ calm ⟨[112], by decide⟩ ⟨[103], by decide⟩
      (ascii "x") (ascii "y") := by
  intro htruth
  have hcondition := (tellsTruth_combine_iff _ _ _ _
    { topic := ⟨⟨ascii "combine/disable", by decide⟩, by decide, by decide⟩
      productLevel := by decide
      deviceLevel := by decide
      request := by decide +kernel
      subject := ⟨by decide +kernel, by decide +kernel⟩ }).mp htruth
  obtain ⟨-, -, -, -, -, ⟨node, hnode, -⟩, -⟩ := hcondition
  have hunknown : dmMgrSearchDevByPkdk gatewayAlone (.ofArray (ascii "x")) (.ofArray (ascii "y")) =
      none := by decide
  rw [hunknown] at hnode
  cases hnode

end EnosDeviceSdk.DevModel.Management
