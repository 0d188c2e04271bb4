/-
# Raw data from the cloud to the user

Bytes that arrive on one of the two raw topics of a device go to the user as they are. On the way
they are written as hexadecimal digits into a JSON event, which waits in the message queue. The
dispatcher reads the event back, and with other functions than those that wrote it turns the
digits into bytes.

The event is always complete: its buffer counts the conversions of the format and ten bytes more,
and the device id has eleven characters at most.
-/

import EnosDeviceSdk.Infra.CjsonMembers
import EnosDeviceSdk.DevModel.CommandList
import EnosDeviceSdk.DevModel.MessageCache
import EnosDeviceSdk.DevModel.Ipc
import EnosDeviceSdk.DevModel.Uri

namespace EnosDeviceSdk.DevModel.RawData

open EnosDeviceSdk.Infra EnosDeviceSdk.Library EnosDeviceSdk.DevModel.Ipc

universe u

variable {ι : Type u}

/-! ## Writing the event -/

/-- The events of the queue: `IOTX_DM_EVENT_MODEL_DOWN_RAW`, `IOTX_DM_EVENT_MODEL_UP_RAW_REPLY`, and
the others by their number. -/
inductive IotxDmEventType
  | modelDownRaw | modelUpRawReply
  | other (number : Nat)
  deriving DecidableEq

/-- `dm_ipc_msg_t` -/
structure DmIpcMsg where
  type : IotxDmEventType
  data : List UInt8
  deriving DecidableEq

/-- The character that `dm_utils_hex_to_str` writes for four bits. -/
def hexChar (nibble : UInt8) : UInt8 :=
  if nibble ≤ 9 then nibble + 48
  else if 10 ≤ nibble ∧ nibble ≤ 15 then nibble + 55
  else nibble

/-- `dm_utils_hex_to_str` -/
def dmUtilsHexToStr (input : List UInt8) (mallocOk : Bool) : Option (List UInt8) :=
  if input = [] ∨ !mallocOk then none
  else some (input.flatMap fun (byte : UInt8) =>
    [hexChar (byte >>> 4 &&& 15), hexChar (byte &&& 15)])

/-- `DM_MSG_THING_MODEL_DOWN_FMT` -/
def modelDownFormat (devid : Int) (hexstr : List UInt8) : List FormatPart :=
  [.text (ascii "\x7b\"devid\":"), .d devid, .text (ascii ",\"payload\":\""), .precise hexstr,
    .text (ascii "\"\x7d")]

/-- Which allocations succeed: the digits, the event, the message of the queue, and the user's
bytes. -/
structure RawMallocs where
  hexstr : Bool
  message : Bool
  dipcMsg : Bool
  rawData : Bool

/-- What `dm_msg_thing_model_down_raw` and `dm_msg_thing_model_up_raw_reply` write into the event,
with the arrays of the keys. Both use the format of the former. -/
def rawMessage (ctx : DmMgrCtx) (productKey deviceKey payload : List UInt8)
    (mallocs : RawMallocs) : Option (List UInt8) :=
  if iotxProductKeyLen + 1 ≤ arrayStrlen productKey ∨
      iotxDeviceKeyLen + 1 ≤ arrayStrlen deviceKey ∨ payload = [] then none
  else do
    let node ← dmMgrSearchDevByPkdk ctx (.ofArray productKey) (.ofArray deviceKey)
    let hexstr ← dmUtilsHexToStr payload mallocs.hexstr
    let format := modelDownFormat node.devid hexstr
    let messageLen := formatStrlen format + dmUtilsUint32Strlen + arrayStrlen hexstr + 1
    if mallocs.message then return halSnprintf messageLen format else none

section Queue

variable [DecidableEq ι] (allocator : HeapAllocator ι)

/-- `_dm_msg_send_to_user` -/
def dmMsgSendToUser (ipc : DmIpc ι DmIpcMsg) (type : IotxDmEventType) (message : List UInt8)
    (mallocOk : Bool) (moment : Nat) : Int × DmIpc ι DmIpcMsg :=
  if !mallocOk then (stateSysDependMalloc, ipc)
  else dmIpcMsgInsert allocator ipc (some ⟨type, message⟩) moment

/-- A raw handler from the topic to the queue. -/
def procRaw (type : IotxDmEventType) (ctx : DmMgrCtx) (uri payload : List UInt8)
    (mallocs : RawMallocs) (ipc : DmIpc ι DmIpcMsg) (moment : Nat) : DmIpc ι DmIpcMsg :=
  match uriKeys uri with
  | .ok (productKey, deviceKey) =>
      match rawMessage ctx productKey deviceKey payload mallocs with
      | some message => (dmMsgSendToUser allocator ipc type message mallocs.dipcMsg moment).2
      | none => ipc
  | _ => ipc

/-- `dm_msg_proc_thing_model_down_raw` -/
def dmMsgProcThingModelDownRaw : DmMgrCtx → List UInt8 → List UInt8 → RawMallocs →
    DmIpc ι DmIpcMsg → Nat → DmIpc ι DmIpcMsg :=
  procRaw allocator .modelDownRaw

/-- `dm_msg_proc_thing_model_up_raw_reply` -/
def dmMsgProcThingModelUpRawReply : DmMgrCtx → List UInt8 → List UInt8 → RawMallocs →
    DmIpc ι DmIpcMsg → Nat → DmIpc ι DmIpcMsg :=
  procRaw allocator .modelUpRawReply

end Queue

/-! ## Reading the event -/

/-- `_hexval_of_char` -/
def hexvalOfChar (hex : UInt8) : UInt8 :=
  if 48 ≤ hex ∧ hex ≤ 57 then hex - 48
  else if 97 ≤ hex ∧ hex ≤ 102 then hex - 97 + 10
  else if 65 ≤ hex ∧ hex ≤ 70 then hex - 65 + 10
  else 0

/-- The loop of `LITE_hexstr_convert`, over what the output holds. -/
def hexstrLoop : List UInt8 → List UInt8 → List UInt8
  | first :: second :: input, _ :: output =>
      (hexvalOfChar first <<< 4 ||| hexvalOfChar second) :: hexstrLoop input output
  | _, output => output

/-- `LITE_hexstr_convert` -/
def liteHexstrConvert (input output : List UInt8) : List UInt8 :=
  if input.length % 2 ≠ 0 then output else hexstrLoop input output

/-- `_iotx_enos_event_callback` for a raw event with a callback registered: the device id and the
bytes that the callback gets. For `IOTX_DM_EVENT_MODEL_DOWN_RAW` the allocated bytes are as stale as
they come. -/
def rawEventCallback (type : IotxDmEventType) (text : List UInt8) (mallocs : RawMallocs)
    (stale : Nat → UInt8) : Option (Int × List UInt8) := do
  let lite ← jsonParse text
  let devid ← jsonMember text lite (ascii "devid") .number
  let payload ← jsonMember text lite (ascii "payload") .string
  let rawDataLen := payload.length / 2
  if !mallocs.rawData then none
  else
    match type with
    | .modelDownRaw =>
        return (valueInt devid, liteHexstrConvert payload ((List.range rawDataLen).map stale))
    | .modelUpRawReply =>
        return (valueInt devid, liteHexstrConvert payload (List.replicate rawDataLen 0))
    | .other _ => none

/-- The dispatcher takes out so many messages, in order. -/
def dispatched [DecidableEq ι] : Nat → DmIpc ι DmIpcMsg → List DmIpcMsg
  | 0, _ => []
  | count + 1, ipc =>
      match dmIpcMsgNext ipc (some none) with
      | (_, some (some message), later) => message :: dispatched count later
      | _ => []

/-! ## The two codecs -/

/-- The digits of the bytes. -/
def hexDigits (bytes : List UInt8) : List UInt8 :=
  bytes.flatMap fun (byte : UInt8) => [hexChar (byte >>> 4 &&& 15), hexChar (byte &&& 15)]

/-- A byte is read back from its two digits. -/
theorem hexvalOfChar_hexChar (byte : UInt8) :
    hexvalOfChar (hexChar (byte >>> 4 &&& 15)) <<< 4 ||| hexvalOfChar (hexChar (byte &&& 15)) =
      byte := by
  revert byte
  exact forall_byte (by decide +kernel)

theorem hexDigits_length (bytes : List UInt8) : (hexDigits bytes).length = 2 * bytes.length := by
  induction bytes with
  | nil => rfl
  | cons byte rest ih =>
      rw [hexDigits, List.flatMap_cons, List.length_append, ← hexDigits, ih]
      simp only [List.length_cons, List.length_nil]
      omega

/-- No digit is a NUL, a quote or a backslash. -/
theorem hexDigits_plain {bytes : List UInt8} :
    ∀ char ∈ hexDigits bytes, char ≠ 0 ∧ char ≠ 34 ∧ char ≠ 92 := by
  have hhigh : ∀ byte : UInt8, hexChar (byte >>> 4 &&& 15) ≠ 0 ∧ hexChar (byte >>> 4 &&& 15) ≠ 34 ∧
      hexChar (byte >>> 4 &&& 15) ≠ 92 := forall_byte (by decide +kernel)
  have hlow : ∀ byte : UInt8, hexChar (byte &&& 15) ≠ 0 ∧ hexChar (byte &&& 15) ≠ 34 ∧
      hexChar (byte &&& 15) ≠ 92 := forall_byte (by decide +kernel)
  intro char hchar
  obtain ⟨byte, -, hpair⟩ := List.mem_flatMap.mp hchar
  rcases List.mem_cons.mp hpair with rfl | hsecond
  · exact hhigh byte
  · rw [List.mem_singleton.mp hsecond]
    exact hlow byte

/-- Whatever the output held, the bytes are in it in the end. -/
theorem hexstrLoop_hexDigits {bytes output : List UInt8} (hlength : output.length = bytes.length) :
    hexstrLoop (hexDigits bytes) output = bytes := by
  induction bytes generalizing output with
  | nil =>
      obtain rfl := List.eq_nil_of_length_eq_zero hlength
      rfl
  | cons byte rest ih =>
      obtain ⟨old, output, rfl⟩ := List.exists_cons_of_length_eq_add_one hlength
      have hrest : output.length = rest.length := Nat.succ.inj hlength
      change _ :: hexstrLoop (hexDigits rest) output = _
      rw [ih hrest, hexvalOfChar_hexChar]

theorem liteHexstrConvert_hexDigits {bytes output : List UInt8}
    (hlength : output.length = bytes.length) :
    liteHexstrConvert (hexDigits bytes) output = bytes := by
  have heven : (hexDigits bytes).length % 2 = 0 := by
    rw [hexDigits_length]
    omega
  rw [liteHexstrConvert, if_neg (not_not.mpr heven), hexstrLoop_hexDigits hlength]

/-! ## The event -/

/-- The members of the event. -/
def rawMembers (devid : Int) (bytes : List UInt8) : List (List UInt8 × Doc) :=
  [(ascii "devid", .scalar (.number (intDecimal devid))),
    (ascii "payload", .scalar (.string (hexDigits bytes)))]

/-- The event of a raw message. -/
def rawText (devid : Int) (bytes : List UInt8) : List UInt8 :=
  (objectOf (rawMembers devid bytes)).render

variable {devid : Int}

theorem formatText_modelDownFormat (bytes : List UInt8) :
    formatText (modelDownFormat devid (hexDigits bytes)) = rawText devid bytes := by
  have hfirst : ascii "\x7b\"devid\":" = 123 :: 34 :: (ascii "devid" ++ [34, 58]) := by decide
  have hpayload : ascii ",\"payload\":\"" = 44 :: 34 :: (ascii "payload" ++ [34, 58, 34]) := by
    decide
  have hend : ascii "\"\x7d" = [34, 125] := by decide
  have hnoNul : 0 ∉ hexDigits bytes := fun hzero => (hexDigits_plain 0 hzero).1 rfl
  rw [rawText, render_objectOf _ (by simp [rawMembers])]
  simp [formatText, modelDownFormat, FormatPart.print, rawMembers, joinCommas, Doc.render,
    Token.render, hfirst, hpayload, hend, arrayText_of_noNul hnoNul]

/-- The buffer has room for the event. -/
theorem halSnprintf_modelDownFormat (hdevid : IsInt devid) (bytes : List UInt8) :
    halSnprintf (formatStrlen (modelDownFormat devid (hexDigits bytes)) + dmUtilsUint32Strlen +
      arrayStrlen (hexDigits bytes) + 1) (modelDownFormat devid (hexDigits bytes)) =
        rawText devid bytes := by
  have hnoNul : 0 ∉ hexDigits bytes := fun hzero => (hexDigits_plain 0 hzero).1 rfl
  have hdigits := length_intDecimal_le hdevid
  rw [halSnprintf, ← formatText_modelDownFormat]
  apply List.take_of_length_le
  simp only [formatText, formatStrlen, modelDownFormat, FormatPart.print, FormatPart.strlen,
    arrayStrlen, arrayText_of_noNul hnoNul, dmUtilsUint32Strlen, List.map_cons, List.map_nil,
    List.flatten_cons, List.flatten_nil, List.length_append, List.length_nil, List.sum_cons,
    List.sum_nil]
  omega

/-- The callback gets the device id and the bytes. -/
theorem rawEventCallback_rawText (hdevid : IsInt devid) (bytes : List UInt8)
    {type : IotxDmEventType} (htype : type = .modelDownRaw ∨ type = .modelUpRawReply)
    {mallocs : RawMallocs} (hrawData : mallocs.rawData = true) (stale : Nat → UInt8) :
    rawEventCallback type (rawText devid bytes) mallocs stale = some (devid, bytes) := by
  have hbody : StringBody (hexDigits bytes) := by
    apply stringBody_of_plain
    rw [List.all_eq_true]
    exact fun char hchar => decide_eq_true (hexDigits_plain char hchar).2
  have hobject : (objectOf (rawMembers devid bytes)).WellFormed liteCjsonNestingLimit := by
    apply objectOf_wellFormed
    · simp only [rawMembers, List.forall_mem_cons, List.not_mem_nil, false_imp_iff,
        implies_true, and_true]
      exact ⟨stringBody_of_plain (by decide), stringBody_of_plain (by decide)⟩
    · simp only [rawMembers, List.forall_mem_cons, List.not_mem_nil, false_imp_iff,
        implies_true, and_true]
      exact ⟨.scalar (numberToken_intDecimal hdevid), .scalar hbody⟩
  obtain ⟨item, hparse, -, hmember⟩ := jsonMember_objectOf hobject
  have hdevidText := hmember (ascii "devid") _ .number (by decide) rfl
  have hpayloadText := hmember (ascii "payload") _ .string (by decide) rfl
  have hlength : (hexDigits bytes).length / 2 = bytes.length := by
    rw [hexDigits_length]
    omega
  have hvalue := valueInt_intDecimal hdevid
  simp only [rawText, rawEventCallback, hparse, hdevidText, hpayloadText, hrawData,
    Option.bind_eq_bind, Option.bind_some, Doc.type, Doc.contents, Doc.render, Token.render,
    Token.type, if_true, hlength, hvalue, Bool.not_true, Bool.false_eq_true, if_false]
  rcases htype with rfl | rfl
  · exact congrArg (fun raw => some (devid, raw)) (liteHexstrConvert_hexDigits (by simp))
  · exact congrArg (fun raw => some (devid, raw)) (liteHexstrConvert_hexDigits (by simp))

/-! ## The queue -/

section Queue

variable [DecidableEq ι] {capacity : Nat} {ipc : DmIpc ι DmIpcMsg}
  {queue : BoundedQueue DmIpcMsg capacity} {nodes : List ι}

/-- The dispatcher takes out what waits, in order. -/
theorem dispatched_of_holds (hholds : Holds ipc queue nodes) :
    dispatched queue.items.length ipc = queue.items := by
  induction hitems : queue.items generalizing ipc queue nodes with
  | nil => rfl
  | cons message rest ih =>
      rcases hholds.next_cases (some none) with
        ⟨-, -, hempty⟩ | ⟨first, later, node, others, hsplit, -, -, -, hout, hafter⟩
      · exact absurd (hempty rfl) (hitems ▸ List.cons_ne_nil message rest)
      · obtain ⟨rfl, rfl⟩ := List.cons_eq_cons.mp (hitems.symm.trans hsplit)
        rw [List.length_cons, dispatched]
        generalize dmIpcMsgNext ipc (some none) = result at hout hafter
        obtain ⟨code, out, after⟩ := result
        obtain rfl : out = some (some message) := hout
        exact congrArg (message :: ·) (ih hafter rfl)

/-- With memory and room in the queue an event is queued behind what waits. -/
theorem dmMsgSendToUser_holds (hholds : Holds ipc queue nodes)
    (hroom : queue.items.length < capacity) {allocator : HeapAllocator ι} {moment : Nat}
    (hmalloc : (allocator.malloc moment ipc.inUse).isSome = true) (type : IotxDmEventType)
    (message : List UInt8) :
    ∃ later, Holds (dmMsgSendToUser allocator ipc type message true moment).2
      (queue.push ⟨type, message⟩ hroom) later := by
  obtain ⟨node, hnode⟩ := Option.isSome_iff_exists.mp hmalloc
  have hsize : ¬ipc.size ≥ ipc.maxSize := by
    have hlength := hholds.length_eq
    rw [hholds.size, hholds.maxSize]
    omega
  have hsuccess : (dmIpcMsgInsert allocator ipc (some ⟨type, message⟩) moment).1 =
      successReturn := by
    rw [dmIpcMsgInsert, if_neg hsize, hnode]
  rw [dmMsgSendToUser, if_neg (by decide)]
  rcases hholds.insert_cases allocator (some ⟨type, message⟩) moment with
    ⟨hfailed, -⟩ | ⟨inserted, later, _, hsame, -, hafter⟩
  · exact absurd hsuccess hfailed
  · cases hsame
    exact ⟨_, hafter⟩

end Queue

/-! ## From the topic to the user -/

/-- The name of the service whose topic brings the event. -/
def rawService : IotxDmEventType → Option CString
  | .modelDownRaw => some ⟨ascii "thing/model/down_raw", by decide⟩
  | .modelUpRawReply => some ⟨ascii "thing/model/up_raw_reply", by decide⟩
  | .other _ => none

/-- All allocations of the way succeed. -/
def RawMallocs.plentiful : RawMallocs := ⟨true, true, true, true⟩

/-- The message on a raw topic waits behind those that waited before, and the user gets the device
id and the payload when it is dispatched. -/
def ArrivesAsSent [DecidableEq ι] (allocator : HeapAllocator ι) (type : IotxDmEventType)
    (ctx : DmMgrCtx) (uri payload : List UInt8) (ipc : DmIpc ι DmIpcMsg) (moment : Nat)
    (waiting : List DmIpcMsg) (devid : Int) : Prop :=
  ∃ message,
    dispatched (waiting.length + 1)
        (procRaw allocator type ctx uri payload .plentiful ipc moment) =
      waiting ++ [⟨type, message⟩] ∧
    ∀ stale, rawEventCallback type message .plentiful stale = some (devid, payload)

/-- Raw data arrives as it was sent. The keys are those of a device in the list, which are within
the limits, and each is one level of the topic. -/
theorem arrivesAsSent [DecidableEq ι] (allocator : HeapAllocator ι) {capacity : Nat}
    {ipc : DmIpc ι DmIpcMsg} {queue : BoundedQueue DmIpcMsg capacity} {nodes : List ι}
    (hholds : Holds ipc queue nodes) (hroom : queue.items.length < capacity) {moment : Nat}
    (hmalloc : (allocator.malloc moment ipc.inUse).isSome = true)
    {type : IotxDmEventType} {service : CString} (hservice : rawService type = some service)
    {ctx : DmMgrCtx} {productKey deviceKey : CString} {node : DmMgrDevNode}
    (hknown : dmMgrSearchDevByPkdk ctx productKey deviceKey = some node)
    (hdevid : IsInt node.devid)
    (hproduct : productKey.strlen ≤ iotxProductKeyLen)
    (hdevice : deviceKey.strlen ≤ iotxDeviceKeyLen)
    (hproductSlash : dmUriServiceDelimiter ∉ productKey.bytes)
    (hdeviceSlash : dmUriServiceDelimiter ∉ deviceKey.bytes)
    {payload : List UInt8} (hpayload : payload ≠ []) :
    ArrivesAsSent allocator type ctx (UriPrefix.sys.topic productKey deviceKey service) payload
      ipc moment queue.items node.devid := by
  have htype : type = .modelDownRaw ∨ type = .modelUpRawReply := by
    cases type with
    | modelDownRaw => exact Or.inl rfl
    | modelUpRawReply => exact Or.inr rfl
    | other number => cases hservice
  have hname : service.bytes ≠ [] := by
    rcases htype with rfl | rfl <;>
    · cases hservice
      decide
  have hkeys := (hasKeys_topic productKey deviceKey service hproductSlash hdeviceSlash
    hname).uriKeys_of_fits (Nat.le_succ_of_le hproduct) (Nat.le_succ_of_le hdevice)
  have hmessage : rawMessage ctx (padded (iotxProductKeyLen + 1) productKey.bytes)
      (padded (iotxDeviceKeyLen + 1) deviceKey.bytes) payload .plentiful =
        some (rawText node.devid payload) := by
    have hvalid : ¬(iotxProductKeyLen + 1 ≤
          arrayStrlen (padded (iotxProductKeyLen + 1) productKey.bytes) ∨
        iotxDeviceKeyLen + 1 ≤ arrayStrlen (padded (iotxDeviceKeyLen + 1) deviceKey.bytes) ∨
        payload = []) := by
      rw [arrayStrlen, arrayStrlen, arrayText_padded productKey.noNul,
        arrayText_padded deviceKey.noNul]
      rintro (hlong | hlong | hnil)
      · exact Nat.not_succ_le_self _ (hlong.trans hproduct)
      · exact Nat.not_succ_le_self _ (hlong.trans hdevice)
      · exact hpayload hnil
    have hhexstr : dmUtilsHexToStr payload true = some (hexDigits payload) := by
      rw [dmUtilsHexToStr, if_neg (by simpa using hpayload), hexDigits]
    rw [rawMessage, if_neg hvalid, CString.ofArray_padded, CString.ofArray_padded, hknown]
    simp only [Option.bind_eq_bind, Option.bind_some, RawMallocs.plentiful, hhexstr, if_true]
    exact congrArg some (halSnprintf_modelDownFormat hdevid payload)
  obtain ⟨later, hafter⟩ := dmMsgSendToUser_holds hholds hroom hmalloc type
    (rawText node.devid payload)
  refine ⟨rawText node.devid payload, ?_,
    rawEventCallback_rawText hdevid payload htype rfl⟩
  have hdispatched := dispatched_of_holds hafter
  rw [BoundedQueue.push, List.length_append, List.length_singleton] at hdispatched
  rw [procRaw, hkeys]
  dsimp only
  rw [hmessage]
  exact hdispatched

/-- Two bytes to the gateway, through an empty queue. -/
theorem arrivesAsSent_gateway :
    ArrivesAsSent CommandList.countingAllocator .modelDownRaw gatewayAlone
      (ascii "/sys/p/g/thing/model/down_raw") [0, 255]
      (dmIpcInit 50 0 ⟨id, id⟩ fun _ => ⟨.other 0, []⟩) 0 [] 0 := by
  have hservice : rawService .modelDownRaw = some ⟨ascii "thing/model/down_raw", by decide⟩ := by
    decide
  have hknown : dmMgrSearchDevByPkdk gatewayAlone ⟨[112], by decide⟩ ⟨[103], by decide⟩ =
      some (gatewayAlone.devList.head (by decide)) := by decide
  exact arrivesAsSent CommandList.countingAllocator
    (holds_dmIpcInit 50 0 ⟨id, id⟩ fun _ => (⟨.other 0, []⟩ : DmIpcMsg)) (by decide) (by decide)
    hservice hknown (by decide) (by decide) (by decide) (by decide) (by decide) (by decide)

end EnosDeviceSdk.DevModel.RawData
