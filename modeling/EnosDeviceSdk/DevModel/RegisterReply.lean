/-
# The reply to a registration of sub-devices

`dm_msg_thing_device_register_reply` goes through the devices in the data of the reply. For each
it creates a device, sets its status and its secret and reports it to the user. A device that is
in the list already is not created, and the loop goes on with the next entry.

The arrays for the keys are cleared in every turn and the one for the secret is not, so that a
secret is followed by the end of a longer one that was copied before it. The reply does what it is
for exactly when every device is new and no secret is shorter than one before it, as long as there
is memory, room in the queue and an id for every device.
-/

import EnosDeviceSdk.DevModel.GatewayReply

namespace EnosDeviceSdk.DevModel

open EnosDeviceSdk.Infra EnosDeviceSdk.Library

/-- The credentials of a device, within the limits of the manager. -/
structure Credentials where
  productKey : CString
  deviceKey : CString
  deviceSecret : CString
  productKey_le : productKey.strlen ≤ iotxProductKeyLen
  deviceKey_le : deviceKey.strlen ≤ iotxDeviceKeyLen
  deviceSecret_le : deviceSecret.strlen ≤ iotxDeviceSecretLen

/-- The key pair of the device. -/
def Credentials.pair (entry : Credentials) : List UInt8 × List UInt8 :=
  (entry.productKey.bytes, entry.deviceKey.bytes)

/-- `dm_mgr_set_device_secret` -/
def dmMgrSetDeviceSecret (ctx : DmMgrCtx) (devid : Int) (deviceSecret : CString) :
    Int × DmMgrCtx :=
  if devid < 0 ∨ deviceSecret.strlen ≥ iotxDeviceSecretLen + 1 then (stateUserInputInvalid, ctx)
  else
    match dmMgrSearchDevByDevid ctx devid with
    | none => (stateDevModelDeviceNotFound, ctx)
    | some _ =>
        (successReturn,
          { ctx with
            devList := writeFirst DmMgrDevNode.devid devid
              (fun node =>
                { node with deviceSecret := deviceSecret.stored (iotxDeviceSecretLen + 1) })
              ctx.devList })

/-- The three strings of the object at an index of the array. -/
def credentialsAt (src : List UInt8) (lite : LiteCjson) (index : Nat) :
    Option (List UInt8 × List UInt8 × List UInt8) := do
  let item ← jsonArrayItem src lite index
  if item.type = .object then
    let productKey ← jsonMember src item (ascii "productKey") .string
    let deviceKey ← jsonMember src item (ascii "deviceKey") .string
    let deviceSecret ← jsonMember src item (ascii "deviceSecret") .string
    return (productKey, deviceKey, deviceSecret)
  else none

/-- What surrounds a run of the handler: the item that the parser is to fill, the bytes behind the
buffer for the id, and for every index whether there is memory for a device, and memory and room
in the queue for its message. -/
structure RegisterSurroundings where
  lite : LiteCjson
  stack : List UInt8
  createOk : Nat → Bool
  queued : Nat → Bool

/-- The state of the loop: the manager, the array for the secret, and the messages sent. -/
structure RegisterState where
  ctx : DmMgrCtx
  deviceSecret : List UInt8
  sent : List ReplyMessage

variable (response : DmMsgResponsePayload) (surroundings : RegisterSurroundings)

/-- The message for a device. There is none if the id runs over its buffer. -/
def registerMessage (devid : Int) (queued : Bool) : Option (List ReplyMessage) := do
  let tempId ← copyInto (padded dmUtilsUint32Strlen []) response.id
  return (replyMessage .subdevRegisterReply
    (replyFormat (atoi (tempId ++ surroundings.stack)) response.code devid)
    (dmUtilsUint32Strlen * 2) queued).toList

/-- A turn of the loop from the creation of the device on. -/
def registerDevice (state : RegisterState) (productKey deviceKey : List UInt8) (index : Nat) :
    Option RegisterState :=
  let (res, devid, ctx) := dmMgrDeviceCreate state.ctx
    { devType := iotxDmDeviceSubdev
      productKey := some (.ofArray productKey)
      productSecret := some .empty
      deviceKey := some (.ofArray deviceKey)
      deviceSecret := some (.ofArray state.deviceSecret) }
    (surroundings.createOk index)
  if res ≠ successReturn then some { state with ctx := ctx }
  else
    let devid := devid.getD 0
    let ctx := updateStatus ctx response.code devid .registered
    let (res, ctx) := dmMgrSetDeviceSecret ctx devid (.ofArray state.deviceSecret)
    if res ≠ successReturn then some { state with ctx := ctx }
    else do
      let messages ←
        registerMessage response surroundings devid (surroundings.queued index)
      return { state with ctx := ctx, sent := state.sent ++ messages }

/-- A turn of the loop. There is no result if a string runs over its array. -/
def registerItem (src : List UInt8) (lite : LiteCjson) (state : RegisterState) (index : Nat) :
    Option RegisterState :=
  match credentialsAt src lite index with
  | none => some state
  | some (productKey, deviceKey, deviceSecret) => do
      let productKey ← copyInto (padded (iotxProductKeyLen + 1) []) productKey
      let deviceKey ← copyInto (padded (iotxDeviceKeyLen + 1) []) deviceKey
      let deviceSecret ← copyInto state.deviceSecret deviceSecret
      registerDevice response surroundings { state with deviceSecret := deviceSecret }
        productKey deviceKey index

/-- The loop over the indices of the array. -/
def registerLoop (src : List UInt8) (lite : LiteCjson) :
    List Nat → RegisterState → Option RegisterState
  | [], state => some state
  | index :: rest, state =>
      (registerItem response surroundings src lite state index).bind (registerLoop src lite rest)

/-- `dm_msg_thing_device_register_reply`: the manager after it and the messages that it sends. -/
def dmMsgThingDeviceRegisterReply (ctx : DmMgrCtx) : Option (DmMgrCtx × List ReplyMessage) :=
  if response.code ≠ iotxDmErrCodeSuccess then
    (registerMessage response surroundings 0 (surroundings.queued 0)).map (ctx, ·)
  else
    match (liteCjsonParse response.data surroundings.lite).toOption with
    | none => some (ctx, [])
    | some lite =>
        if lite.type ≠ .array then some (ctx, [])
        else
          (registerLoop response surroundings response.data lite (List.range lite.size.toNat)
            ⟨ctx, padded (iotxDeviceSecretLen + 1) [], []⟩).map
              fun state => (state.ctx, state.sent)

/-! ## What a reply is to do -/

/-- The device is in the list, registered, with the secret of its entry. -/
def IsRegistered (ctx : DmMgrCtx) (entry : Credentials) : Prop :=
  ∃ node ∈ ctx.devList, node.pair = entry.pair ∧ node.devStatus = .registered ∧
    arrayText node.deviceSecret = entry.deviceSecret.bytes

/-- The message is a successful register reply with the id of the device. -/
def Reports (ctx : DmMgrCtx) (entry : Credentials) (message : ReplyMessage) : Prop :=
  ∃ node ∈ ctx.devList, node.pair = entry.pair ∧ ∃ id,
    message = ⟨.subdevRegisterReply, formatText (replyFormat id iotxDmErrCodeSuccess node.devid)⟩

/-- Every device is registered, and there is one message for each. -/
def RegistersAll (entries : List Credentials)
    (result : Option (DmMgrCtx × List ReplyMessage)) : Prop :=
  ∃ ctx messages, result = some (ctx, messages) ∧ (∀ entry ∈ entries, IsRegistered ctx entry) ∧
    List.Forall₂ (Reports ctx) entries messages

/-- The object has the three strings of the entry. -/
def Credentials.SpelledBy (entry : Credentials) (doc : Doc) : Prop :=
  doc.field (ascii "productKey") = some (.scalar (.string entry.productKey.bytes)) ∧
    doc.field (ascii "deviceKey") = some (.scalar (.string entry.deviceKey.bytes)) ∧
    doc.field (ascii "deviceSecret") = some (.scalar (.string entry.deviceSecret.bytes))

/-- The data is an array of objects that have the strings of the entries. -/
def Lists (data : List UInt8) (entries : List Credentials) : Prop :=
  ∃ blank elements, data = (Doc.nest .array blank elements).render ∧
    (Doc.nest .array blank elements).WellFormed liteCjsonNestingLimit ∧
    List.Forall₂ (fun (element : Frame × Doc) entry => entry.SpelledBy element.2) elements entries

/-- The loop gets through the entries, each with its index, from an array with this secret in it:
every device is new and no secret is shorter than one that was copied before; there are memory and
room in the queue, an unused id for each device, and room for the id of the reply. -/
structure Accommodates (ctx : DmMgrCtx) (text : CString) (turns : List (Credentials × Nat)) :
    Prop where
  new : ∀ turn ∈ turns, turn.1.pair ∉ ctx.devList.map DmMgrDevNode.pair
  once : (turns.map fun turn => turn.1.pair).Nodup
  growing : (text.strlen :: turns.map fun turn => turn.1.deviceSecret.strlen).Pairwise (· ≤ ·)
  granted : ∀ turn ∈ turns,
    surroundings.createOk turn.2 = true ∧ surroundings.queued turn.2 = true
  ids : ∀ index < turns.length, 0 ≤ ctx.globalDevid + index ∧ ctx.globalDevid + index ≤ intMax ∧
    ctx.globalDevid + index ∉ ctx.devList.map DmMgrDevNode.devid
  fits : turns ≠ [] → response.id.length ≤ dmUtilsUint32Strlen

/-! ## Reading the data -/

/-- The strings of an entry as the loop reads them. -/
def Credentials.texts (entry : Credentials) : List UInt8 × List UInt8 × List UInt8 :=
  (entry.productKey.bytes, entry.deviceKey.bytes, entry.deviceSecret.bytes)

/-- The loop reads the entries of the data. -/
theorem Lists.read {data : List UInt8} {entries : List Credentials} (hlists : Lists data entries)
    (start : LiteCjson) :
    ∃ lite, (liteCjsonParse data start).toOption = some lite ∧ lite.type = .array ∧
      lite.size.toNat = entries.length ∧
      ∀ turn ∈ entries.zipIdx, credentialsAt data lite turn.2 = some turn.1.texts := by
  obtain ⟨blank, elements, rfl, hdoc, hspelled⟩ := hlists
  obtain ⟨lite, hparse, hdenotes, _⟩ := document_recovered start blank_nil blank_nil hdoc
  rw [List.nil_append, List.append_nil] at hparse
  have hitem : Represents (Doc.nest .array blank elements).render lite
      (.nest .array blank elements) [] := ⟨List.prefix_rfl, hdenotes⟩
  have hsize := hdenotes.size _ _ _ rfl
  have hcount := hspelled.length_eq
  refine ⟨lite, by rw [hparse, Outcome.toOption_ok], hdenotes.type, by omega, ?_⟩
  cases hdoc with
  | nest _ hframes hvalues =>
      rintro ⟨entry, index⟩ hturn
      obtain ⟨hindex, hentry⟩ := List.mem_zipIdx' hturn
      dsimp only at hindex hentry ⊢
      rw [hentry]
      have helement : index < elements.length := by omega
      have hdeep : ∀ element ∈ elements, element.2.WellFormed liteCjsonNestingLimit :=
        fun element hmem => (hvalues element hmem).mono (Nat.le_succ _)
      obtain ⟨item, ahead, hfound, hrepresents⟩ :=
        jsonArrayItem_found hitem hframes hdeep index helement
      obtain ⟨hproductKey, hdeviceKey, hdeviceSecret⟩ := hspelled.get helement hindex
      have helementDoc := hdeep _ (List.getElem_mem helement)
      have htype := hrepresents.denotes.type.trans (Doc.type_of_field hproductKey)
      have hread : ∀ {key body : List UInt8}, key ≠ [] →
          elements[index].2.field key = some (.scalar (.string body)) →
          jsonMember (Doc.nest .array blank elements).render item key .string = some body := by
        intro key body hsome hfield
        rw [jsonMember_field hrepresents helementDoc hsome hfield]
        rfl
      simp only [credentialsAt, hfound, Option.bind_eq_bind, Option.bind_some, htype, if_true,
        hread (by decide) hproductKey, hread (by decide) hdeviceKey,
        hread (by decide) hdeviceSecret]
      rfl

/-! ## One turn -/

/-- The node that is linked for an entry. -/
def Credentials.node (entry : Credentials) (devid : Int) (secret : CString)
    (devStatus : DevStatus) : DmMgrDevNode where
  devid := devid
  devType := iotxDmDeviceSubdev
  productKey := entry.productKey.stored (iotxProductKeyLen + 1)
  productSecret := List.replicate (iotxProductSecretLen + 1) 0
  deviceKey := entry.deviceKey.stored (iotxDeviceKeyLen + 1)
  deviceSecret := secret.stored (iotxDeviceSecretLen + 1)
  status := .enable
  devStatus := devStatus

theorem Credentials.node_devid (entry : Credentials) (devid : Int) (secret : CString)
    (devStatus : DevStatus) : (entry.node devid secret devStatus).devid = devid := rfl

theorem Credentials.node_pair (entry : Credentials) (devid : Int) (secret : CString)
    (devStatus : DevStatus) : (entry.node devid secret devStatus).pair = entry.pair := by
  rw [DmMgrDevNode.pair, Credentials.pair, node, CString.arrayText_stored,
    CString.arrayText_stored]

/-- Creation for an entry depends on the search and on memory only. -/
theorem dmMgrDeviceCreate_entry (ctx : DmMgrCtx) (entry : Credentials) {secret : CString}
    (hsecret : secret.strlen ≤ iotxDeviceSecretLen) (mallocOk : Bool) :
    dmMgrDeviceCreate ctx
        { devType := iotxDmDeviceSubdev
          productKey := some entry.productKey
          productSecret := some .empty
          deviceKey := some entry.deviceKey
          deviceSecret := some secret } mallocOk =
      match dmMgrSearchDevByPkdk ctx entry.productKey entry.deviceKey with
      | some node => (stateDevModelDeviceAlreadyExist, some node.devid, ctx)
      | none =>
          if mallocOk then
            (successReturn, some ctx.globalDevid,
              ⟨intSucc ctx.globalDevid,
                ctx.devList ++ [entry.node ctx.globalDevid secret .authorized]⟩)
          else (stateSysDependMalloc, none, ctx) := by
  have hproductKey := entry.productKey_le
  have hdeviceKey := entry.deviceKey_le
  have hempty : CString.empty.strlen = 0 := rfl
  have hkeys : ¬(entry.productKey.strlen ≥ iotxProductKeyLen + 1 ∨
      CString.empty.strlen ≥ iotxProductSecretLen + 1 ∨
      entry.deviceKey.strlen ≥ iotxDeviceKeyLen + 1) := by
    omega
  have hlong : ¬secret.strlen ≥ iotxDeviceSecretLen + 1 := by omega
  simp only [dmMgrDeviceCreate, hkeys, if_false, Option.any_some, hlong, decide_false,
    Bool.false_eq_true]
  cases dmMgrSearchDevByPkdk ctx entry.productKey entry.deviceKey with
  | some node => rfl
  | none => cases mallocOk <;> rfl

/-- The manager after a turn that has created the device: the status and the secret are written to
the first node with the new id. -/
def registeredCtx (ctx : DmMgrCtx) (entry : Credentials) (secret : CString) : DmMgrCtx where
  globalDevid := intSucc ctx.globalDevid
  devList := writeFirst DmMgrDevNode.devid ctx.globalDevid
    (fun node => { node with deviceSecret := secret.stored (iotxDeviceSecretLen + 1) })
    (writeFirst DmMgrDevNode.devid ctx.globalDevid
      (fun node => { node with devStatus := .registered })
      (ctx.devList ++ [entry.node ctx.globalDevid secret .authorized]))

/-- The two writes that follow a creation. -/
theorem registered_writes (ctx : DmMgrCtx) (entry : Credentials) {secret : CString}
    (hsecret : secret.strlen ≤ iotxDeviceSecretLen) (hvalid : 0 ≤ ctx.globalDevid) :
    dmMgrSetDeviceSecret
        (updateStatus
          ⟨intSucc ctx.globalDevid,
            ctx.devList ++ [entry.node ctx.globalDevid secret .authorized]⟩
          iotxDmErrCodeSuccess ctx.globalDevid .registered) ctx.globalDevid secret =
      (successReturn, registeredCtx ctx entry secret) := by
  have hnonnegative : ¬ctx.globalDevid < 0 := by omega
  have hlong : ¬secret.strlen ≥ iotxDeviceSecretLen + 1 := by omega
  have hkeeps : ∀ node : DmMgrDevNode,
      ({ node with devStatus := .registered } : DmMgrDevNode).devid = node.devid := fun _ => rfl
  have hfound : ∃ node, (writeFirst DmMgrDevNode.devid ctx.globalDevid
      (fun node => { node with devStatus := .registered })
      (ctx.devList ++ [entry.node ctx.globalDevid secret .authorized])).find?
        (fun node => node.devid = ctx.globalDevid) = some node := by
    rw [← Option.ne_none_iff_exists', Ne, find?_key_eq_none_iff, map_writeFirst hkeeps]
    simp [Credentials.node]
  obtain ⟨node, hnode⟩ := hfound
  simp only [updateStatus, if_true, dmMgrSetDevStatus, hnonnegative, if_false,
    dmMgrSetDeviceSecret, hlong, or_self, dmMgrSearchDevByDevid, hnode, registeredCtx]

/-- The message that reports a device. -/
def announcement (devid : Int) : ReplyMessage where
  event := .subdevRegisterReply
  payload := formatText (replyFormat
    (atoi (padded dmUtilsUint32Strlen response.id ++ surroundings.stack)) iotxDmErrCodeSuccess
    devid)

/-- The buffer of the message holds it. -/
theorem registerMessage_of_fits (hcode : response.code = iotxDmErrCodeSuccess)
    (hfits : response.id.length ≤ dmUtilsUint32Strlen) {devid : Int} (hdevid : IsInt devid)
    (queued : Bool) :
    registerMessage response surroundings devid queued =
      some (if queued then [announcement response surroundings devid] else []) := by
  have hid := (length_intDecimal_le (isInt_atoi
    (padded dmUtilsUint32Strlen response.id ++ surroundings.stack))).2
  have hdevidText := (length_intDecimal_le hdevid).2
  have hcodeText : (intDecimal iotxDmErrCodeSuccess).length = 3 := by decide
  have hextra : dmUtilsUint32Strlen * 2 + 6 = 26 := rfl
  simp only [registerMessage, copyInto_zeros hfits, Option.bind_eq_bind, Option.bind_some, hcode]
  cases queued with
  | false => rfl
  | true =>
      rw [replyMessage_of_fits _ (by omega)]
      rfl

/-- The turn for an entry comes to its message. -/
structure Proceeds (ctx : DmMgrCtx) (turn : Credentials × Nat) : Prop where
  new : turn.1.pair ∉ ctx.devList.map DmMgrDevNode.pair
  created : surroundings.createOk turn.2 = true
  id_valid : 0 ≤ ctx.globalDevid
  fits : response.id.length ≤ dmUtilsUint32Strlen
  queued : surroundings.queued turn.2 = true

/-- A turn for an entry registers the device and reports it, or it sends nothing. -/
theorem registerItem_cases (hcode : response.code = iotxDmErrCodeSuccess) {src : List UInt8}
    {lite : LiteCjson} {state : RegisterState} {turn : Credentials × Nat} {text : CString}
    (hread : credentialsAt src lite turn.2 = some turn.1.texts)
    (hsecret : state.deviceSecret = text.stored (iotxDeviceSecretLen + 1))
    (htext : text.strlen ≤ iotxDeviceSecretLen) (hint : state.ctx.globalDevid ≤ intMax) :
    (Proceeds response surroundings state.ctx turn ∧
        registerItem response surroundings src lite state turn.2 =
          some ⟨registeredCtx state.ctx turn.1 (turn.1.deviceSecret.over text),
            (turn.1.deviceSecret.over text).stored (iotxDeviceSecretLen + 1),
            state.sent ++ [announcement response surroundings state.ctx.globalDevid]⟩) ∨
      ¬Proceeds response surroundings state.ctx turn ∧
        ∀ next, registerItem response surroundings src lite state turn.2 = some next →
          next.sent = state.sent := by
  obtain ⟨entry, index⟩ := turn
  obtain ⟨ctx, deviceSecret, sent⟩ := state
  dsimp only at hread hsecret hint ⊢
  subst hsecret
  have hsecret_le := entry.deviceSecret_le
  have hover := entry.deviceSecret.strlen_over text
  have hlength : (entry.deviceSecret.over text).strlen ≤ iotxDeviceSecretLen := by omega
  have hproductKey : copyInto (padded (iotxProductKeyLen + 1) []) entry.productKey.bytes =
      some (padded (iotxProductKeyLen + 1) entry.productKey.bytes) :=
    copyInto_zeros (Nat.le_succ_of_le entry.productKey_le)
  have hdeviceKey : copyInto (padded (iotxDeviceKeyLen + 1) []) entry.deviceKey.bytes =
      some (padded (iotxDeviceKeyLen + 1) entry.deviceKey.bytes) :=
    copyInto_zeros (Nat.le_succ_of_le entry.deviceKey_le)
  have hcopy : copyInto (text.stored (iotxDeviceSecretLen + 1)) entry.deviceSecret.bytes =
      some (padded (iotxDeviceSecretLen + 1) (entry.deviceSecret.over text).bytes) :=
    copyInto_padded (Nat.le_succ_of_le hsecret_le) (Nat.le_succ_of_le htext)
  simp only [registerItem, hread, Credentials.texts, Option.bind_eq_bind, hproductKey, hdeviceKey,
    hcopy, Option.bind_some, registerDevice, CString.ofArray_padded,
    dmMgrDeviceCreate_entry ctx entry hlength]
  cases hsearch : dmMgrSearchDevByPkdk ctx entry.productKey entry.deviceKey with
  | some node =>
      refine Or.inr ⟨fun hproceeds => ?_, ?_⟩
      · have hnone := (search_pkdk_eq_none_iff _ _ _).mpr hproceeds.new
        exact absurd (hsearch.symm.trans hnone) (by simp)
      · rintro next hnext
        obtain rfl := Option.some.inj hnext
        rfl
  | none =>
      have hnew := (search_pkdk_eq_none_iff _ _ _).mp hsearch
      cases hcreate : surroundings.createOk index with
      | false =>
          refine Or.inr ⟨fun hproceeds => ?_, ?_⟩
          · exact absurd (hcreate.symm.trans hproceeds.created) (by simp)
          · rintro next hnext
            obtain rfl := Option.some.inj hnext
            rfl
      | true =>
          simp only [if_true, ne_eq, not_true, if_false, Option.getD_some]
          by_cases hvalid : 0 ≤ ctx.globalDevid
          · rw [hcode, registered_writes ctx entry hlength hvalid]
            simp only [not_true, if_false]
            by_cases hfits : response.id.length ≤ dmUtilsUint32Strlen
            · have hdevid : IsInt ctx.globalDevid := by
                rw [intMax] at hint
                exact ⟨by omega, by omega⟩
              rw [registerMessage_of_fits response surroundings hcode hfits hdevid]
              cases hqueued : surroundings.queued index with
              | true => exact Or.inl ⟨⟨hnew, hcreate, hvalid, hfits, hqueued⟩, rfl⟩
              | false =>
                  refine Or.inr ⟨fun hproceeds => ?_, ?_⟩
                  · exact absurd (hqueued.symm.trans hproceeds.queued) (by simp)
                  · rintro next hnext
                    obtain rfl := Option.some.inj hnext
                    simp
            · refine Or.inr ⟨fun hproceeds => absurd hproceeds.fits hfits, ?_⟩
              have hoverrun : copyInto (padded dmUtilsUint32Strlen []) response.id = none :=
                if_neg hfits
              rw [registerMessage, hoverrun]
              simp
          · refine Or.inr ⟨fun hproceeds => absurd hproceeds.id_valid hvalid, ?_⟩
            have hrefused : ∀ ctx', dmMgrSetDeviceSecret ctx' ctx.globalDevid
                (entry.deviceSecret.over text) = (stateUserInputInvalid, ctx') :=
              fun _ => if_pos (Or.inl (Int.not_le.mp hvalid))
            rw [hrefused]
            rintro next hnext
            obtain rfl := Option.some.inj hnext
            rfl

/-- A turn sends one message at the most. -/
theorem length_sent_registerItem {src : List UInt8} {lite : LiteCjson} {state next : RegisterState}
    {index : Nat}
    (hnext : registerItem response surroundings src lite state index = some next) :
    next.sent.length ≤ state.sent.length + 1 := by
  have hmessage : ∀ devid queued messages,
      registerMessage response surroundings devid queued = some messages →
        messages.length ≤ 1 := by
    intro devid queued messages hsome
    obtain ⟨tempId, _, hlist⟩ := Option.bind_eq_some_iff.mp hsome
    obtain rfl := Option.some.inj hlist
    exact Option.length_toList_le
  unfold registerItem at hnext
  split at hnext
  · obtain rfl := Option.some.inj hnext
    exact Nat.le_succ _
  · obtain ⟨productKey, _, hnext⟩ := Option.bind_eq_some_iff.mp hnext
    obtain ⟨deviceKey, _, hnext⟩ := Option.bind_eq_some_iff.mp hnext
    obtain ⟨deviceSecret, _, hnext⟩ := Option.bind_eq_some_iff.mp hnext
    simp only [registerDevice] at hnext
    split at hnext
    · obtain rfl := Option.some.inj hnext
      exact Nat.le_succ _
    · split at hnext
      · obtain rfl := Option.some.inj hnext
        exact Nat.le_succ _
      · obtain ⟨messages, hsent, hnext⟩ := Option.bind_eq_some_iff.mp hnext
        obtain rfl := Option.some.inj hnext
        have hlength := hmessage _ _ _ hsent
        rw [List.length_append]
        omega

/-- The new device is at the end of the list. It has its status and the secret exactly if no
device before it has its id. -/
theorem registeredCtx_devList (ctx : DmMgrCtx) (entry : Credentials) (secret : CString) :
    (ctx.globalDevid ∉ ctx.devList.map DmMgrDevNode.devid ∧
        (registeredCtx ctx entry secret).devList =
          ctx.devList ++ [entry.node ctx.globalDevid secret .registered]) ∨
      ctx.globalDevid ∈ ctx.devList.map DmMgrDevNode.devid ∧
        ∃ others, others.map DmMgrDevNode.pair = ctx.devList.map DmMgrDevNode.pair ∧
          (registeredCtx ctx entry secret).devList =
            others ++ [entry.node ctx.globalDevid secret .authorized] := by
  by_cases hused : ctx.globalDevid ∈ ctx.devList.map DmMgrDevNode.devid
  · have hstatus : ∀ node : DmMgrDevNode,
        ({ node with devStatus := .registered } : DmMgrDevNode).devid = node.devid := fun _ => rfl
    refine Or.inr ⟨hused, writeFirst DmMgrDevNode.devid ctx.globalDevid
      (fun node => { node with deviceSecret := secret.stored (iotxDeviceSecretLen + 1) })
      (writeFirst DmMgrDevNode.devid ctx.globalDevid
        (fun node => { node with devStatus := .registered }) ctx.devList), ?_, ?_⟩
    · rw [map_writeFirst, map_writeFirst] <;> exact fun _ => rfl
    · rw [registeredCtx, writeFirst_append_of_mem hused, writeFirst_append_of_mem]
      rwa [map_writeFirst hstatus]
  · left
    refine ⟨hused, ?_⟩
    rw [registeredCtx, writeFirst_append_of_not_mem hused, writeFirst_append_of_not_mem hused]
    simp [writeFirst, Credentials.node]

/-! ## The loop -/

/-- The loop sends one message at the most in every turn. -/
theorem length_sent_registerLoop {src : List UInt8} {lite : LiteCjson} {indices : List Nat}
    {state final : RegisterState}
    (hloop : registerLoop response surroundings src lite indices state = some final) :
    final.sent.length ≤ state.sent.length + indices.length := by
  induction indices generalizing state with
  | nil =>
      obtain rfl := Option.some.inj hloop
      exact Nat.le_refl _
  | cons index rest ih =>
      obtain ⟨next, hnext, hrest⟩ := Option.bind_eq_some_iff.mp hloop
      have hturn := length_sent_registerItem response surroundings hnext
      have hlater := ih hrest
      rw [List.length_cons]
      omega

/-- The nodes of the entries, under the ids from the counter on. -/
def registeredNodes : Int → List Credentials → List DmMgrDevNode
  | _, [] => []
  | devid, entry :: rest =>
      entry.node devid entry.deviceSecret .registered :: registeredNodes (intSucc devid) rest

/-- Every node is that of its entry. -/
theorem registeredNodes_forall₂ {devid : Int} {entries : List Credentials}
    {devList : List DmMgrDevNode}
    (hlinked : ∀ node ∈ registeredNodes devid entries, node ∈ devList) :
    List.Forall₂
      (fun entry node => node ∈ devList ∧
        ∃ devid, node = entry.node devid entry.deviceSecret .registered)
      entries (registeredNodes devid entries) := by
  induction entries generalizing devid with
  | nil => exact .nil
  | cons entry rest ih =>
      obtain ⟨hfirst, hrest⟩ := List.forall_mem_cons.mp hlinked
      exact .cons ⟨hfirst, devid, rfl⟩ (ih hrest)

theorem registeredNodes_pairs (devid : Int) (entries : List Credentials) :
    (registeredNodes devid entries).map DmMgrDevNode.pair = entries.map Credentials.pair := by
  induction entries generalizing devid with
  | nil => rfl
  | cons entry rest ih =>
      rw [registeredNodes, List.map_cons, List.map_cons, ih, Credentials.node_pair]

variable {response surroundings}

/-- What the entries after the first one need: the state that the first one leaves. -/
theorem Accommodates.cons_iff {ctx : DmMgrCtx} {text : CString} {turn : Credentials × Nat}
    {rest : List (Credentials × Nat)} (hint : ctx.globalDevid ≤ intMax) :
    Accommodates response surroundings ctx text (turn :: rest) ↔
      Proceeds response surroundings ctx turn ∧
        ctx.globalDevid ∉ ctx.devList.map DmMgrDevNode.devid ∧
        text.strlen ≤ turn.1.deviceSecret.strlen ∧
        Accommodates response surroundings
          ⟨intSucc ctx.globalDevid, ctx.devList ++
            [turn.1.node ctx.globalDevid turn.1.deviceSecret .registered]⟩
          turn.1.deviceSecret rest := by
  have hmore : ∀ index, index < rest.length ↔ index + 1 < (turn :: rest).length := by
    intro index
    rw [List.length_cons]
    omega
  constructor
  · intro haccommodates
    obtain ⟨hnew, hnews⟩ := List.forall_mem_cons.mp haccommodates.new
    obtain ⟨hfresh, honce⟩ := List.nodup_cons.mp haccommodates.once
    obtain ⟨hgranted, hgrants⟩ := List.forall_mem_cons.mp haccommodates.granted
    obtain ⟨hlonger, hgrowing⟩ := List.pairwise_cons.mp haccommodates.growing
    have hfits := haccommodates.fits (List.cons_ne_nil turn rest)
    obtain ⟨hvalid, _, hunused⟩ := haccommodates.ids 0 (Nat.succ_pos _)
    rw [Int.natCast_zero, Int.add_zero] at hvalid hunused
    refine ⟨⟨hnew, hgranted.1, hvalid, hfits, hgranted.2⟩, hunused,
      hlonger _ List.mem_cons_self, ?_, honce, hgrowing, hgrants, ?_, fun _ => hfits⟩
    · intro later hlater
      rw [List.map_append, List.mem_append, not_or, List.map_singleton, List.mem_singleton,
        Credentials.node_pair]
      exact ⟨hnews later hlater, fun hsame => hfresh (List.mem_map.mpr ⟨later, hlater, hsame⟩)⟩
    · intro index hindex
      obtain ⟨hlow, hhigh, hother⟩ := haccommodates.ids (index + 1) ((hmore index).mp hindex)
      push_cast at hlow hhigh hother
      have hsucc : intSucc ctx.globalDevid = ctx.globalDevid + 1 := if_neg (by omega)
      have hsum : ctx.globalDevid + 1 + (index : Int) = ctx.globalDevid + (index + 1) := by omega
      dsimp only
      rw [hsucc, hsum, List.map_append, List.mem_append, not_or]
      refine ⟨hlow, hhigh, hother, ?_⟩
      rw [List.map_singleton, List.mem_singleton, Credentials.node_devid]
      omega
  · rintro ⟨hproceeds, hunused, hlonger, hrest⟩
    have hothers : ∀ later ∈ rest, later.1.pair ∉ ctx.devList.map DmMgrDevNode.pair ∧
        later.1.pair ≠ turn.1.pair := by
      intro later hlater
      have hnew := hrest.new later hlater
      rwa [List.map_append, List.mem_append, not_or, List.map_singleton, List.mem_singleton,
        Credentials.node_pair] at hnew
    refine ⟨?_, ?_, ?_, ?_, ?_, fun _ => hproceeds.fits⟩
    · exact List.forall_mem_cons.mpr
        ⟨hproceeds.new, fun later hlater => (hothers later hlater).1⟩
    · refine List.nodup_cons.mpr ⟨fun hmem => ?_, hrest.once⟩
      obtain ⟨later, hlater, hsame⟩ := List.mem_map.mp hmem
      exact (hothers later hlater).2 hsame
    · refine List.pairwise_cons.mpr ⟨?_, hrest.growing⟩
      have hsecrets := (List.pairwise_cons.mp hrest.growing).1
      rw [List.map_cons, List.forall_mem_cons]
      exact ⟨hlonger, fun length hlength => hlonger.trans (hsecrets length hlength)⟩
    · exact List.forall_mem_cons.mpr ⟨⟨hproceeds.created, hproceeds.queued⟩, hrest.granted⟩
    · intro index hindex
      cases index with
      | zero =>
          rw [Int.natCast_zero, Int.add_zero]
          exact ⟨hproceeds.id_valid, hint, hunused⟩
      | succ index =>
          obtain ⟨hlow, hhigh, hother⟩ := hrest.ids index ((hmore index).mpr hindex)
          have hroom : ctx.globalDevid ≠ intMax := by
            intro hmax
            have hpositive := ((hmore index).mpr hindex)
            have hfirst := (hrest.ids 0 (by omega)).1
            dsimp only at hfirst
            rw [hmax] at hfirst
            exact absurd hfirst (by decide)
          have hsucc : intSucc ctx.globalDevid = ctx.globalDevid + 1 := if_neg hroom
          have hsum : ctx.globalDevid + 1 + (index : Int) = ctx.globalDevid + (index + 1) := by
            omega
          dsimp only at hlow hhigh hother
          rw [hsucc, hsum] at hlow hhigh hother
          rw [List.map_append, List.mem_append, not_or] at hother
          push_cast
          exact ⟨hlow, hhigh, hother.1⟩

theorem intSucc_le {value : Int} (hint : value ≤ intMax) : intSucc value ≤ intMax := by
  unfold intSucc
  split
  · decide
  · omega

/-- With an unused id the new device has its status and its secret. -/
theorem registeredCtx_of_unused {ctx : DmMgrCtx}
    (hunused : ctx.globalDevid ∉ ctx.devList.map DmMgrDevNode.devid) (entry : Credentials)
    (secret : CString) :
    registeredCtx ctx entry secret =
      ⟨intSucc ctx.globalDevid,
        ctx.devList ++ [entry.node ctx.globalDevid secret .registered]⟩ := by
  rcases registeredCtx_devList ctx entry secret with ⟨_, hlist⟩ | ⟨hused, _⟩
  · exact congrArg (DmMgrCtx.mk (intSucc ctx.globalDevid)) hlist
  · exact absurd hused hunused

theorem registeredCtx_pairs (ctx : DmMgrCtx) (entry : Credentials) (secret : CString) :
    (registeredCtx ctx entry secret).devList.map DmMgrDevNode.pair =
      ctx.devList.map DmMgrDevNode.pair ++ [entry.pair] := by
  rw [registeredCtx, map_writeFirst, map_writeFirst, List.map_append,
    List.map_singleton, Credentials.node_pair] <;> exact fun _ => rfl

/-- A device that is registered after its turn got an unused id and the secret that was in the
array. -/
theorem registered_after_turn {ctx : DmMgrCtx} {entry : Credentials} {secret : CString}
    (hnew : entry.pair ∉ ctx.devList.map DmMgrDevNode.pair) {node : DmMgrDevNode}
    (hmem : node ∈ (registeredCtx ctx entry secret).devList) (hpair : node.pair = entry.pair)
    (hstatus : node.devStatus = .registered) :
    ctx.globalDevid ∉ ctx.devList.map DmMgrDevNode.devid ∧
      node = entry.node ctx.globalDevid secret .registered := by
  rcases registeredCtx_devList ctx entry secret with ⟨hunused, hlist⟩ | ⟨_, others, hothers, hlist⟩
  · rw [hlist, List.mem_append, List.mem_singleton] at hmem
    refine ⟨hunused, hmem.resolve_left fun hold => hnew ?_⟩
    rw [← hpair]
    exact List.mem_map_of_mem hold
  · rw [hlist, List.mem_append, List.mem_singleton] at hmem
    rcases hmem with hold | rfl
    · refine absurd ?_ hnew
      rw [← hothers, ← hpair]
      exact List.mem_map_of_mem hold
    · exact absurd hstatus (by simp [Credentials.node])

/-- A loop that is accommodated links a node for every entry and reports it. -/
theorem registerLoop_of_accommodates (hcode : response.code = iotxDmErrCodeSuccess)
    {src : List UInt8} {lite : LiteCjson} {turns : List (Credentials × Nat)}
    (hread : ∀ turn ∈ turns, credentialsAt src lite turn.2 = some turn.1.texts)
    {state : RegisterState} {text : CString}
    (hsecret : state.deviceSecret = text.stored (iotxDeviceSecretLen + 1))
    (htext : text.strlen ≤ iotxDeviceSecretLen) (hint : state.ctx.globalDevid ≤ intMax)
    (haccommodates : Accommodates response surroundings state.ctx text turns) :
    ∃ final, registerLoop response surroundings src lite (turns.map Prod.snd) state = some final ∧
      final.ctx.devList = state.ctx.devList ++
        registeredNodes state.ctx.globalDevid (turns.map Prod.fst) ∧
      final.sent = state.sent ++
        (registeredNodes state.ctx.globalDevid (turns.map Prod.fst)).map
          fun node => announcement response surroundings node.devid := by
  induction turns generalizing state text with
  | nil => exact ⟨state, rfl, by simp [registeredNodes], by simp [registeredNodes]⟩
  | cons turn rest ih =>
      obtain ⟨hturn, hturns⟩ := List.forall_mem_cons.mp hread
      obtain ⟨hproceeds, hunused, hlonger, hrest⟩ :=
        (Accommodates.cons_iff hint).mp haccommodates
      have hover := (CString.over_eq_iff turn.1.deviceSecret text).mpr hlonger
      rcases registerItem_cases response surroundings hcode hturn hsecret htext hint with
        ⟨_, hitem⟩ | ⟨hstops, _⟩
      · rw [hover, registeredCtx_of_unused hunused] at hitem
        obtain ⟨final, hloop, hlist, hsent⟩ :=
          @ih hturns ⟨_, _, state.sent ++ _⟩ turn.1.deviceSecret rfl turn.1.deviceSecret_le
            (intSucc_le hint) hrest
        refine ⟨final, ?_, ?_, ?_⟩
        · rw [List.map_cons, registerLoop, hitem]
          exact hloop
        · rw [hlist, List.map_cons, registeredNodes, List.append_assoc]
          rfl
        · rw [hsent, List.map_cons, registeredNodes, List.map_cons, List.append_assoc]
          rfl
      · exact absurd hproceeds hstops

/-- A loop that sends as many messages as there are entries and registers all of them was
accommodated. -/
theorem accommodates_of_registerLoop (hcode : response.code = iotxDmErrCodeSuccess)
    {src : List UInt8} {lite : LiteCjson} {turns : List (Credentials × Nat)}
    (hread : ∀ turn ∈ turns, credentialsAt src lite turn.2 = some turn.1.texts)
    {state final : RegisterState} {text : CString}
    (hsecret : state.deviceSecret = text.stored (iotxDeviceSecretLen + 1))
    (htext : text.strlen ≤ iotxDeviceSecretLen) (hint : state.ctx.globalDevid ≤ intMax)
    (hloop : registerLoop response surroundings src lite (turns.map Prod.snd) state = some final)
    (hsent : final.sent.length = state.sent.length + turns.length)
    (hregistered : ∀ turn ∈ turns, IsRegistered final.ctx turn.1) :
    Accommodates response surroundings state.ctx text turns := by
  induction turns generalizing state text with
  | nil =>
      exact
        { new := nofun
          once := List.nodup_nil
          growing := List.pairwise_singleton _ _
          granted := nofun
          ids := nofun
          fits := fun hsome => absurd rfl hsome }
  | cons turn rest ih =>
      obtain ⟨hturn, hturns⟩ := List.forall_mem_cons.mp hread
      obtain ⟨hfirst, hothers⟩ := List.forall_mem_cons.mp hregistered
      obtain ⟨next, hnext, hrest⟩ := Option.bind_eq_some_iff.mp hloop
      have hlater := length_sent_registerLoop response surroundings hrest
      rw [List.length_map] at hlater
      rw [List.length_cons] at hsent
      have hsecret_le := turn.1.deviceSecret_le
      have hlength := turn.1.deviceSecret.strlen_over text
      rcases registerItem_cases response surroundings hcode hturn hsecret htext hint with
        ⟨hproceeds, hitem⟩ | ⟨_, hsilent⟩
      · obtain rfl := Option.some.inj (hnext.symm.trans hitem)
        have haccommodated := ih hturns rfl (by omega) (intSucc_le hint) hrest
          (by simp only [List.length_append, List.length_singleton]; omega) hothers
        obtain ⟨last, hsame, hlist, _⟩ :=
          @registerLoop_of_accommodates _ _ hcode src lite _ hturns
            ⟨registeredCtx state.ctx turn.1 (turn.1.deviceSecret.over text), _, _⟩ _ rfl
            (by omega) (intSucc_le hint) haccommodated
        obtain rfl := Option.some.inj (hrest.symm.trans hsame)
        obtain ⟨node, hnode, hpair, hstatus, hown⟩ := hfirst
        rw [hlist, List.mem_append] at hnode
        have hlinked : node ∈
            (registeredCtx state.ctx turn.1 (turn.1.deviceSecret.over text)).devList := by
          refine hnode.resolve_right fun hlate => ?_
          have hpairs : node.pair ∈ (registeredNodes _ _).map DmMgrDevNode.pair :=
            List.mem_map_of_mem hlate
          rw [registeredNodes_pairs, hpair, List.map_map] at hpairs
          obtain ⟨later, hlater, htwice⟩ := List.mem_map.mp hpairs
          apply haccommodated.new later hlater
          rw [registeredCtx_pairs, List.mem_append, List.mem_singleton]
          exact Or.inr htwice
        obtain ⟨hunused, rfl⟩ := registered_after_turn hproceeds.new hlinked hpair hstatus
        have hover : turn.1.deviceSecret.over text = turn.1.deviceSecret := by
          apply CString.ext
          rw [← hown, Credentials.node, CString.arrayText_stored]
        rw [hover, registeredCtx_of_unused hunused] at haccommodated
        exact (Accommodates.cons_iff hint).mpr
          ⟨hproceeds, hunused, (CString.over_eq_iff _ _).mp hover, haccommodated⟩
      · have hsame := hsilent next hnext
        rw [hsame] at hlater
        omega

/-! ## The reply -/

/-- A successful reply is its loop, which reads the entries one by one. -/
theorem dmMsgThingDeviceRegisterReply_eq (hcode : response.code = iotxDmErrCodeSuccess)
    {entries : List Credentials} (hlists : Lists response.data entries) (ctx : DmMgrCtx) :
    ∃ lite,
      (∀ turn ∈ entries.zipIdx,
        credentialsAt response.data lite turn.2 = some turn.1.texts) ∧
      dmMsgThingDeviceRegisterReply response surroundings ctx =
        (registerLoop response surroundings response.data lite (entries.zipIdx.map Prod.snd)
          ⟨ctx, CString.stored ⟨[], List.not_mem_nil⟩ (iotxDeviceSecretLen + 1), []⟩).map
            fun state => (state.ctx, state.sent) := by
  obtain ⟨lite, hparse, htype, hsize, hread⟩ := hlists.read surroundings.lite
  refine ⟨lite, hread, ?_⟩
  have hindices : List.range lite.size.toNat = entries.zipIdx.map Prod.snd := by
    rw [hsize, List.zipIdx_map_snd, List.range_eq_range']
  simp only [dmMsgThingDeviceRegisterReply, hcode, ne_eq, not_true, if_false, hparse, htype,
    hindices]
  rfl

/-- A reply that is accommodated registers and reports every device. -/
theorem registersAll_of_accommodates (hcode : response.code = iotxDmErrCodeSuccess)
    {entries : List Credentials} (hlists : Lists response.data entries) {ctx : DmMgrCtx}
    (hint : IsInt ctx.globalDevid)
    (haccommodates :
      Accommodates response surroundings ctx ⟨[], List.not_mem_nil⟩ entries.zipIdx) :
    RegistersAll entries (dmMsgThingDeviceRegisterReply response surroundings ctx) := by
  obtain ⟨lite, hread, hreply⟩ := @dmMsgThingDeviceRegisterReply_eq _ surroundings hcode _
    hlists ctx
  have hmax : ctx.globalDevid ≤ intMax := Int.le_sub_one_of_lt hint.2
  obtain ⟨final, hloop, hlist, hsent⟩ :=
    @registerLoop_of_accommodates _ _ hcode _ _ _ hread ⟨ctx, _, []⟩ _ rfl (Nat.zero_le _) hmax
      haccommodates
  rw [List.zipIdx_map_fst] at hlist hsent
  have hlinked : ∀ node ∈ registeredNodes ctx.globalDevid entries, node ∈ final.ctx.devList := by
    intro node hnode
    rw [hlist]
    exact List.mem_append_right _ hnode
  have hentries : List.Forall₂
      (fun entry node => IsRegistered final.ctx entry ∧
        Reports final.ctx entry (announcement response surroundings node.devid))
      entries (registeredNodes ctx.globalDevid entries) := by
    apply (registeredNodes_forall₂ hlinked).imp
    rintro entry node ⟨hnode, devid, rfl⟩
    have hpair := entry.node_pair devid entry.deviceSecret .registered
    exact ⟨⟨_, hnode, hpair, rfl, CString.arrayText_stored _ _⟩, _, hnode, hpair, _, rfl⟩
  obtain ⟨hregistered, hreports⟩ := (List.forall₂_and_left _ _).mp hentries
  refine ⟨final.ctx, final.sent, hreply.trans (congrArg (Option.map _) hloop), hregistered, ?_⟩
  rw [hsent, List.nil_append]
  exact List.forall₂_map_right_iff.mpr hreports

/-- A reply that registers and reports every device was accommodated. -/
theorem accommodates_of_registersAll (hcode : response.code = iotxDmErrCodeSuccess)
    {entries : List Credentials} (hlists : Lists response.data entries) {ctx : DmMgrCtx}
    (hint : IsInt ctx.globalDevid)
    (hregisters : RegistersAll entries (dmMsgThingDeviceRegisterReply response surroundings ctx)) :
    Accommodates response surroundings ctx ⟨[], List.not_mem_nil⟩ entries.zipIdx := by
  obtain ⟨lite, hread, hreply⟩ := @dmMsgThingDeviceRegisterReply_eq _ surroundings hcode _
    hlists ctx
  obtain ⟨after, messages, hresult, hregistered, hreports⟩ := hregisters
  obtain ⟨final, hloop, hfinal⟩ := Option.map_eq_some_iff.mp (hreply.symm.trans hresult)
  obtain ⟨rfl, rfl⟩ := Prod.mk.inj hfinal
  have hmax : ctx.globalDevid ≤ intMax := Int.le_sub_one_of_lt hint.2
  apply accommodates_of_registerLoop hcode hread rfl (Nat.zero_le _) hmax hloop
  · rw [← hreports.length_eq, List.length_zipIdx]
    simp
  · intro turn hturn
    obtain ⟨hindex, hentry⟩ := List.mem_zipIdx' hturn
    rw [hentry]
    exact hregistered _ (List.getElem_mem hindex)

/-- A successful reply registers every device that it lists and reports each, exactly when the
loop gets through its entries from the cleared array: every device is new, no secret is shorter
than one before it, and nothing is missing. -/
theorem registersAll_iff_accommodates (hcode : response.code = iotxDmErrCodeSuccess)
    {entries : List Credentials} (hlists : Lists response.data entries) {ctx : DmMgrCtx}
    (hint : IsInt ctx.globalDevid) :
    RegistersAll entries (dmMsgThingDeviceRegisterReply response surroundings ctx) ↔
      Accommodates response surroundings ctx ⟨[], List.not_mem_nil⟩ entries.zipIdx :=
  ⟨accommodates_of_registersAll hcode hlists hint, registersAll_of_accommodates hcode hlists hint⟩

/-- The object with the strings of an entry and nothing else. -/
def Credentials.object (entry : Credentials) : Doc :=
  objectOf
    [(ascii "productKey", .scalar (.string entry.productKey.bytes)),
      (ascii "deviceKey", .scalar (.string entry.deviceKey.bytes)),
      (ascii "deviceSecret", .scalar (.string entry.deviceSecret.bytes))]

/-- The data that lists the entries, without white space. -/
def registerData (entries : List Credentials) : Doc :=
  .nest .array [] (entries.map fun entry => (⟨[], none, []⟩, entry.object))

/-- The data lists the entries, if the strings need no escape. -/
theorem lists_registerData {entries : List Credentials}
    (hbodies : ∀ entry ∈ entries, StringBody entry.productKey.bytes ∧
      StringBody entry.deviceKey.bytes ∧ StringBody entry.deviceSecret.bytes) :
    Lists (registerData entries).render entries := by
  refine ⟨[], _, rfl, ?_, ?_⟩
  · have helement : (⟨[], none, []⟩ : Frame).Fits .array := elementFrame_fits blank_nil
    apply Doc.WellFormed.nest blank_nil
    · intro element hmem
      obtain ⟨entry, _, rfl⟩ := List.mem_map.mp hmem
      exact helement
    · intro element hmem
      obtain ⟨entry, hentry, rfl⟩ := List.mem_map.mp hmem
      obtain ⟨hproductKey, hdeviceKey, hdeviceSecret⟩ := hbodies entry hentry
      apply objectOf_wellFormed
      · simp only [List.forall_mem_cons, List.not_mem_nil, false_imp_iff, implies_true, and_true]
        exact ⟨stringBody_of_plain (by decide), stringBody_of_plain (by decide),
          stringBody_of_plain (by decide)⟩
      · simp only [List.forall_mem_cons, List.not_mem_nil, false_imp_iff, implies_true, and_true]
        exact ⟨.scalar hproductKey, .scalar hdeviceKey, .scalar hdeviceSecret⟩
  · apply List.forall₂_map_left_iff.mpr
    apply List.forall₂_same.mpr
    intro entry _
    exact ⟨rfl, rfl, rfl⟩

/-- Device `a` of product `p`, with the secret `s`. -/
def shortSecret : Credentials where
  productKey := ⟨ascii "p", by decide⟩
  deviceKey := ⟨ascii "a", by decide⟩
  deviceSecret := ⟨ascii "s", by decide⟩
  productKey_le := by decide
  deviceKey_le := by decide
  deviceSecret_le := by decide

/-- Device `b` of product `p`, with the secret `xyz`. -/
def longSecret : Credentials where
  productKey := ⟨ascii "p", by decide⟩
  deviceKey := ⟨ascii "b", by decide⟩
  deviceSecret := ⟨ascii "xyz", by decide⟩
  productKey_le := by decide
  deviceKey_le := by decide
  deviceSecret_le := by decide

/-- The successful reply to request 1 that lists the entries. -/
def replyListing (entries : List Credentials) : DmMsgResponsePayload :=
  ⟨ascii "1", iotxDmErrCodeSuccess, (registerData entries).render, []⟩

/-- Nothing is missing. -/
def plentiful : RegisterSurroundings := ⟨.zero, [], fun _ => true, fun _ => true⟩

/-- The strings of the two devices need no escape. -/
theorem lists_example {entries : List Credentials}
    (hentries : ∀ entry ∈ entries, entry = shortSecret ∨ entry = longSecret) :
    Lists (replyListing entries).data entries := by
  apply lists_registerData
  intro entry hentry
  rcases hentries entry hentry with rfl | rfl
  · exact ⟨stringBody_of_plain (by decide), stringBody_of_plain (by decide),
      stringBody_of_plain (by decide)⟩
  · exact ⟨stringBody_of_plain (by decide), stringBody_of_plain (by decide),
      stringBody_of_plain (by decide)⟩

/-- Two new devices, the shorter secret first. -/
theorem registersAll_growing :
    RegistersAll [shortSecret, longSecret]
      (dmMsgThingDeviceRegisterReply (replyListing [shortSecret, longSecret]) plentiful
        gatewayAlone) :=
  (registersAll_iff_accommodates rfl (lists_example (by simp)) (by decide)).mpr
    { new := by decide
      once := by decide
      growing := by decide
      granted := by decide
      ids := by decide
      fits := fun _ => by decide }

/-- With the longer secret first, the second device gets the secret `syz`. A device that is in the
list already is neither reported nor given its secret. -/
theorem not_registersAll :
    (Lists (replyListing [longSecret, shortSecret]).data [longSecret, shortSecret] ∧
        ¬RegistersAll [longSecret, shortSecret]
          (dmMsgThingDeviceRegisterReply (replyListing [longSecret, shortSecret]) plentiful
            gatewayAlone)) ∧
      Lists (replyListing [longSecret]).data [longSecret] ∧
        ¬RegistersAll [longSecret]
          (dmMsgThingDeviceRegisterReply (replyListing [longSecret]) plentiful
            (registeredCtx gatewayAlone longSecret longSecret.deviceSecret)) := by
  have hboth : Lists (replyListing [longSecret, shortSecret]).data [longSecret, shortSecret] :=
    lists_example (by simp)
  have hone : Lists (replyListing [longSecret]).data [longSecret] := lists_example (by simp)
  refine ⟨⟨hboth, fun hregisters => ?_⟩, hone, fun hregisters => ?_⟩
  · have haccommodates := accommodates_of_registersAll rfl hboth (by decide) hregisters
    exact absurd haccommodates.growing (by decide)
  · have haccommodates := accommodates_of_registersAll rfl hone (by decide) hregisters
    exact absurd haccommodates.new (by decide)

end EnosDeviceSdk.DevModel
