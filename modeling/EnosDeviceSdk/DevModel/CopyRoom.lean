/-
# Room for what the cloud sends

The handlers copy keys, secrets and ids into arrays of fixed sizes. The keys in a reply to a
login or a logout are measured before, and nothing else is: not the levels of a topic, not the
values in a combine command or in a reply to a registration, and not the id of a reply.

A copy that is longer than its array goes astray. What keeps the copies inside is what the cloud
happens to send.
-/

import EnosDeviceSdk.DevModel.Management
import EnosDeviceSdk.DevModel.RegisterReply

namespace EnosDeviceSdk.DevModel.CopyRoom

open EnosDeviceSdk.Infra EnosDeviceSdk.Library EnosDeviceSdk.DevModel.Management

/-! ## Session replies -/

/-- A key in a reply, copied into its array if it is not too long; nothing is copied otherwise. -/
def copyKey (src : List UInt8) (item : LiteCjson) (key : List UInt8) (limit : Nat) :
    Outcome (Option (List UInt8)) :=
  match jsonMember src item key .string with
  | none => .ok none
  | some bytes =>
      if bytes.length ≥ limit + 1 then .ok none
      else (copyAt (padded (limit + 1) []) 0 bytes).bind fun array => .ok (some array)

/-- The device of a reply, with the copies of its keys. -/
def copyReplyKeys (ctx : DmMgrCtx) (data : List UInt8) : Outcome (Option Int) :=
  match jsonParse data with
  | none => .ok none
  | some item => do
      let productKey ← copyKey data item (ascii "productKey") iotxProductKeyLen
      match productKey with
      | none => return none
      | some productKey => do
          let deviceKey ← copyKey data item (ascii "deviceKey") iotxDeviceKeyLen
          match deviceKey with
          | none => return none
          | some deviceKey =>
              return (dmMgrSearchDevByPkdk ctx (.ofArray productKey) (.ofArray deviceKey)).map
                DmMgrDevNode.devid

/-- `sessionReply` with its copies. -/
def sessionReplyCopies (event : ReplyEvent) (status : DevStatus) (ctx : DmMgrCtx)
    (response : DmMsgResponsePayload) (stack : List UInt8) (queued : Bool) :
    Outcome (DmMgrCtx × Option ReplyMessage) := do
  let devid ← copyReplyKeys ctx response.data
  match devid with
  | none => return (ctx, none)
  | some devid => do
      let ctx := updateStatus ctx response.code devid status
      let tempId ← copyAt (padded dmUtilsUint32Strlen []) 0 response.id
      return (ctx, replyMessage event (replyFormat (atoi (tempId ++ stack)) response.code devid)
        (dmUtilsUint32Strlen * 3) queued)

theorem copyKey_eq (src : List UInt8) (item : LiteCjson) (key : List UInt8) (limit : Nat) :
    copyKey src item key limit =
      .ok (((jsonMember src item key .string).filter fun bytes => bytes.length ≤ limit).map
        (padded (limit + 1))) := by
  rw [copyKey]
  cases jsonMember src item key .string with
  | none => rfl
  | some bytes =>
      dsimp only
      by_cases hlong : bytes.length ≥ limit + 1
      · rw [if_pos hlong, Option.filter_some, if_neg (by rw [decide_eq_true_iff]; omega)]
        rfl
      · have hroom : bytes.length ≤ limit + 1 := by omega
        rw [if_neg hlong, Option.filter_some, if_pos (by rw [decide_eq_true_iff]; omega),
          copyAt_zeros hroom]
        rfl

/-- The keys are measured before they are copied. -/
theorem copyReplyKeys_eq (ctx : DmMgrCtx) (data : List UInt8) :
    copyReplyKeys ctx data = .ok (replyDevid ctx data) := by
  rw [copyReplyKeys, replyDevid]
  cases jsonParse data with
  | none => rfl
  | some item =>
      have hmember : ∀ key limit, keyMember data item key limit =
          (((jsonMember data item key .string).filter fun bytes => bytes.length ≤ limit).map
            CString.ofArray) := by
        intro key limit
        rw [keyMember]
        cases jsonMember data item key .string with
        | none => rfl
        | some bytes =>
            simp only [Option.bind_eq_bind, Option.bind_some, Option.filter_some]
            by_cases hlong : bytes.length ≥ limit + 1
            · rw [if_pos hlong, if_neg (by rw [decide_eq_true_iff]; omega)]
              rfl
            · rw [if_neg hlong, if_pos (by rw [decide_eq_true_iff]; omega)]
              rfl
      dsimp only [Option.bind_eq_bind, Option.bind_some]
      rw [copyKey_eq, Outcome.ok_bind, subdevDevid, hmember, hmember]
      cases (jsonMember data item (ascii "productKey") .string).filter
          fun bytes => bytes.length ≤ iotxProductKeyLen with
      | none => rfl
      | some productKey =>
          dsimp only [Option.map_some, Option.bind_eq_bind, Option.bind_some]
          rw [copyKey_eq, Outcome.ok_bind]
          cases (jsonMember data item (ascii "deviceKey") .string).filter
              fun bytes => bytes.length ≤ iotxDeviceKeyLen with
          | none => rfl
          | some deviceKey =>
              dsimp only [Option.map_some, Option.bind_some]
              rw [ofArray_padded_eq, ofArray_padded_eq]
              cases dmMgrSearchDevByPkdk ctx (.ofArray productKey) (.ofArray deviceKey) <;> rfl

/-- A reply does what it does without its copies, unless its device is known and its id is too long
for its array. -/
theorem sessionReplyCopies_eq (event : ReplyEvent) (status : DevStatus) (ctx : DmMgrCtx)
    (response : DmMsgResponsePayload) (stack : List UInt8) (queued : Bool) :
    sessionReplyCopies event status ctx response stack queued =
      if (replyDevid ctx response.data).isSome ∧ dmUtilsUint32Strlen < response.id.length then
        .stray
      else .ok (sessionReply event status ctx response stack queued) := by
  rw [sessionReplyCopies, copyReplyKeys_eq, Outcome.ok_bind, sessionReply]
  cases replyDevid ctx response.data with
  | none => rfl
  | some devid =>
      dsimp only
      by_cases hlong : dmUtilsUint32Strlen < response.id.length
      · rw [copyAt_zeros_stray hlong, if_pos ⟨rfl, hlong⟩]
        rfl
      · rw [copyAt_zeros (by omega), Outcome.ok_bind, if_neg fun hboth => hlong hboth.2]
        rfl

/-! ## Registration replies -/

section Registration

variable (response : DmMsgResponsePayload) (surroundings : RegisterSurroundings)

/-- A device with the keys and the secret in these arrays is created and gets its secret. -/
def Registers (ctx : DmMgrCtx) (productKey deviceKey deviceSecret : List UInt8)
    (createOk : Bool) : Prop :=
  arrayStrlen productKey ≤ iotxProductKeyLen ∧ arrayStrlen deviceKey ≤ iotxDeviceKeyLen ∧
    arrayStrlen deviceSecret ≤ iotxDeviceSecretLen ∧
    dmMgrSearchDevByPkdk ctx (.ofArray productKey) (.ofArray deviceKey) = none ∧
    createOk = true ∧ 0 ≤ ctx.globalDevid

/-- The strings of an entry fit into their arrays, and if its device is registered, the id of the
reply fits into its own. -/
def TurnFits (data : List UInt8) (lite : LiteCjson) (state : RegisterState) (index : Nat) : Prop :=
  ∀ productKey deviceKey deviceSecret,
    credentialsAt data lite index = some (productKey, deviceKey, deviceSecret) →
      productKey.length ≤ iotxProductKeyLen + 1 ∧ deviceKey.length ≤ iotxDeviceKeyLen + 1 ∧
        deviceSecret.length ≤ iotxDeviceSecretLen + 1 ∧
        (Registers state.ctx (padded (iotxProductKeyLen + 1) productKey)
            (padded (iotxDeviceKeyLen + 1) deviceKey)
            (deviceSecret ++ state.deviceSecret.drop deviceSecret.length)
            (surroundings.createOk index) →
          response.id.length ≤ dmUtilsUint32Strlen)

theorem registerMessage_eq_none_iff (devid : Int) (queued : Bool) :
    registerMessage response surroundings devid queued = none ↔
      dmUtilsUint32Strlen < response.id.length := by
  have hlength : (padded dmUtilsUint32Strlen []).length = dmUtilsUint32Strlen := by decide
  rw [registerMessage, copyInto, hlength]
  by_cases hfits : response.id.length ≤ dmUtilsUint32Strlen
  · rw [if_pos hfits]
    exact iff_of_false (Option.some_ne_none _) (by omega)
  · rw [if_neg hfits]
    exact iff_of_true rfl (by omega)

/-- The secret is set for a device that is in the list under an id that is not negative. -/
theorem setSecret_success_iff {ctx : DmMgrCtx} {devid : Int} {secret : CString}
    (hsecret : secret.strlen ≤ iotxDeviceSecretLen)
    (hlisted : devid ∈ ctx.devList.map DmMgrDevNode.devid) :
    (dmMgrSetDeviceSecret ctx devid secret).1 = successReturn ↔ 0 ≤ devid := by
  rw [dmMgrSetDeviceSecret]
  by_cases hnegative : devid < 0
  · rw [if_pos (Or.inl hnegative)]
    exact iff_of_false (fun hsame : stateUserInputInvalid = successReturn =>
      absurd hsame (by decide)) (by omega)
  · rw [if_neg (by omega)]
    obtain ⟨node, hnode, hdevid⟩ := List.mem_map.mp hlisted
    cases hsearch : dmMgrSearchDevByDevid ctx devid with
    | none => exact absurd (List.find?_eq_none.mp hsearch node hnode) (by simpa using hdevid)
    | some found => exact iff_of_true rfl (by omega)

/-- A change of status keeps the ids of the devices. -/
theorem devids_updateStatus (ctx : DmMgrCtx) (code devid : Int) (status : DevStatus) :
    (updateStatus ctx code devid status).devList.map DmMgrDevNode.devid =
      ctx.devList.map DmMgrDevNode.devid := by
  rw [updateStatus]
  split
  · rw [dmMgrSetDevStatus]
    split
    · rfl
    · dsimp only
      rw [map_writeFirst]
      exact fun _ => rfl
  · rfl

/-- A turn is astray in the message if it registers a device and the id is too long. -/
theorem registerDevice_eq_none_iff (state : RegisterState) (productKey deviceKey : List UInt8)
    (index : Nat) :
    registerDevice response surroundings state productKey deviceKey index = none ↔
      Registers state.ctx productKey deviceKey state.deviceSecret
          (surroundings.createOk index) ∧
        dmUtilsUint32Strlen < response.id.length := by
  have haccepts : (∃ productKey' deviceKey', CreateRequest.Accepts
      { devType := iotxDmDeviceSubdev
        productKey := some (.ofArray productKey)
        productSecret := some .empty
        deviceKey := some (.ofArray deviceKey)
        deviceSecret := some (.ofArray state.deviceSecret) } productKey' deviceKey') ↔
      arrayStrlen productKey ≤ iotxProductKeyLen ∧ arrayStrlen deviceKey ≤ iotxDeviceKeyLen ∧
        arrayStrlen state.deviceSecret ≤ iotxDeviceSecretLen := by
    constructor
    · rintro ⟨_, _, ⟨⟩, ⟨⟩, hproduct, hdevice, -, hsecret⟩
      exact ⟨hproduct, hdevice, hsecret _ rfl⟩
    · rintro ⟨hproduct, hdevice, hsecret⟩
      refine ⟨_, _, rfl, rfl, hproduct, hdevice, ⟨_, rfl, Nat.zero_le _⟩, ?_⟩
      rintro _ ⟨⟩
      exact hsecret
  rw [registerDevice]
  by_cases haccepted : arrayStrlen productKey ≤ iotxProductKeyLen ∧
      arrayStrlen deviceKey ≤ iotxDeviceKeyLen ∧
      arrayStrlen state.deviceSecret ≤ iotxDeviceSecretLen
  · obtain ⟨_, _, hrequest⟩ := haccepts.mpr haccepted
    have hcreate := dmMgrDeviceCreate_of_accepts hrequest state.ctx
      (surroundings.createOk index)
    obtain ⟨⟨⟩, ⟨⟩, -⟩ := hrequest
    cases hsearch : dmMgrSearchDevByPkdk state.ctx (.ofArray productKey) (.ofArray deviceKey) with
    | some node =>
        rw [hsearch] at hcreate
        dsimp only at hcreate
        rw [hcreate]
        refine iff_of_false (Option.some_ne_none _) ?_
        rintro ⟨⟨-, -, -, hnew, -⟩, -⟩
        rw [hsearch] at hnew
        cases hnew
    | none =>
        rw [hsearch] at hcreate
        dsimp only at hcreate
        cases hok : surroundings.createOk index with
        | false =>
            rw [hok] at hcreate
            rw [if_neg Bool.false_ne_true] at hcreate
            rw [hcreate]
            refine iff_of_false (Option.some_ne_none _) ?_
            rintro ⟨⟨-, -, -, -, hgranted, -⟩, -⟩
            cases hgranted
        | true =>
            rw [hok, if_pos rfl] at hcreate
            obtain ⟨node, hdevid, -, hcreate⟩ := hcreate
            have hlisted : state.ctx.globalDevid ∈
                (updateStatus ⟨intSucc state.ctx.globalDevid, state.ctx.devList ++ [node]⟩
                  response.code state.ctx.globalDevid .registered).devList.map
                  DmMgrDevNode.devid := by
              rw [devids_updateStatus, List.map_append, List.map_singleton, hdevid]
              exact List.mem_append_right _ (List.mem_singleton.mpr rfl)
            have hset := @setSecret_success_iff _ _ (.ofArray state.deviceSecret) haccepted.2.2
              hlisted
            rw [hcreate]
            dsimp only
            rw [if_neg (not_not.mpr rfl), Option.getD_some]
            by_cases hregistered : 0 ≤ state.ctx.globalDevid
            · have hregisters : Registers state.ctx productKey deviceKey state.deviceSecret true :=
                ⟨haccepted.1, haccepted.2.1, haccepted.2.2, hsearch, rfl, hregistered⟩
              rw [if_neg (not_not.mpr (hset.mpr hregistered)),
                ← registerMessage_eq_none_iff response surroundings state.ctx.globalDevid
                  (surroundings.queued index)]
              cases registerMessage response surroundings state.ctx.globalDevid
                  (surroundings.queued index) with
              | none => exact iff_of_true rfl ⟨hregisters, rfl⟩
              | some messages =>
                  exact iff_of_false (Option.some_ne_none _) fun hboth => absurd hboth.2 (by simp)
            · rw [if_pos (mt hset.mp hregistered)]
              refine iff_of_false (Option.some_ne_none _) ?_
              rintro ⟨⟨-, -, -, -, -, hdevid⟩, -⟩
              exact hregistered hdevid
  · have hrejected := mt haccepts.mp haccepted
    rw [dmMgrDeviceCreate_of_not_accepts hrejected]
    refine iff_of_false (Option.some_ne_none _) ?_
    rintro ⟨⟨hproduct, hdevice, hsecret, -⟩, -⟩
    exact haccepted ⟨hproduct, hdevice, hsecret⟩

theorem copyInto_zeros_none {size : Nat} {bytes : List UInt8} (hlong : size < bytes.length) :
    copyInto (padded size []) bytes = none := by
  have hlength : (padded size []).length = size := by
    rw [padded, List.nil_append, List.length_replicate, List.length_nil, Nat.sub_zero]
  rw [copyInto, if_neg (by omega)]

/-- A turn keeps the size of the array for the secret. -/
theorem secretSize_registerItem {data : List UInt8} {lite : LiteCjson}
    {state next : RegisterState} {index : Nat}
    (hitem : registerItem response surroundings data lite state index = some next) :
    next.deviceSecret.length = state.deviceSecret.length := by
  rw [registerItem] at hitem
  cases hentry : credentialsAt data lite index with
  | none =>
      rw [hentry] at hitem
      cases hitem
      rfl
  | some entry =>
      rw [hentry] at hitem
      obtain ⟨productKey, -, hitem⟩ := Option.bind_eq_some_iff.mp hitem
      obtain ⟨deviceKey, -, hitem⟩ := Option.bind_eq_some_iff.mp hitem
      obtain ⟨deviceSecret, hsecret, hitem⟩ := Option.bind_eq_some_iff.mp hitem
      have hsize : deviceSecret.length = state.deviceSecret.length := by
        rw [copyInto] at hsecret
        split at hsecret
        · cases hsecret
          rw [List.length_append, List.length_drop]
          omega
        · cases hsecret
      have hkept : next.deviceSecret = deviceSecret := by
        rw [registerDevice] at hitem
        dsimp only at hitem
        split at hitem
        · cases hitem
          rfl
        · split at hitem
          · cases hitem
            rfl
          · obtain ⟨messages, -, hitem⟩ := Option.bind_eq_some_iff.mp hitem
            cases hitem
            rfl
      rw [hkept, hsize]

/-- A turn is astray if something does not fit. -/
theorem registerItem_eq_none_iff {data : List UInt8} {lite : LiteCjson} {state : RegisterState}
    (hsize : state.deviceSecret.length = iotxDeviceSecretLen + 1) (index : Nat) :
    registerItem response surroundings data lite state index = none ↔
      ¬TurnFits response surroundings data lite state index := by
  rw [registerItem, TurnFits]
  cases credentialsAt data lite index with
  | none => exact iff_of_false (Option.some_ne_none _) (not_not.mpr (by simp))
  | some entry =>
      obtain ⟨productKey, deviceKey, deviceSecret⟩ := entry
      dsimp only [Option.bind_eq_bind]
      have hentry : (∀ productKey' deviceKey' deviceSecret',
          some (productKey, deviceKey, deviceSecret) =
              some (productKey', deviceKey', deviceSecret') →
            productKey'.length ≤ iotxProductKeyLen + 1 ∧
            deviceKey'.length ≤ iotxDeviceKeyLen + 1 ∧
            deviceSecret'.length ≤ iotxDeviceSecretLen + 1 ∧
            (Registers state.ctx (padded (iotxProductKeyLen + 1) productKey')
                (padded (iotxDeviceKeyLen + 1) deviceKey')
                (deviceSecret' ++ state.deviceSecret.drop deviceSecret'.length)
                (surroundings.createOk index) →
              response.id.length ≤ dmUtilsUint32Strlen)) ↔
          productKey.length ≤ iotxProductKeyLen + 1 ∧
            deviceKey.length ≤ iotxDeviceKeyLen + 1 ∧
            deviceSecret.length ≤ iotxDeviceSecretLen + 1 ∧
            (Registers state.ctx (padded (iotxProductKeyLen + 1) productKey)
                (padded (iotxDeviceKeyLen + 1) deviceKey)
                (deviceSecret ++ state.deviceSecret.drop deviceSecret.length)
                (surroundings.createOk index) →
              response.id.length ≤ dmUtilsUint32Strlen) := by
        constructor
        · exact fun hall => hall _ _ _ rfl
        · rintro hone _ _ _ ⟨⟩
          exact hone
      rw [hentry]
      by_cases hproduct : productKey.length ≤ iotxProductKeyLen + 1
      · rw [copyInto_zeros hproduct, Option.bind_some]
        by_cases hdevice : deviceKey.length ≤ iotxDeviceKeyLen + 1
        · rw [copyInto_zeros hdevice, Option.bind_some]
          by_cases hsecret : deviceSecret.length ≤ iotxDeviceSecretLen + 1
          · rw [copyInto, hsize, if_pos hsecret, Option.bind_some, registerDevice_eq_none_iff]
            constructor
            · rintro ⟨hregisters, hlong⟩ ⟨-, -, -, hid⟩
              have hshort := hid hregisters
              omega
            · intro hunfit
              by_contra hfine
              refine hunfit ⟨hproduct, hdevice, hsecret, fun hregisters => ?_⟩
              by_contra hlong
              exact hfine ⟨hregisters, by omega⟩
          · rw [copyInto, hsize, if_neg hsecret]
            exact iff_of_true rfl fun hfits => hsecret hfits.2.2.1
        · rw [copyInto_zeros_none (by omega)]
          exact iff_of_true rfl fun hfits => hdevice hfits.2.1
      · rw [copyInto_zeros_none (by omega)]
        exact iff_of_true rfl fun hfits => hproduct hfits.1

/-- The loop stays inside its arrays exactly if every turn that it gets to does. -/
theorem registerLoop_isSome_iff {data : List UInt8} {lite : LiteCjson} {indices : List Nat}
    {state : RegisterState} (hsize : state.deviceSecret.length = iotxDeviceSecretLen + 1) :
    (registerLoop response surroundings data lite indices state).isSome = true ↔
      ∀ before index after reached, indices = before ++ index :: after →
        registerLoop response surroundings data lite before state = some reached →
        TurnFits response surroundings data lite reached index := by
  induction indices generalizing state with
  | nil =>
      refine iff_of_true rfl ?_
      intro before index after reached hsplit
      exact absurd hsplit.symm (List.append_ne_nil_of_right_ne_nil before (List.cons_ne_nil _ _))
  | cons first rest ih =>
      have hfirst := @registerItem_eq_none_iff response surroundings data lite state hsize
      rw [registerLoop]
      cases hitem : registerItem response surroundings data lite state first with
      | none =>
          refine iff_of_false Bool.false_ne_true ?_
          intro hall
          exact (hfirst first).mp hitem (hall [] first rest state rfl rfl)
      | some next =>
          have hnext := (secretSize_registerItem response surroundings hitem).trans hsize
          have hfits : TurnFits response surroundings data lite state first := by
            by_contra hunfit
            rw [(hfirst first).mpr hunfit] at hitem
            cases hitem
          rw [Option.bind_some, ih hnext]
          constructor
          · intro hall before index after reached hsplit hreached
            rcases List.cons_eq_append_iff.mp hsplit with ⟨rfl, hhead⟩ | ⟨before, rfl, hrest⟩
            · obtain ⟨rfl, -⟩ := List.cons_eq_cons.mp hhead
              cases hreached
              exact hfits
            · rw [registerLoop, hitem, Option.bind_some] at hreached
              exact hall before index after reached hrest hreached
          · intro hall before index after reached hsplit hreached
            refine hall (first :: before) index after reached ?_ ?_
            · rw [hsplit, List.cons_append]
            · rw [registerLoop, hitem, Option.bind_some, hreached]

end Registration

/-! ## All of them -/

/-- A call of one of the functions, with what it gets from the cloud and from its surroundings. -/
inductive InboundCall
  | uriParsePkdk (uri : List UInt8)
  | procCombine (operation : Operation) (ctx : DmMgrCtx) (uri : CString) (payload : List UInt8)
      (uriName : CString) (surroundings : Surroundings)
  | deviceRegisterReply (ctx : DmMgrCtx) (response : DmMsgResponsePayload)
      (surroundings : RegisterSurroundings)
  | combineLoginReply (ctx : DmMgrCtx) (response : DmMsgResponsePayload) (stack : List UInt8)
      (queued : Bool)
  | combineLogoutReply (ctx : DmMgrCtx) (response : DmMsgResponsePayload) (stack : List UInt8)
      (queued : Bool)

/-- No copy of the call exceeds its array. -/
def InboundCall.StaysInside : InboundCall → Prop
  | .uriParsePkdk uri => uriKeys uri ≠ .stray
  | .procCombine operation ctx uri payload uriName surroundings =>
      Management.procCombine operation ctx uri payload uriName surroundings ≠ .stray
  | .deviceRegisterReply ctx response surroundings =>
      (dmMsgThingDeviceRegisterReply response surroundings ctx).isSome = true
  | .combineLoginReply ctx response stack queued =>
      sessionReplyCopies .combineLoginReply .logined ctx response stack queued ≠ .stray
  | .combineLogoutReply ctx response stack queued =>
      sessionReplyCopies .combineLogoutReply .attached ctx response stack queued ≠ .stray

/-- The keys of the topic, where it has them, fit into their arrays. -/
def KeysFit (uri : List UInt8) : Prop :=
  ∀ productKey deviceKey, HasKeys uri productKey deviceKey →
    productKey.length ≤ iotxProductKeyLen + 1 ∧ deviceKey.length ≤ iotxDeviceKeyLen + 1

/-- A string in an array of this size ends in it, or right behind it. -/
def EndsInTime (size : Nat) (string behind : List UInt8) : Prop :=
  string.length < size ∨ string.length = size ∧ arrayText behind = []

/-- What the cloud sends fits. -/
def InboundCall.Fits : InboundCall → Prop
  | .uriParsePkdk uri => KeysFit uri
  | .procCombine _ _ uri payload _ surroundings =>
      (CommandChain.dmMsgRequestParse payload).isSome = true → ∀ productText deviceText,
        paramText payload (ascii "productKey") = some productText →
        paramText payload (ascii "deviceKey") = some deviceText →
          productText.length ≤ iotxProductKeyLen + 1 ∧
          deviceText.length ≤ iotxDeviceKeyLen + 1 ∧
          ∀ productKey deviceKey, HasKeys uri.bytes productKey deviceKey →
            EndsInTime (iotxProductKeyLen + 1) productKey surroundings.behindProductKey ∧
            EndsInTime (iotxDeviceKeyLen + 1) deviceKey surroundings.behindDeviceKey
  | .deviceRegisterReply ctx response surroundings =>
      if response.code ≠ iotxDmErrCodeSuccess then response.id.length ≤ dmUtilsUint32Strlen
      else ∀ lite, (liteCjsonParse response.data surroundings.lite).toOption = some lite →
        lite.type = .array → ∀ before index after reached,
          List.range lite.size.toNat = before ++ index :: after →
          registerLoop response surroundings response.data lite before
              ⟨ctx, padded (iotxDeviceSecretLen + 1) [], []⟩ = some reached →
          TurnFits response surroundings response.data lite reached index
  | .combineLoginReply ctx response _ _ | .combineLogoutReply ctx response _ _ =>
      (replyDevid ctx response.data).isSome = true → response.id.length ≤ dmUtilsUint32Strlen

theorem uriKeys_ne_stray_iff (uri : List UInt8) : uriKeys uri ≠ .stray ↔ KeysFit uri := by
  constructor
  · intro hinside productKey deviceKey hkeys
    by_contra hlong
    exact hinside (hkeys.uriKeys_stray hlong)
  · intro hfit
    by_cases hsome : ∃ productKey deviceKey, HasKeys uri productKey deviceKey
    · obtain ⟨productKey, deviceKey, hkeys⟩ := hsome
      obtain ⟨hproduct, hdevice⟩ := hfit productKey deviceKey hkeys
      rw [hkeys.uriKeys_of_fits hproduct hdevice]
      exact fun hstray => (nomatch hstray)
    · rw [uriKeys_failed fun productKey deviceKey hkeys => hsome ⟨productKey, deviceKey, hkeys⟩]
      exact fun hstray => (nomatch hstray)

/-- A string is copied by its length into an array of the same size. -/
theorem copyString_ne_stray_iff {size : Nat} {string : List UInt8} (hstring : 0 ∉ string)
    (hfits : string.length ≤ size) (behind : List UInt8) :
    (arrayText (padded size string ++ behind)).length ≤ size ↔
      EndsInTime size string behind := by
  rw [EndsInTime]
  by_cases hroom : string.length < size
  · rw [arrayText_padded_append hstring hroom]
    exact iff_of_true hfits (Or.inl hroom)
  · have hfull : string.length = size := by omega
    have hwhole : padded size string = string := by
      rw [padded, hfull, Nat.sub_self, List.replicate_zero, List.append_nil]
    rw [hwhole, arrayText_append hstring, List.length_append]
    constructor
    · intro hlength
      exact Or.inr ⟨hfull, List.eq_nil_of_length_eq_zero (by omega)⟩
    · rintro (hshort | ⟨-, hnil⟩)
      · exact absurd hshort hroom
      · rw [hnil, List.length_nil]
        omega

theorem respond_ne_stray_iff {replyPrefix : UriPrefix} {replyName : CString}
    {productKey deviceKey : List UInt8} {surroundings : Surroundings} {res : Int}
    (hproductNul : 0 ∉ productKey) (hdeviceNul : 0 ∉ deviceKey)
    (hproduct : productKey.length ≤ iotxProductKeyLen + 1)
    (hdevice : deviceKey.length ≤ iotxDeviceKeyLen + 1) :
    respond replyPrefix replyName (padded (iotxProductKeyLen + 1) productKey,
        padded (iotxDeviceKeyLen + 1) deviceKey) res surroundings ≠ .stray ↔
      EndsInTime (iotxProductKeyLen + 1) productKey surroundings.behindProductKey ∧
        EndsInTime (iotxDeviceKeyLen + 1) deviceKey surroundings.behindDeviceKey := by
  rw [← copyString_ne_stray_iff hproductNul hproduct, ← copyString_ne_stray_iff hdeviceNul hdevice,
    respond]
  dsimp only
  by_cases hfirst : (arrayText (padded (iotxProductKeyLen + 1) productKey ++
      surroundings.behindProductKey)).length ≤ iotxProductKeyLen + 1
  · rw [copyAt_zeros hfirst, Outcome.ok_bind]
    by_cases hsecond : (arrayText (padded (iotxDeviceKeyLen + 1) deviceKey ++
        surroundings.behindDeviceKey)).length ≤ iotxDeviceKeyLen + 1
    · rw [copyAt_zeros hsecond, Outcome.ok_bind]
      exact iff_of_true (by simp) ⟨hfirst, hsecond⟩
    · rw [copyAt_zeros_stray (by omega)]
      exact iff_of_false (not_not.mpr rfl) fun hboth => hsecond hboth.2
  · rw [copyAt_zeros_stray (by omega)]
    exact iff_of_false (not_not.mpr rfl) fun hboth => hfirst hboth.1

/-- The keys of a topic have no terminators in them. -/
theorem noNul_of_hasKeys {uri : CString} {productKey deviceKey : List UInt8}
    (hkeys : HasKeys uri.bytes productKey deviceKey) : 0 ∉ productKey ∧ 0 ∉ deviceKey := by
  obtain ⟨head, tail, huri, -⟩ := hkeys
  have hnoNul := uri.noNul
  simp only [huri, List.mem_append, List.mem_cons, not_or] at hnoNul
  exact ⟨hnoNul.2.2.1, hnoNul.2.2.2.2.1⟩

theorem EndsInTime.length_le {size : Nat} {string behind : List UInt8}
    (hends : EndsInTime size string behind) : string.length ≤ size := by
  rcases hends with hshort | ⟨hfull, -⟩ <;> omega

theorem procCombine_ne_stray_iff (operation : Operation) (ctx : DmMgrCtx) (uri : CString)
    (payload : List UInt8) (uriName : CString) (surroundings : Surroundings) :
    (InboundCall.procCombine operation ctx uri payload uriName surroundings).StaysInside ↔
      (InboundCall.procCombine operation ctx uri payload uriName surroundings).Fits := by
  rw [InboundCall.StaysInside, InboundCall.Fits, Management.procCombine]
  cases hrequest : CommandChain.dmMsgRequestParse payload with
  | none =>
      exact iff_of_true (by simp) fun hsome => absurd hsome (by decide)
  | some request =>
      cases hproductText : paramText payload (ascii "productKey") with
      | none =>
          exact iff_of_true (by simp) fun _ _ _ hsome => absurd hsome (by simp)
      | some productText =>
          cases hdeviceText : paramText payload (ascii "deviceKey") with
          | none =>
              exact iff_of_true (by simp)
                fun _ _ _ _ hsome => absurd hsome (by simp)
          | some deviceText =>
              dsimp only
              constructor
              · rintro hinside - _ _ ⟨⟩ ⟨⟩
                by_cases hproduct : productText.length ≤ iotxProductKeyLen + 1
                · rw [copyAt_zeros hproduct, Outcome.ok_bind] at hinside
                  by_cases hdevice : deviceText.length ≤ iotxDeviceKeyLen + 1
                  · rw [copyAt_zeros hdevice, Outcome.ok_bind] at hinside
                    refine ⟨hproduct, hdevice, fun productKey deviceKey hkeys => ?_⟩
                    obtain ⟨hproductNul, hdeviceNul⟩ := noNul_of_hasKeys hkeys
                    by_cases hfits : productKey.length ≤ iotxProductKeyLen + 1 ∧
                        deviceKey.length ≤ iotxDeviceKeyLen + 1
                    · rw [hkeys.uriKeys_of_fits hfits.1 hfits.2] at hinside
                      refine (@respond_ne_stray_iff .extSession uriName productKey deviceKey
                        surroundings successReturn hproductNul hdeviceNul hfits.1 hfits.2).mp
                        fun hstray => hinside ?_
                      dsimp only
                      rw [hstray]
                      rfl
                    · rw [hkeys.uriKeys_stray hfits] at hinside
                      exact absurd rfl hinside
                  · rw [copyAt_zeros_stray (by omega)] at hinside
                    exact absurd rfl hinside
                · rw [copyAt_zeros_stray (by omega)] at hinside
                  exact absurd rfl hinside
              · intro hfit
                obtain ⟨hproduct, hdevice, htopic⟩ := hfit rfl productText deviceText rfl rfl
                rw [copyAt_zeros hproduct, Outcome.ok_bind, copyAt_zeros hdevice,
                  Outcome.ok_bind]
                by_cases hsome : ∃ productKey deviceKey, HasKeys uri.bytes productKey deviceKey
                · obtain ⟨productKey, deviceKey, hkeys⟩ := hsome
                  obtain ⟨hproductNul, hdeviceNul⟩ := noNul_of_hasKeys hkeys
                  have hends := htopic productKey deviceKey hkeys
                  have hrespond := (@respond_ne_stray_iff .extSession uriName productKey deviceKey
                    surroundings successReturn hproductNul hdeviceNul hends.1.length_le
                    hends.2.length_le).mpr hends
                  rw [hkeys.uriKeys_of_fits hends.1.length_le hends.2.length_le]
                  dsimp only
                  revert hrespond
                  cases respond .extSession uriName
                      (padded (iotxProductKeyLen + 1) productKey,
                        padded (iotxDeviceKeyLen + 1) deviceKey) successReturn surroundings with
                  | ok response => exact fun _ => by rintro ⟨⟩
                  | failed => exact fun _ => by rintro ⟨⟩
                  | stray => exact fun hrespond => absurd rfl hrespond
                  | running => exact fun _ => by rintro ⟨⟩
                · rw [uriKeys_failed fun productKey deviceKey hkeys =>
                    hsome ⟨productKey, deviceKey, hkeys⟩]
                  simp

theorem sessionReplyCopies_ne_stray_iff (event : ReplyEvent) (status : DevStatus)
    (ctx : DmMgrCtx) (response : DmMsgResponsePayload) (stack : List UInt8) (queued : Bool) :
    sessionReplyCopies event status ctx response stack queued ≠ .stray ↔
      ((replyDevid ctx response.data).isSome = true →
        response.id.length ≤ dmUtilsUint32Strlen) := by
  rw [sessionReplyCopies_eq]
  by_cases hastray : (replyDevid ctx response.data).isSome = true ∧
      dmUtilsUint32Strlen < response.id.length
  · rw [if_pos hastray]
    refine iff_of_false (not_not.mpr rfl) fun hfits => ?_
    have hshort := hfits hastray.1
    omega
  · rw [if_neg hastray]
    refine iff_of_true (fun hstray => (nomatch hstray)) fun hknown => ?_
    by_contra hlong
    exact hastray ⟨hknown, by omega⟩

theorem deviceRegisterReply_isSome_iff (ctx : DmMgrCtx) (response : DmMsgResponsePayload)
    (surroundings : RegisterSurroundings) :
    (InboundCall.deviceRegisterReply ctx response surroundings).StaysInside ↔
      (InboundCall.deviceRegisterReply ctx response surroundings).Fits := by
  rw [InboundCall.StaysInside, InboundCall.Fits, dmMsgThingDeviceRegisterReply]
  by_cases hcode : response.code ≠ iotxDmErrCodeSuccess
  · have hmessage := registerMessage_eq_none_iff response surroundings 0 (surroundings.queued 0)
    rw [if_pos hcode, if_pos hcode, Option.isSome_map, Option.isSome_iff_ne_none, Ne, hmessage]
    exact Nat.not_lt
  · rw [if_neg hcode, if_neg hcode]
    cases hparse : (liteCjsonParse response.data surroundings.lite).toOption with
    | none => exact iff_of_true rfl fun _ hsome => absurd hsome (by simp)
    | some lite =>
        dsimp only
        by_cases harray : lite.type = .array
        · have hsize : (padded (iotxDeviceSecretLen + 1) []).length =
              iotxDeviceSecretLen + 1 := by decide
          rw [if_neg (not_not.mpr harray), Option.isSome_map,
            registerLoop_isSome_iff response surroundings hsize]
          constructor
          · rintro hall _ ⟨⟩ -
            exact hall
          · exact fun hall => hall lite rfl harray
        · rw [if_pos harray]
          refine iff_of_true rfl ?_
          rintro _ ⟨⟩ harray'
          exact absurd harray' harray

/-- No copy exceeds its array exactly if what the cloud sends fits. -/
theorem staysInside_iff (call : InboundCall) : call.StaysInside ↔ call.Fits := by
  cases call with
  | uriParsePkdk uri => exact uriKeys_ne_stray_iff uri
  | procCombine operation ctx uri payload uriName surroundings =>
      exact procCombine_ne_stray_iff operation ctx uri payload uriName surroundings
  | deviceRegisterReply ctx response surroundings =>
      exact deviceRegisterReply_isSome_iff ctx response surroundings
  | combineLoginReply ctx response stack queued =>
      exact sessionReplyCopies_ne_stray_iff _ _ ctx response stack queued
  | combineLogoutReply ctx response stack queued =>
      exact sessionReplyCopies_ne_stray_iff _ _ ctx response stack queued

/-- A level of a topic with one character more than the array of a product key has. -/
def longLevel : List UInt8 := List.replicate 22 112

/-- The keys of a topic are copied into their arrays whatever their lengths. -/
theorem not_staysInside_longLevel :
    ¬ (InboundCall.uriParsePkdk (ascii "/sys/" ++ longLevel ++ ascii "/g/x")).StaysInside := by
  rw [InboundCall.StaysInside, not_not]
  decide +kernel

end EnosDeviceSdk.DevModel.CopyRoom
