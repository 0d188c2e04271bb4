/-
# The request of a batch login

A gateway logs in a list of its devices with one request. The keys and secrets of the devices are
copied without their terminators into memory that was not cleared, and an entry for each device is
printed into a buffer whose length was counted by hand. The entries are appended to a list, and the
list is printed into the parameters.

The parameters are what they should be just if the memory happens to have a NUL behind every key
and secret, the keys can stand between quotes, and no device has keys of the greatest length both.
-/

import EnosDeviceSdk.Library.Shown
import EnosDeviceSdk.DevModel.Messages
import EnosDeviceSdk.DevModel.TextBuffer

namespace EnosDeviceSdk.DevModel.BatchLogin

open EnosDeviceSdk.Infra EnosDeviceSdk.Library
open EnosDeviceSdk.DevModel.CommandChain EnosDeviceSdk.DevModel.Messages

/-- `DM_UTILS_UINT64_STRLEN` -/
def dmUtilsUint64Strlen : Nat := 20

/-! ## Credentials -/

/-- `dm_msg_device_credential_t`: its arrays. -/
structure DeviceCredential where
  productKey : List UInt8
  deviceKey : List UInt8
  deviceSecret : List UInt8

/-- A credential in memory that `malloc` has just given out. -/
structure FreshCredential extends DeviceCredential where
  productKey_length : productKey.length = iotxProductKeyLen + 1
  deviceKey_length : deviceKey.length = iotxDeviceKeyLen + 1
  deviceSecret_length : deviceSecret.length = iotxDeviceSecretLen + 1

/-- A device of the list, with what its place in the array of credentials has in it. Its sign
source may find no memory. -/
structure Listed where
  devid : Int
  fresh : FreshCredential
  signOk : Bool

/-- `memcpy` of the strings of a node, without their terminators. -/
def copyCredential (fresh : FreshCredential) (node : DmMgrDevNode) : Outcome DeviceCredential := do
  let productKey ← copyAt fresh.productKey 0 (arrayText node.productKey)
  let deviceKey ← copyAt fresh.deviceKey 0 (arrayText node.deviceKey)
  let deviceSecret ← copyAt fresh.deviceSecret 0 (arrayText node.deviceSecret)
  return ⟨productKey, deviceKey, deviceSecret⟩

/-- The loop of `dm_mgr_upstream_combine_login_batch`. Nobody looks whether there was memory for
the array. -/
def copyCredentials (ctx : DmMgrCtx) (mallocOk : Bool) :
    List Listed → Outcome (List (DeviceCredential × Bool))
  | [] => .ok []
  | listed :: rest =>
      match dmMgrSearchDevByDevid ctx listed.devid with
      | none => .failed
      | some node =>
          if !mallocOk then .stray
          else do
            let credential ← copyCredential listed.fresh node
            let others ← copyCredentials ctx mallocOk rest
            return (credential, listed.signOk) :: others

/-! ## Entries -/

/-- `DM_MSG_COMBINE_LOGIN_BATCH_SIGN_SOURCE` -/
def signSourceFormat (clientId timestamp : List UInt8) (credential : DeviceCredential) :
    List FormatPart :=
  [.text (ascii "clientId"), .s clientId, .text (ascii "deviceKey"), .s credential.deviceKey,
    .text (ascii "productKey"), .s credential.productKey, .text (ascii "timestamp"),
    .s timestamp, .s credential.deviceSecret]

/-- The sign of a credential. `sha256` is `utils_sha256`. -/
def signStr (sha256 : List UInt8 → Vector UInt8 32) (clientId timestamp : List UInt8)
    (credential : DeviceCredential) : List UInt8 :=
  let format := signSourceFormat clientId timestamp credential
  let signSourceLen := formatStrlen format + arrayStrlen clientId +
    arrayStrlen credential.deviceKey + arrayStrlen credential.productKey +
    arrayStrlen timestamp + arrayStrlen credential.deviceSecret + 1
  infraHex2str (sha256 (halSnprintf signSourceLen format)).toList

/-- `SUB_DEVICE_PARAM_LEN` -/
def subDeviceParamLen : Nat := 15 + iotxProductKeyLen + 14 + iotxDeviceKeyLen + 9 + 65 + 4 + 1

/-- `DM_MSG_SUB_DEVICE_PARAM` -/
def subDeviceFormat (credential : DeviceCredential) (sign : List UInt8) : List FormatPart :=
  [.text (ascii "\x7b\"productKey\":\""), .s credential.productKey,
    .text (ascii "\", \"deviceKey\":\""), .s credential.deviceKey,
    .text (ascii "\", \"sign\":\""), .s sign, .text (ascii "\"\x7d")]

/-- The loop of `dm_msg_combine_login_batch`: an entry is appended for each device, with a comma
behind it unless it is the last. -/
def subDevicesLoop (sha256 : List UInt8 → Vector UInt8 32) (clientId timestamp : List UInt8) :
    List (DeviceCredential × Bool) → List UInt8 → Outcome (List UInt8)
  | [], buffer => .ok buffer
  | (credential, signOk) :: rest, buffer =>
      if arrayStrlen credential.productKey ≥ iotxProductKeyLen + 1 ∨
          arrayStrlen credential.deviceKey ≥ iotxDeviceKeyLen + 1 ∨
          arrayStrlen credential.deviceSecret ≥ iotxDeviceSecretLen + 1 ∨ !signOk then .failed
      else do
        let sign := signStr sha256 clientId timestamp credential
        let param := halSnprintf subDeviceParamLen (subDeviceFormat credential sign)
        let buffer ← appendText buffer param
        let buffer ← if rest.isEmpty then pure buffer else appendText buffer [44]
        subDevicesLoop sha256 clientId timestamp rest buffer

/-! ## The request -/

/-- The memory for the array of credentials, the list and the parameters. -/
structure BatchMemory where
  credentials : Bool
  subDevices : Bool
  params : Bool

/-- `sub_devices_param_len` as an `int`. -/
def subDevicesLen (count : Nat) : Int := (count * subDeviceParamLen + 1 : Int).bmod (2 ^ 32)

/-- The buffer of the list. It is zeroed without a look at the result of `malloc`, which finds no
room for a negative length. -/
def subDevicesBuffer (count : Nat) (mallocOk : Bool) : Outcome (List UInt8) :=
  if subDevicesLen count < 0 ∨ !mallocOk then .stray
  else .ok (padded (subDevicesLen count).toNat [])

/-- `DM_MSG_SIGN_METHOD_SHA256` -/
def dmMsgSignMethodSha256 : CString := ⟨ascii "Sha256", by decide⟩

/-- `DM_MSG_COMBINE_LOGIN_BATCH_PARAMS` -/
def batchParamsFormat (clientId timestamp subDevices : List UInt8) : List FormatPart :=
  [.text (ascii "\x7b\"clientId\":\""), .s clientId, .text (ascii "\", \"signMethod\":\""),
    .s dmMsgSignMethodSha256.bytes, .text (ascii "\", \"timestamp\":\""), .s timestamp,
    .text (ascii "\", \"subDevices\":["), .s subDevices, .text (ascii "]\x7d")]

/-- `params_len` as an `int`. -/
def paramsLen (clientId timestamp subDevices : List UInt8) : Int :=
  (formatStrlen (batchParamsFormat clientId timestamp subDevices) + clientId.length +
    dmMsgSignMethodSha256.strlen + timestamp.length + subDevices.length + 1 : Int).bmod (2 ^ 32)

/-- The time since the start in milliseconds, as it is printed. -/
def timestampText (uptime : Nat) : List UInt8 := halSnprintf dmUtilsUint64Strlen [.d uptime]

/-- `dm_msg_combine_login_batch`: the parameters. -/
def dmMsgCombineLoginBatch (sha256 : List UInt8 → Vector UInt8 32)
    (credentials : List (DeviceCredential × Bool)) (productKey deviceKey : List UInt8)
    (uptime : Nat) (memory : BatchMemory) : Outcome (List UInt8) :=
  if credentials = [] ∨ arrayStrlen productKey ≥ iotxProductKeyLen + 1 ∨
      arrayStrlen deviceKey ≥ iotxDeviceKeyLen + 1 then .failed
  else do
    let timestamp := timestampText uptime
    let clientId := halSnprintf (iotxProductKeyLen + 1) [.s productKey]
    let buffer ← subDevicesBuffer credentials.length memory.subDevices
    let buffer ← subDevicesLoop sha256 clientId timestamp credentials buffer
    let subDevices ← boundedText buffer
    let size := paramsLen clientId timestamp subDevices
    if size < 0 ∨ !memory.params then .failed
    else return halSnprintf size.toNat (batchParamsFormat clientId timestamp subDevices)

/-- `dm_mgr_upstream_combine_login_batch` up to the request that it sends. The keys are those of
the gateway. -/
def dmMgrUpstreamCombineLoginBatch (sha256 : List UInt8 → Vector UInt8 32) (ctx : DmMgrCtx)
    (productKey deviceKey : CString) (devid : Int) (subDevids : List Listed) (uptime : Nat)
    (msgid : Int) (memory : BatchMemory) : Outcome DmMsgRequest :=
  let productKey := productKey.stored (iotxProductKeyLen + 1)
  let deviceKey := deviceKey.stored (iotxDeviceKeyLen + 1)
  if devid < 0 ∨ (dmMgrSearchDevByDevid ctx devid).isNone then .failed
  else do
    let credentials ← copyCredentials ctx memory.credentials subDevids
    let params ← dmMsgCombineLoginBatch sha256 credentials productKey deviceKey uptime memory
    return {
      msgid
      servicePrefix := .extSession
      serviceName := ⟨ascii "combine/login/batch", by decide⟩
      productKey
      deviceKey
      params
      method := ⟨ascii "combine.login.batch", by decide⟩ }

/-! ## What is promised -/

/-- The keys and the secret of a device. -/
structure DeviceKeys where
  productKey : List UInt8
  deviceKey : List UInt8
  deviceSecret : List UInt8

/-- Those that a node has. -/
def keysOf (node : DmMgrDevNode) : DeviceKeys :=
  ⟨arrayText node.productKey, arrayText node.deviceKey, arrayText node.deviceSecret⟩

/-- They keep the limits. -/
structure DeviceKeys.Within (keys : DeviceKeys) : Prop where
  productKey : keys.productKey.length ≤ iotxProductKeyLen
  deviceKey : keys.deviceKey.length ≤ iotxDeviceKeyLen
  deviceSecret : keys.deviceSecret.length ≤ iotxDeviceSecretLen

/-- The keys and the secret of a device of the list, if it is known. -/
def listedKeys (ctx : DmMgrCtx) (listed : Listed) : DeviceKeys :=
  match dmMgrSearchDevByDevid ctx listed.devid with
  | some node => keysOf node
  | none => ⟨[], [], []⟩

/-- What a device signs. -/
def signSource (clientId timestamp : List UInt8) (keys : DeviceKeys) : List UInt8 :=
  ascii "clientId" ++ clientId ++ ascii "deviceKey" ++ keys.deviceKey ++ ascii "productKey" ++
    keys.productKey ++ ascii "timestamp" ++ timestamp ++ keys.deviceSecret

/-- An entry of `subDevices`. -/
structure LoginEntry where
  productKey : List UInt8
  deviceKey : List UInt8
  sign : List UInt8

/-- The entry that a device should have. -/
def DeviceKeys.entry (keys : DeviceKeys) (sha256 : List UInt8 → Vector UInt8 32)
    (clientId timestamp : List UInt8) : LoginEntry :=
  ⟨keys.productKey, keys.deviceKey,
    infraHex2str (sha256 (signSource clientId timestamp keys)).toList⟩

/-- The text of a string, as it stands between its quotes. Like the parsers of the SDK the grammar
has room for control bytes and for any escape there. -/
def stringOf : Doc → Option (List UInt8)
  | .scalar (.string body) => some body
  | _ => none

/-- The entry that an object is. -/
def entryOf (doc : Doc) : Option LoginEntry := do
  let productKey ← (doc.field (ascii "productKey")).bind stringOf
  let deviceKey ← (doc.field (ascii "deviceKey")).bind stringOf
  let sign ← (doc.field (ascii "sign")).bind stringOf
  return ⟨productKey, deviceKey, sign⟩

/-- The entries of an array. -/
def entriesOf : Doc → Option (List LoginEntry)
  | .nest .array _ entries => entries.mapM fun entry => entryOf entry.2
  | _ => none

/-- The parameters are a JSON object with the client's id, the time and these entries. Their strings
are compared with the keys byte for byte, escapes and all. -/
def LogsIn (params clientId timestamp : List UInt8) (entries : List LoginEntry) : Prop :=
  ∃ doc : Doc, doc.WellFormed liteCjsonNestingLimit ∧ doc.render = params ∧
    (doc.field (ascii "clientId")).bind stringOf = some clientId ∧
    (doc.field (ascii "timestamp")).bind stringOf = some timestamp ∧
    (doc.field (ascii "subDevices")).bind entriesOf = some entries

/-- The request has one entry for each device, in order, with the keys of the device and a sign of
its keys and its secret, however signs are computed. -/
def BuildsBatch (ctx : DmMgrCtx) (productKey deviceKey : CString) (devid : Int)
    (subDevids : List Listed) (uptime : Nat) (msgid : Int) (memory : BatchMemory) : Prop :=
  ∀ sha256 : List UInt8 → Vector UInt8 32, ∃ request,
    dmMgrUpstreamCombineLoginBatch sha256 ctx productKey deviceKey devid subDevids uptime msgid
        memory = .ok request ∧
      LogsIn request.params productKey.bytes (timestampText uptime)
        (subDevids.map fun listed =>
          (listedKeys ctx listed).entry sha256 productKey.bytes (timestampText uptime))

/-- The memory has a NUL where each of the strings ends. -/
structure Cleared (fresh : FreshCredential) (keys : DeviceKeys) : Prop where
  productKey : fresh.productKey[keys.productKey.length]? = some 0
  deviceKey : fresh.deviceKey[keys.deviceKey.length]? = some 0
  deviceSecret : fresh.deviceSecret[keys.deviceSecret.length]? = some 0

/-- The entry of a device has room for its keys, which can stand between quotes. -/
structure EntryFits (listed : Listed) (keys : DeviceKeys) : Prop where
  signOk : listed.signOk = true
  cleared : Cleared listed.fresh keys
  productKey : StringBody keys.productKey
  deviceKey : StringBody keys.deviceKey
  room : keys.productKey.length + keys.deviceKey.length ≤ 83

/-- There is memory, every entry fits, the client's id can stand between quotes, and the lengths of
the list and of the parameters do not overflow. -/
structure LoginFits (ctx : DmMgrCtx) (productKey : CString) (subDevids : List Listed)
    (uptime : Nat) (memory : BatchMemory) : Prop where
  enough : memory = ⟨true, true, true⟩
  clientId : StringBody productKey.bytes
  entries : ∀ listed ∈ subDevids, EntryFits listed (listedKeys ctx listed)
  list : subDevids.length * subDeviceParamLen + 1 < 2 ^ 31
  params : 79 + productKey.strlen + (timestampText uptime).length +
    (subDevids.map fun listed => 109 + (listedKeys ctx listed).productKey.length +
      (listedKeys ctx listed).deviceKey.length).sum < 2 ^ 31

/-! ## Credentials in memory -/

/-- The strings that a credential has. -/
def storedKeys (credential : DeviceCredential) : DeviceKeys :=
  ⟨arrayText credential.productKey, arrayText credential.deviceKey,
    arrayText credential.deviceSecret⟩

/-- What is in memory behind the copies. -/
def credentialOf (fresh : FreshCredential) (keys : DeviceKeys) : DeviceCredential :=
  ⟨keys.productKey ++ fresh.productKey.drop keys.productKey.length,
    keys.deviceKey ++ fresh.deviceKey.drop keys.deviceKey.length,
    keys.deviceSecret ++ fresh.deviceSecret.drop keys.deviceSecret.length⟩

theorem copyAt_start {array bytes : List UInt8} (hroom : bytes.length ≤ array.length) :
    copyAt array 0 bytes = .ok (bytes ++ array.drop bytes.length) := by
  rw [copyAt, Nat.zero_add, if_pos hroom, List.take_zero, List.nil_append]

theorem copyCredential_within {fresh : FreshCredential} {node : DmMgrDevNode}
    (hwithin : (keysOf node).Within) :
    copyCredential fresh node = .ok (credentialOf fresh (keysOf node)) := by
  have hproductKey := hwithin.productKey
  have hdeviceKey := hwithin.deviceKey
  have hdeviceSecret := hwithin.deviceSecret
  dsimp only [keysOf] at hproductKey hdeviceKey hdeviceSecret
  have hproductLength := fresh.productKey_length
  have hdeviceLength := fresh.deviceKey_length
  have hsecretLength := fresh.deviceSecret_length
  rw [copyCredential, copyAt_start (by omega), Outcome.ok_bind, copyAt_start (by omega),
    Outcome.ok_bind, copyAt_start (by omega), Outcome.ok_bind]
  rfl

/-- The string in an array is the one that was copied if the next byte is a NUL. -/
theorem arrayText_over_iff {text array : List UInt8} (htext : 0 ∉ text)
    (hroom : text.length < array.length) :
    arrayText (text ++ array.drop text.length) = text ↔ array[text.length]? = some 0 := by
  rw [arrayText_append htext, List.append_right_eq_self, List.drop_eq_getElem_cons hroom,
    List.getElem?_eq_getElem hroom, Option.some.injEq, arrayText]
  by_cases hzero : array[text.length] = 0
  · simp [hzero]
  · rw [List.takeWhile_cons_of_pos (by simpa using hzero)]
    exact iff_of_false (List.cons_ne_nil _ _) hzero

theorem arrayText_credential_length {fresh : FreshCredential} {keys : DeviceKeys}
    (hwithin : keys.Within) :
    keys.productKey.length < fresh.productKey.length ∧
      keys.deviceKey.length < fresh.deviceKey.length ∧
      keys.deviceSecret.length < fresh.deviceSecret.length := by
  rw [fresh.productKey_length, fresh.deviceKey_length, fresh.deviceSecret_length]
  exact ⟨Nat.lt_succ_of_le hwithin.productKey, Nat.lt_succ_of_le hwithin.deviceKey,
    Nat.lt_succ_of_le hwithin.deviceSecret⟩

/-- The strings of a credential begin with those of the device. -/
theorem storedKeys_credentialOf {fresh : FreshCredential} {node : DmMgrDevNode} :
    storedKeys (credentialOf fresh (keysOf node)) =
      ⟨arrayText node.productKey ++
          arrayText (fresh.productKey.drop (arrayText node.productKey).length),
        arrayText node.deviceKey ++
          arrayText (fresh.deviceKey.drop (arrayText node.deviceKey).length),
        arrayText node.deviceSecret ++
          arrayText (fresh.deviceSecret.drop (arrayText node.deviceSecret).length)⟩ := by
  simp only [storedKeys, credentialOf, keysOf, arrayText_append (zero_not_mem_arrayText _)]

/-- They are those of the device if the memory is cleared. -/
theorem storedKeys_eq_iff {fresh : FreshCredential} {node : DmMgrDevNode}
    (hwithin : (keysOf node).Within) :
    storedKeys (credentialOf fresh (keysOf node)) = keysOf node ↔ Cleared fresh (keysOf node) := by
  obtain ⟨hproductKey, hdeviceKey, hdeviceSecret⟩ :=
    @arrayText_credential_length fresh (keysOf node) hwithin
  have hfirst := arrayText_over_iff (zero_not_mem_arrayText node.productKey) hproductKey
  have hsecond := arrayText_over_iff (zero_not_mem_arrayText node.deviceKey) hdeviceKey
  have hthird := arrayText_over_iff (zero_not_mem_arrayText node.deviceSecret) hdeviceSecret
  constructor
  · intro hsame
    exact
      { productKey := hfirst.mp (congrArg DeviceKeys.productKey hsame)
        deviceKey := hsecond.mp (congrArg DeviceKeys.deviceKey hsame)
        deviceSecret := hthird.mp (congrArg DeviceKeys.deviceSecret hsame) }
  · intro hcleared
    have hproduct := hfirst.mpr hcleared.productKey
    have hdevice := hsecond.mpr hcleared.deviceKey
    have hsecret := hthird.mpr hcleared.deviceSecret
    simp only [storedKeys, credentialOf, keysOf, hproduct, hdevice, hsecret]

/-- The devices of the list are known and their keys keep the limits. -/
def Known (ctx : DmMgrCtx) (subDevids : List Listed) : Prop :=
  ∀ listed ∈ subDevids, ∃ node, dmMgrSearchDevByDevid ctx listed.devid = some node ∧
    (keysOf node).Within

/-- What the loop over the list leaves in memory. -/
def credentialsOf (ctx : DmMgrCtx) (subDevids : List Listed) : List (DeviceCredential × Bool) :=
  subDevids.map fun listed =>
    (credentialOf listed.fresh (listedKeys ctx listed), listed.signOk)

theorem copyCredentials_known {ctx : DmMgrCtx} {subDevids : List Listed}
    (hknown : Known ctx subDevids) :
    copyCredentials ctx true subDevids = .ok (credentialsOf ctx subDevids) := by
  induction subDevids with
  | nil => rfl
  | cons listed rest ih =>
      obtain ⟨⟨node, hnode, hwithin⟩, hrest⟩ := List.forall_mem_cons.mp hknown
      have hkeys : listedKeys ctx listed = keysOf node := by rw [listedKeys, hnode]
      rw [copyCredentials, hnode]
      dsimp only
      rw [if_neg (by decide), copyCredential_within hwithin, Outcome.ok_bind, ih hrest,
        Outcome.ok_bind, credentialsOf, credentialsOf, List.map_cons, hkeys]
      rfl

/-- Without memory for the array the first copy goes astray. -/
theorem copyCredentials_stray {ctx : DmMgrCtx} {subDevids : List Listed}
    (hknown : Known ctx subDevids) (hsome : subDevids ≠ []) :
    copyCredentials ctx false subDevids = .stray := by
  obtain ⟨listed, rest, rfl⟩ := List.exists_cons_of_ne_nil hsome
  obtain ⟨⟨node, hnode, -⟩, -⟩ := List.forall_mem_cons.mp hknown
  rw [copyCredentials, hnode]
  rfl

/-! ## Entries in their buffer -/

/-- An entry up to the quote in front of its sign. -/
def entryFront (keys : DeviceKeys) : List UInt8 :=
  ascii "\x7b\"productKey\":\"" ++ keys.productKey ++ ascii "\", \"deviceKey\":\"" ++
    keys.deviceKey ++ ascii "\", \"sign\":"

/-- Its closing bracket, if there is room for it. -/
def entryClosing (keys : DeviceKeys) : List UInt8 :=
  if keys.productKey.length + keys.deviceKey.length ≤ 83 then [125] else []

/-- An entry in its buffer. -/
def loginText (keys : DeviceKeys) (sign : List UInt8) : List UInt8 :=
  entryFront keys ++ 34 :: (sign ++ 34 :: entryClosing keys)

theorem length_entryFront (keys : DeviceKeys) :
    (entryFront keys).length = 41 + keys.productKey.length + keys.deviceKey.length := by
  have hproductKey : (ascii "\x7b\"productKey\":\"").length = 15 := by decide
  have hdeviceKey : (ascii "\", \"deviceKey\":\"").length = 16 := by decide
  have hsign : (ascii "\", \"sign\":").length = 10 := by decide
  simp only [entryFront, List.length_append, hproductKey, hdeviceKey, hsign]
  omega

theorem length_infraHex2str (input : List UInt8) :
    (infraHex2str input).length = 2 * input.length := by
  induction input with
  | nil => rfl
  | cons byte input ih =>
      have hcons : infraHex2str (byte :: input) =
          [zEncode.getD (byte >>> 4).toNat 48, zEncode.getD (byte &&& 15).toNat 48] ++
            infraHex2str input := rfl
      rw [hcons, List.length_append, ih, List.length_cons, List.length_cons, List.length_cons,
        List.length_nil]
      omega

section Printed

variable {sha256 : List UInt8 → Vector UInt8 32} {clientId timestamp : List UInt8}

/-- The buffer of a sign source has room for all of it. -/
theorem signStr_eq (hclientId : 0 ∉ clientId) (htimestamp : 0 ∉ timestamp)
    (credential : DeviceCredential) :
    signStr sha256 clientId timestamp credential =
      ((storedKeys credential).entry sha256 clientId timestamp).sign := by
  have htext : formatText (signSourceFormat clientId timestamp credential) =
      signSource clientId timestamp (storedKeys credential) := by
    simp [formatText, signSourceFormat, FormatPart.print, signSource, storedKeys,
      arrayText_of_noNul hclientId, arrayText_of_noNul htimestamp]
  rw [signStr, DeviceKeys.entry]
  dsimp only
  rw [halSnprintf, List.take_of_length_le, htext]
  rw [htext]
  simp only [signSource, storedKeys, formatStrlen, signSourceFormat, FormatPart.strlen,
    List.map_cons, List.map_nil, List.sum_cons, List.sum_nil, List.length_append, arrayStrlen,
    arrayText_of_noNul hclientId, arrayText_of_noNul htimestamp]
  omega

theorem length_sign (keys : DeviceKeys) :
    (keys.entry sha256 clientId timestamp).sign.length = 64 := by
  rw [DeviceKeys.entry, length_infraHex2str, Vector.length_toList]

/-- Of an entry with keys of the greatest length the closing bracket is lost. -/
theorem subDevice_printed {credential : DeviceCredential}
    (hwithin : (storedKeys credential).Within) {sign : List UInt8} (hsign : 0 ∉ sign)
    (hlength : sign.length = 64) :
    halSnprintf subDeviceParamLen (subDeviceFormat credential sign) =
      loginText (storedKeys credential) sign := by
  have hproductKey : (storedKeys credential).productKey.length ≤ 20 := hwithin.productKey
  have hdeviceKey : (storedKeys credential).deviceKey.length ≤ 64 := hwithin.deviceKey
  have hfront := length_entryFront (storedKeys credential)
  have htext : formatText (subDeviceFormat credential sign) =
      entryFront (storedKeys credential) ++ 34 :: (sign ++ [34]) ++ [125] := by
    have hkey : ascii "\", \"sign\":\"" = ascii "\", \"sign\":" ++ [34] := by decide
    have hend : ascii "\"\x7d" = [34, 125] := by decide
    simp [formatText, subDeviceFormat, FormatPart.print, entryFront, storedKeys, hkey, hend,
      arrayText_of_noNul hsign]
  have hbody : (entryFront (storedKeys credential) ++ 34 :: (sign ++ [34])).length =
      107 + (storedKeys credential).productKey.length +
        (storedKeys credential).deviceKey.length := by
    simp only [List.length_append, List.length_cons, List.length_nil, hfront, hlength]
    omega
  have hsize : subDeviceParamLen - 1 = 191 := rfl
  rw [halSnprintf, hsize, htext, loginText, entryClosing]
  split
  next hroom =>
    rw [List.take_of_length_le]
    · simp
    · rw [List.length_append, hbody, List.length_singleton]
      omega
  next hroom =>
    rw [List.take_append_of_le_length (by omega), List.take_of_length_le (by omega)]

end Printed

end EnosDeviceSdk.DevModel.BatchLogin
