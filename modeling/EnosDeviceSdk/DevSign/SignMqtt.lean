/-
# The signature of an MQTT connection

The client id, the user name and the password of a connection are made of the keys of the device.
The texts grow in arrays by appends, and before the appends a check is made that the parts fit.

The array for the id of the device has no room for a terminator when both keys are as long as they
may be. And the check for the text that is hashed counts all its parts but the secret. A sum of keys
that is small enough for this check and large enough to leave the secret no room writes behind the
array.
-/

import EnosDeviceSdk.DevModel.TextBuffer

namespace EnosDeviceSdk.DevSign

open EnosDeviceSdk.Infra EnosDeviceSdk.Library EnosDeviceSdk.DevModel

/-! ## Sizes and texts -/

/-- `DEV_SIGN_SOURCE_MAXLEN` -/
def devSignSourceMaxlen : Nat := 200

/-- `DEV_SIGN_HOSTNAME_MAXLEN` -/
def devSignHostnameMaxlen : Nat := 64

/-- `DEV_SIGN_CLIENT_ID_MAXLEN` -/
def devSignClientIdMaxlen : Nat := 200

/-- `DEV_SIGN_USERNAME_MAXLEN` -/
def devSignUsernameMaxlen : Nat := 100

/-- `DEV_SIGN_PASSWORD_MAXLEN` -/
def devSignPasswordMaxlen : Nat := 65

/-- `SIGN_FMT_LEN` -/
def signFmtLen : Nat := 50

/-- `TIMESTAMP_VALUE` -/
def timestampValue : List UInt8 := ascii "2524608000000"

/-- `clientid_kv` -/
def clientidKv : List (List UInt8 × List UInt8) :=
  [(ascii "securemode", ascii "2"), (ascii "signmethod", ascii "sha256"),
    (ascii "timestamp", timestampValue)]

/-- `iotx_sign_mqtt_t` -/
structure SignMqtt where
  hostname : List UInt8
  port : Nat
  clientid : List UInt8
  username : List UInt8
  password : List UInt8

/-- `iotx_dev_meta_info_t`, without the product secret. -/
structure DevMetaInfo where
  productKey : CString
  deviceKey : CString
  deviceSecret : CString

/-- The digits of `_hex2str`. -/
def hexEncode : List UInt8 := ascii "0123456789ABCDEF"

/-- `_hex2str` -/
def hex2str (input : List UInt8) : List UInt8 :=
  input.flatMap fun (byte : UInt8) =>
    [hexEncode.getD (byte >>> 4 &&& 15).toNat 0, hexEncode.getD (byte &&& 15).toNat 0]

/-! ## The code -/

/-- Texts are appended one after the other, each at the end of the string that it finds. -/
def appendAll : List (List UInt8) → List UInt8 → Outcome (List UInt8)
  | [], array => .ok array
  | text :: texts, array => do
      let array ← appendText array text
      appendAll texts array

/-- The loop over the table in `_sign_get_clientid`. -/
def appendKv : List (List UInt8 × List UInt8) → List UInt8 → Outcome (List UInt8)
  | [], clientid => .ok clientid
  | (key, value) :: rest, clientid => do
      let length ← boundedStrlen clientid
      if length + key.length + value.length + 2 ≥ devSignClientIdMaxlen then .failed
      else do
        let clientid ← appendAll [key, ascii "=", value, ascii ","] clientid
        appendKv rest clientid

/-- `_sign_get_clientid` -/
def signGetClientid (deviceId : List UInt8) (customKv : Option CString) :
    Outcome (List UInt8) := do
  let length ← boundedStrlen deviceId
  if length + 1 ≥ devSignClientIdMaxlen then .failed
  else do
    let clientid ← appendAll [arrayText deviceId, ascii "|"] (padded devSignClientIdMaxlen [])
    let clientid ← appendKv clientidKv clientid
    let length ← boundedStrlen clientid
    let clientid ← match customKv with
      | none => pure clientid
      | some customKv =>
          if length + customKv.strlen + 1 ≥ devSignClientIdMaxlen then .failed
          else appendAll [customKv.bytes, ascii ","] clientid
    let length ← boundedStrlen clientid
    copyAt clientid (length - 1) (ascii "|")

/-- `_iotx_generate_sign_string`: the array of the password. `sha256` is `utils_sha256`. -/
def iotxGenerateSignString (sha256 : List UInt8 → Vector UInt8 32) (deviceId : List UInt8)
    (deviceKey productKey deviceSecret : CString) (signString : List UInt8) :
    Outcome (List UInt8) := do
  let length ← boundedStrlen deviceId
  let signsourceLen := (signFmtLen + length + deviceKey.strlen + productKey.strlen +
    timestampValue.length) % 2 ^ 16
  if signsourceLen ≥ devSignSourceMaxlen then .failed
  else do
    let signsource ← appendAll
      [ascii "clientId", arrayText deviceId, ascii "deviceKey", deviceKey.bytes,
        ascii "productKey", productKey.bytes, ascii "timestamp", timestampValue,
        deviceSecret.bytes] (padded devSignSourceMaxlen [])
    let source ← boundedText signsource
    copyAt signString 0 (hex2str (sha256 source).toList)

/-- The array of the host name, if a domain is configured whose length passes the check. -/
def signHostname (domain : Option CString) : Outcome (List UInt8) :=
  match domain with
  | none => .failed
  | some domain =>
      if (domain.strlen + 1) % 2 ^ 16 ≥ devSignHostnameMaxlen then .failed
      else copyAt (padded devSignHostnameMaxlen []) 0 domain.bytes

/-- The array of the user name. -/
def signUsername (deviceKey productKey : CString) : Outcome (List UInt8) :=
  if (deviceKey.strlen + productKey.strlen + 2) % 2 ^ 16 ≥ devSignUsernameMaxlen then .failed
  else appendAll [deviceKey.bytes, ascii "&", productKey.bytes] (padded devSignUsernameMaxlen [])

/-- `IOT_Sign_MQTT`: what it signs out, or an error. -/
def iotSignMqtt (sha256 : List UInt8 → Vector UInt8 32) (info : Option DevMetaInfo)
    (domain : Option CString) : Outcome SignMqtt :=
  match info with
  | none => .failed
  | some info => do
      let deviceId ← appendAll [info.productKey.bytes, ascii ".", info.deviceKey.bytes]
        (padded (iotxProductKeyLen + iotxDeviceKeyLen + 1) [])
      let clientid ← signGetClientid deviceId none
      let password ← iotxGenerateSignString sha256 deviceId info.deviceKey info.productKey
        info.deviceSecret (padded devSignPasswordMaxlen [])
      let hostname ← signHostname domain
      let username ← signUsername info.deviceKey info.productKey
      return { hostname, port := 11883, clientid, username, password }

/-! ## What is meant -/

/-- The id of the device. -/
def DevMetaInfo.deviceId (info : DevMetaInfo) : List UInt8 :=
  info.productKey.bytes ++ ascii "." ++ info.deviceKey.bytes

/-- The text that is hashed. -/
def DevMetaInfo.signSource (info : DevMetaInfo) : List UInt8 :=
  ascii "clientId" ++ info.deviceId ++ ascii "deviceKey" ++ info.deviceKey.bytes ++
    ascii "productKey" ++ info.productKey.bytes ++ ascii "timestamp" ++ timestampValue ++
    info.deviceSecret.bytes

/-- An array holds a text with its terminator. -/
def Stores (array text : List UInt8) : Prop := 0 ∈ array ∧ arrayText array = text

/-- The fields hold the texts that are made of the keys. -/
structure SignedFor (sha256 : List UInt8 → Vector UInt8 32) (info : DevMetaInfo)
    (domain : CString) (signout : SignMqtt) : Prop where
  hostname : Stores signout.hostname domain.bytes
  clientid : Stores signout.clientid
    (info.deviceId ++ ascii "|securemode=2,signmethod=sha256,timestamp=2524608000000|")
  username : Stores signout.username
    (info.deviceKey.bytes ++ ascii "&" ++ info.productKey.bytes)
  password : Stores signout.password (hex2str (sha256 info.signSource).toList)

/-- There is an error, or nothing went astray and the fields hold what they should. -/
def SignsAsMeant (sha256 : List UInt8 → Vector UInt8 32) (info : DevMetaInfo)
    (domain : Option CString) : Prop :=
  iotSignMqtt sha256 (some info) domain = .failed ∨
    ∃ text signout, domain = some text ∧ iotSignMqtt sha256 (some info) domain = .ok signout ∧
      SignedFor sha256 info text signout

/-! ## Appends -/

section Appends

variable {size : Nat} {text : List UInt8} {texts : List (List UInt8)}

/-- Texts that leave room for a terminator are appended. -/
theorem appendAll_padded (htext : 0 ∉ text) (htexts : 0 ∉ texts.flatten)
    (hroom : text.length + texts.flatten.length < size) :
    appendAll texts (padded size text) = .ok (padded size (text ++ texts.flatten)) := by
  induction texts generalizing text with
  | nil => rw [appendAll, List.flatten_nil, List.append_nil]
  | cons bytes texts ih =>
      rw [List.flatten_cons, List.mem_append, not_or] at htexts
      rw [List.flatten_cons, List.length_append] at hroom
      have hlonger : 0 ∉ text ++ bytes := by
        rw [List.mem_append, not_or]
        exact ⟨htext, htexts.1⟩
      rw [appendAll, appendText_padded htext (by omega) (by omega), Outcome.ok_bind,
        ih hlonger htexts.2 (by rw [List.length_append]; omega), List.flatten_cons,
        List.append_assoc]

/-- Texts that leave no room for a terminator go astray, or they leave a string without an end. -/
theorem appendAll_full (htext : 0 ∉ text) (htexts : 0 ∉ texts.flatten)
    (hfull : size ≤ text.length + texts.flatten.length) :
    appendAll texts (padded size text) = .stray ∨
      ∃ whole, appendAll texts (padded size text) = .ok (padded size whole) ∧ 0 ∉ whole ∧
        size ≤ whole.length := by
  induction texts generalizing text with
  | nil =>
      rw [List.flatten_nil, List.length_nil, Nat.add_zero] at hfull
      exact .inr ⟨text, rfl, htext, hfull⟩
  | cons bytes texts ih =>
      rw [List.flatten_cons, List.mem_append, not_or] at htexts
      rw [List.flatten_cons, List.length_append] at hfull
      rw [appendAll]
      by_cases hroom : text.length < size
      · by_cases hfits : text.length + bytes.length ≤ size
        · have hlonger : 0 ∉ text ++ bytes := by
            rw [List.mem_append, not_or]
            exact ⟨htext, htexts.1⟩
          rw [appendText_padded htext hroom hfits, Outcome.ok_bind]
          exact ih hlonger htexts.2 (by rw [List.length_append]; omega)
        · have hsome : bytes ≠ [] := by
            rintro rfl
            exact hfits (Nat.le_of_lt hroom)
          refine .inl ?_
          rw [appendText, boundedStrlen_padded htext hroom, Outcome.ok_bind,
            copyAt_padded_stray (Nat.not_le.mp hfits) hsome]
          rfl
      · refine .inl ?_
        rw [appendText, boundedStrlen_full htext (Nat.not_lt.mp hroom)]
        rfl

/-- The last byte of a string is replaced. -/
theorem copyAt_last (before after : UInt8) (hroom : text.length < size) :
    copyAt (padded size (text ++ [before])) text.length [after] =
      .ok (padded size (text ++ [after])) := by
  have hlength : (padded size (text ++ [before])).length = size := by
    rw [length_padded, List.length_append, List.length_singleton]
    omega
  have hbehind : (text ++ [before]).length = (text ++ [after]).length := by
    rw [List.length_append, List.length_append]
    rfl
  rw [copyAt, if_pos (by rw [hlength, List.length_singleton]; omega), padded, padded, hbehind,
    List.append_assoc text [before], List.append_assoc text [after], List.take_left,
    ← List.drop_drop, List.drop_left, List.append_assoc]
  rfl

end Appends

theorem stores_padded {size : Nat} {text : List UInt8} (htext : 0 ∉ text)
    (hroom : text.length < size) : Stores (padded size text) text :=
  ⟨(zero_mem_padded_iff htext).mpr hroom, arrayText_padded htext size⟩

/-! ## The parts -/

theorem length_hex2str (input : List UInt8) : (hex2str input).length = 2 * input.length := by
  induction input with
  | nil => rfl
  | cons byte rest ih =>
      rw [hex2str, List.flatMap_cons, List.length_append, ← hex2str, ih]
      simp only [List.length_cons, List.length_nil]
      omega

/-- No digit is a NUL. -/
theorem zero_not_mem_hex2str (input : List UInt8) : 0 ∉ hex2str input := by
  have hdigit (nibble : UInt8) : hexEncode.getD (nibble &&& 15).toNat 0 ≠ 0 := by
    have hbelow : (nibble &&& 15).toNat < 16 := by
      rw [UInt8.toNat_and]
      exact Nat.lt_succ_of_le Nat.and_le_right
    have hall : ∀ index < 16, hexEncode.getD index 0 ≠ 0 := by decide
    exact hall _ hbelow
  intro hzero
  obtain ⟨byte, -, hpair⟩ := List.mem_flatMap.mp hzero
  rcases List.mem_cons.mp hpair with hhigh | hlow
  · exact hdigit (byte >>> 4) hhigh.symm
  · exact hdigit byte (List.mem_singleton.mp hlow).symm

/-- What a table appends to the client id. -/
def kvText (table : List (List UInt8 × List UInt8)) : List UInt8 :=
  table.flatMap fun pair => pair.1 ++ ascii "=" ++ pair.2 ++ ascii ","

/-- The table is appended if there is room for it. -/
theorem appendKv_padded {table : List (List UInt8 × List UInt8)} {text : List UInt8}
    (htext : 0 ∉ text) (htable : 0 ∉ kvText table)
    (hroom : text.length + (kvText table).length < devSignClientIdMaxlen) :
    appendKv table (padded devSignClientIdMaxlen text) =
      .ok (padded devSignClientIdMaxlen (text ++ kvText table)) := by
  induction table generalizing text with
  | nil => rw [appendKv, kvText, List.flatMap_nil, List.append_nil]
  | cons pair rest ih =>
      obtain ⟨key, value⟩ := pair
      rw [kvText, List.flatMap_cons, ← kvText] at htable hroom ⊢
      have hone : (key ++ ascii "=" ++ value ++ ascii ",").length =
          key.length + value.length + 2 := by
        simp only [List.length_append, show (ascii "=").length = 1 from rfl,
          show (ascii ",").length = 1 from rfl]
        omega
      have hflat : [key, ascii "=", value, ascii ","].flatten =
          key ++ ascii "=" ++ value ++ ascii "," := by
        simp only [List.flatten_cons, List.flatten_nil, List.append_nil, List.append_assoc]
      rw [List.mem_append, not_or] at htable
      rw [List.length_append, hone] at hroom
      have hlonger : 0 ∉ text ++ (key ++ ascii "=" ++ value ++ ascii ",") := by
        rw [List.mem_append, not_or]
        exact ⟨htext, htable.1⟩
      rw [appendKv, boundedStrlen_padded htext (by omega), Outcome.ok_bind, if_neg (by omega),
        appendAll_padded htext (by rw [hflat]; exact htable.1) (by rw [hflat, hone]; omega),
        Outcome.ok_bind, hflat, ih hlonger htable.2 (by rw [List.length_append, hone]; omega),
        List.append_assoc]

/-- The text that a client id has behind the id of the device. -/
def clientidTail : List UInt8 := ascii "|securemode=2,signmethod=sha256,timestamp=2524608000000|"

/-- The client id of a device id that ends within its array. -/
theorem signGetClientid_padded {size : Nat} {deviceId : List UInt8} (hnoNul : 0 ∉ deviceId)
    (hroom : deviceId.length < size) (hshort : deviceId.length < 100) :
    signGetClientid (padded size deviceId) none =
      .ok (padded devSignClientIdMaxlen (deviceId ++ clientidTail)) := by
  have hbar : 0 ∉ deviceId ++ ascii "|" := by
    rw [List.mem_append, not_or]
    exact ⟨hnoNul, by decide⟩
  have hbarLength : (deviceId ++ ascii "|").length = deviceId.length + 1 := List.length_append
  have hflat : [deviceId, ascii "|"].flatten = deviceId ++ ascii "|" := by
    simp only [List.flatten_cons, List.flatten_nil, List.append_nil]
  have htableLength : (kvText clientidKv).length = 55 := by decide
  have htable : 0 ∉ kvText clientidKv := by decide
  have hpairs : deviceId ++ ascii "|" ++ kvText clientidKv =
      deviceId ++ ascii "|securemode=2,signmethod=sha256,timestamp=2524608000000" ++ [44] := by
    have htail : ascii "|" ++ kvText clientidKv =
        ascii "|securemode=2,signmethod=sha256,timestamp=2524608000000" ++ [44] := by decide
    rw [List.append_assoc, htail, List.append_assoc]
  have hwhole : 0 ∉ deviceId ++ ascii "|" ++ kvText clientidKv := by
    rw [List.mem_append, not_or]
    exact ⟨hbar, htable⟩
  have hmax : devSignClientIdMaxlen = 200 := rfl
  have happended := @appendAll_padded devSignClientIdMaxlen [] [deviceId, ascii "|"]
    List.not_mem_nil (by rwa [hflat]) (by rw [hflat, hbarLength, List.length_nil]; omega)
  rw [hflat, List.nil_append] at happended
  rw [signGetClientid, boundedStrlen_padded hnoNul hroom, Outcome.ok_bind, if_neg (by omega),
    arrayText_padded hnoNul, happended, Outcome.ok_bind,
    appendKv_padded hbar htable (by rw [hbarLength, htableLength]; omega), Outcome.ok_bind]
  have hlength : (deviceId ++ ascii "|" ++ kvText clientidKv).length = deviceId.length + 56 := by
    rw [List.length_append, hbarLength, htableLength]
  have hfront : (deviceId ++
      ascii "|securemode=2,signmethod=sha256,timestamp=2524608000000").length =
        deviceId.length + 55 := List.length_append
  rw [boundedStrlen_padded hwhole (by omega), Outcome.ok_bind]
  dsimp only
  rw [Outcome.pure_eq, Outcome.ok_bind, boundedStrlen_padded hwhole (by omega), Outcome.ok_bind,
    hlength, hpairs, show deviceId.length + 56 - 1 = deviceId.length + 55 from rfl, ← hfront]
  refine (copyAt_last 44 124 (by omega)).trans ?_
  rw [List.append_assoc]
  rfl

/-- The lengths that the text for the hash has without and with the secret. -/
theorem length_signSource (info : DevMetaInfo) :
    info.signSource.length =
      2 * (info.productKey.strlen + info.deviceKey.strlen) + info.deviceSecret.strlen + 50 := by
  simp only [DevMetaInfo.signSource, DevMetaInfo.deviceId, List.length_append, CString.strlen,
    show (ascii "clientId").length = 8 from rfl, show (ascii ".").length = 1 from rfl,
    show (ascii "deviceKey").length = 9 from rfl, show (ascii "productKey").length = 10 from rfl,
    show (ascii "timestamp").length = 9 from rfl, show timestampValue.length = 13 from rfl]
  omega

theorem zero_not_mem_deviceId (info : DevMetaInfo) : 0 ∉ info.deviceId := by
  simp only [DevMetaInfo.deviceId, List.mem_append, not_or]
  exact ⟨⟨info.productKey.noNul, by decide⟩, info.deviceKey.noNul⟩

theorem length_deviceId (info : DevMetaInfo) :
    info.deviceId.length = info.productKey.strlen + info.deviceKey.strlen + 1 := by
  simp only [DevMetaInfo.deviceId, List.length_append, CString.strlen,
    show (ascii ".").length = 1 from rfl]
  omega

theorem zero_not_mem_signSource (info : DevMetaInfo) : 0 ∉ info.signSource := by
  simp only [DevMetaInfo.signSource, List.mem_append, not_or]
  exact ⟨⟨⟨⟨⟨⟨⟨⟨by decide, zero_not_mem_deviceId info⟩, by decide⟩, info.deviceKey.noNul⟩,
    by decide⟩, info.productKey.noNul⟩, by decide⟩, by decide⟩, info.deviceSecret.noNul⟩

section Source

variable (sha256 : List UInt8 → Vector UInt8 32) (info : DevMetaInfo)

/-- The sign string of a device id that ends within its array, by what its parts come to. -/
theorem iotxGenerateSignString_eq (hshort : info.productKey.strlen + info.deviceKey.strlen < 84) :
    iotxGenerateSignString sha256
        (padded (iotxProductKeyLen + iotxDeviceKeyLen + 1) info.deviceId) info.deviceKey
        info.productKey info.deviceSecret (padded devSignPasswordMaxlen []) =
      if 68 ≤ info.productKey.strlen + info.deviceKey.strlen then .failed
      else if 200 ≤ info.signSource.length then .stray
      else .ok (padded devSignPasswordMaxlen (hex2str (sha256 info.signSource).toList)) := by
  have hdeviceId := zero_not_mem_deviceId info
  have hlength := length_deviceId info
  have htimestamp : timestampValue.length = 13 := rfl
  have hflat : [ascii "clientId", info.deviceId, ascii "deviceKey", info.deviceKey.bytes,
      ascii "productKey", info.productKey.bytes, ascii "timestamp", timestampValue,
      info.deviceSecret.bytes].flatten = info.signSource := by
    simp only [List.flatten_cons, List.flatten_nil, List.append_nil, DevMetaInfo.signSource,
      List.append_assoc]
  have hsource := zero_not_mem_signSource info
  rw [iotxGenerateSignString, boundedStrlen_padded hdeviceId (by
    rw [hlength]
    exact Nat.succ_lt_succ hshort), Outcome.ok_bind, arrayText_padded hdeviceId]
  dsimp only
  have hcheck : (signFmtLen + info.deviceId.length + info.deviceKey.strlen +
      info.productKey.strlen + timestampValue.length) % 2 ^ 16 =
        2 * (info.productKey.strlen + info.deviceKey.strlen) + 64 := by
    rw [hlength, htimestamp, signFmtLen]
    omega
  rw [hcheck, devSignSourceMaxlen]
  by_cases hlong : 68 ≤ info.productKey.strlen + info.deviceKey.strlen
  · rw [if_pos (by omega), if_pos hlong]
  · rw [if_neg (by omega), if_neg hlong]
    by_cases hfull : 200 ≤ info.signSource.length
    · rw [if_pos hfull]
      rcases @appendAll_full 200 [] _ List.not_mem_nil (hflat ▸ hsource)
        (by rw [hflat, List.length_nil, Nat.zero_add]; exact hfull) with hstray | hwhole
      · rw [hstray]
        rfl
      · obtain ⟨whole, happended, hnoNul, hend⟩ := hwhole
        rw [happended, Outcome.ok_bind, boundedText_full hnoNul hend]
        rfl
    · rw [if_neg hfull]
      have happended := @appendAll_padded 200 [] _ List.not_mem_nil (hflat ▸ hsource)
        (by rw [hflat, List.length_nil, Nat.zero_add]; exact Nat.not_le.mp hfull)
      rw [hflat, List.nil_append] at happended
      rw [happended, Outcome.ok_bind, boundedText_padded hsource (Nat.not_le.mp hfull),
        Outcome.ok_bind, copyAt_zeros]
      rw [length_hex2str, Vector.length_toList]
      decide

end Source

/-- The user name of keys that are short enough to be hashed. -/
theorem signUsername_eq {deviceKey productKey : CString}
    (hshort : deviceKey.strlen + productKey.strlen < 98) :
    signUsername deviceKey productKey =
      .ok (padded devSignUsernameMaxlen (deviceKey.bytes ++ ascii "&" ++ productKey.bytes)) := by
  have hflat : [deviceKey.bytes, ascii "&", productKey.bytes].flatten =
      deviceKey.bytes ++ ascii "&" ++ productKey.bytes := by
    simp only [List.flatten_cons, List.flatten_nil, List.append_nil, List.append_assoc]
  have hnoNul : 0 ∉ deviceKey.bytes ++ ascii "&" ++ productKey.bytes := by
    simp only [List.mem_append, not_or]
    exact ⟨⟨deviceKey.noNul, by decide⟩, productKey.noNul⟩
  have hlength : (deviceKey.bytes ++ ascii "&" ++ productKey.bytes).length =
      deviceKey.strlen + productKey.strlen + 1 := by
    simp only [List.length_append, CString.strlen, show (ascii "&").length = 1 from rfl]
    omega
  rw [signUsername, devSignUsernameMaxlen, if_neg (by omega)]
  have happended := @appendAll_padded 100 [] _ List.not_mem_nil (hflat ▸ hnoNul)
    (by rw [hflat, hlength, List.length_nil]; omega)
  rwa [hflat, List.nil_append] at happended

/-- The length of a domain passes the check only if the domain fits. The length is counted in 16
bits. -/
def DomainFits (domain : CString) : Prop :=
  domain.strlen < 63 ∨ devSignHostnameMaxlen ≤ (domain.strlen + 1) % 2 ^ 16

/-- The array of the host name, by the length of the domain. -/
theorem signHostname_some (domain : CString) :
    signHostname (some domain) =
      if devSignHostnameMaxlen ≤ (domain.strlen + 1) % 2 ^ 16 then .failed
      else if domain.strlen < 63 then .ok (padded devSignHostnameMaxlen domain.bytes)
      else .stray := by
  rw [signHostname]
  by_cases hcheck : devSignHostnameMaxlen ≤ (domain.strlen + 1) % 2 ^ 16
  · rw [if_pos hcheck, if_pos hcheck]
  · rw [if_neg hcheck, if_neg hcheck]
    rw [devSignHostnameMaxlen] at hcheck ⊢
    rw [CString.strlen] at *
    by_cases hfits : domain.bytes.length < 63
    · rw [if_pos hfits, copyAt_zeros (by omega)]
    · rw [if_neg hfits, copyAt_zeros_stray (by omega)]

/-! ## The result -/

section Result

variable (sha256 : List UInt8 → Vector UInt8 32) (info : DevMetaInfo) (domain : Option CString)

/-- With keys that leave the device id no terminator the function goes astray. -/
theorem iotSignMqtt_unterminated (hlong : 84 ≤ info.productKey.strlen + info.deviceKey.strlen) :
    iotSignMqtt sha256 (some info) domain = .stray := by
  have hflat : [info.productKey.bytes, ascii ".", info.deviceKey.bytes].flatten =
      info.deviceId := by
    simp only [List.flatten_cons, List.flatten_nil, List.append_nil, DevMetaInfo.deviceId,
      List.append_assoc]
  rw [iotSignMqtt]
  rcases @appendAll_full (iotxProductKeyLen + iotxDeviceKeyLen + 1) [] _ List.not_mem_nil
    (hflat ▸ zero_not_mem_deviceId info)
    (by rw [hflat, length_deviceId, List.length_nil, Nat.zero_add]; exact Nat.succ_le_succ hlong)
    with hstray | hwhole
  · rw [hstray]
    rfl
  · obtain ⟨whole, happended, hnoNul, hend⟩ := hwhole
    rw [happended, Outcome.ok_bind, signGetClientid, boundedStrlen_full hnoNul hend]
    rfl

/-- With shorter keys it is up to the hash, and then to the domain. -/
theorem iotSignMqtt_eq (hshort : info.productKey.strlen + info.deviceKey.strlen < 84) :
    iotSignMqtt sha256 (some info) domain =
      if 68 ≤ info.productKey.strlen + info.deviceKey.strlen then .failed
      else if 200 ≤ info.signSource.length then .stray
      else do
        let hostname ← signHostname domain
        return {
          hostname
          port := 11883
          clientid := padded devSignClientIdMaxlen (info.deviceId ++ clientidTail)
          username := padded devSignUsernameMaxlen
            (info.deviceKey.bytes ++ ascii "&" ++ info.productKey.bytes)
          password := padded devSignPasswordMaxlen
            (hex2str (sha256 info.signSource).toList) } := by
  have hflat : [info.productKey.bytes, ascii ".", info.deviceKey.bytes].flatten =
      info.deviceId := by
    simp only [List.flatten_cons, List.flatten_nil, List.append_nil, DevMetaInfo.deviceId,
      List.append_assoc]
  have hnoNul := zero_not_mem_deviceId info
  have hlength := length_deviceId info
  have hsize : iotxProductKeyLen + iotxDeviceKeyLen + 1 = 85 := rfl
  have happended := @appendAll_padded (iotxProductKeyLen + iotxDeviceKeyLen + 1) [] _
    List.not_mem_nil (hflat ▸ hnoNul) (by rw [hflat, hlength, List.length_nil]; omega)
  rw [hflat, List.nil_append] at happended
  rw [iotSignMqtt, happended, Outcome.ok_bind, signGetClientid_padded hnoNul (by omega) (by omega),
    Outcome.ok_bind, iotxGenerateSignString_eq sha256 info hshort]
  by_cases hlong : 68 ≤ info.productKey.strlen + info.deviceKey.strlen
  · rw [if_pos hlong, if_pos hlong]
    rfl
  · rw [if_neg hlong, if_neg hlong]
    by_cases hfull : 200 ≤ info.signSource.length
    · rw [if_pos hfull, if_pos hfull]
      rfl
    · rw [if_neg hfull, if_neg hfull, Outcome.ok_bind, signUsername_eq (by omega)]
      rfl

/-- Astray there is neither an error nor a result. -/
theorem not_signsAsMeant_of_stray (hstray : iotSignMqtt sha256 (some info) domain = .stray) :
    ¬ SignsAsMeant sha256 info domain := by
  rw [SignsAsMeant, hstray]
  rintro (hfailed | ⟨text, signout, -, hsigned, -⟩)
  · exact nomatch hfailed
  · exact nomatch hsigned

/-- The zeroed arrays into which the texts are written hold them with their terminators. -/
theorem signedFor_padded (text : CString)
    (hkeys : info.productKey.strlen + info.deviceKey.strlen < 84)
    (husername : info.productKey.strlen + info.deviceKey.strlen < 98) (htext : text.strlen < 63) :
    SignedFor sha256 info text {
      hostname := padded devSignHostnameMaxlen text.bytes
      port := 11883
      clientid := padded devSignClientIdMaxlen (info.deviceId ++ clientidTail)
      username := padded devSignUsernameMaxlen
        (info.deviceKey.bytes ++ ascii "&" ++ info.productKey.bytes)
      password := padded devSignPasswordMaxlen (hex2str (sha256 info.signSource).toList) } where
  hostname := stores_padded text.noNul (Nat.lt_succ_of_lt htext)
  clientid := by
    refine stores_padded ?_ ?_
    · rw [List.mem_append, not_or]
      exact ⟨zero_not_mem_deviceId info, by decide⟩
    · rw [List.length_append, length_deviceId, show clientidTail.length = 56 from rfl,
        devSignClientIdMaxlen]
      omega
  username := by
    refine stores_padded ?_ ?_
    · simp only [List.mem_append, not_or]
      exact ⟨⟨info.deviceKey.noNul, by decide⟩, info.productKey.noNul⟩
    · simp only [CString.strlen] at husername
      simp only [List.length_append, show (ascii "&").length = 1 from rfl, devSignUsernameMaxlen]
      omega
  password := by
    refine stores_padded (zero_not_mem_hex2str _) ?_
    rw [length_hex2str, Vector.length_toList]
    decide

/-- The function reports an error, or it signs out the texts that it should and leaves no array,
exactly if the device id gets its terminator and either the keys are refused as too long or the
secret has room behind them and the domain fits. -/
theorem signsAsMeant_iff :
    SignsAsMeant sha256 info domain ↔
      info.productKey.strlen + info.deviceKey.strlen < 84 ∧
        (68 ≤ info.productKey.strlen + info.deviceKey.strlen ∨
          2 * (info.productKey.strlen + info.deviceKey.strlen) + info.deviceSecret.strlen < 150 ∧
            ∀ text, domain = some text → DomainFits text) := by
  by_cases hshort : info.productKey.strlen + info.deviceKey.strlen < 84
  · have hsigned := iotSignMqtt_eq sha256 info domain hshort
    rw [and_iff_right hshort]
    by_cases hlong : 68 ≤ info.productKey.strlen + info.deviceKey.strlen
    · rw [if_pos hlong] at hsigned
      exact iff_of_true (.inl hsigned) (.inl hlong)
    · rw [if_neg hlong] at hsigned
      rw [or_iff_right hlong]
      have hlength := length_signSource info
      by_cases hfull : 200 ≤ info.signSource.length
      · rw [if_pos hfull] at hsigned
        exact iff_of_false (not_signsAsMeant_of_stray sha256 info domain hsigned)
          fun hroom => by omega
      · rw [if_neg hfull] at hsigned
        rw [and_iff_right (by omega)]
        cases domain with
        | none => exact iff_of_true (.inl hsigned) fun text hnone => (nomatch hnone)
        | some text =>
            rw [signHostname_some] at hsigned
            by_cases hcheck : devSignHostnameMaxlen ≤ (text.strlen + 1) % 2 ^ 16
            · rw [if_pos hcheck] at hsigned
              refine iff_of_true (.inl hsigned) fun same hsame => ?_
              obtain rfl := Option.some.inj hsame
              exact .inr hcheck
            · rw [if_neg hcheck] at hsigned
              by_cases hfits : text.strlen < 63
              · rw [if_pos hfits] at hsigned
                have hfields := signedFor_padded sha256 info text (by omega) (by omega) hfits
                refine iff_of_true (.inr ⟨text, _, rfl, hsigned, hfields⟩) fun same hsame => ?_
                obtain rfl := Option.some.inj hsame
                exact .inl hfits
              · rw [if_neg hfits] at hsigned
                refine iff_of_false (not_signsAsMeant_of_stray sha256 info _ hsigned) ?_
                intro hroom
                rcases hroom text rfl with hless | hmore
                · exact hfits hless
                · exact hcheck hmore
  · have hstray := iotSignMqtt_unterminated sha256 info domain (Nat.not_lt.mp hshort)
    exact iff_of_false (not_signsAsMeant_of_stray sha256 info domain hstray)
      fun hroom => hshort hroom.1

end Result

/-- A string of one character. -/
def repeated (length : Nat) : CString where
  bytes := List.replicate length 112
  noNul hzero := absurd (List.mem_replicate.mp hzero).2 (by decide)

theorem strlen_repeated (length : Nat) : (repeated length).strlen = length :=
  List.length_replicate

/-- With keys of 20 and 23 bytes and a secret of 64 the text for the hash fills its array. With
keys of 20 and 64 bytes the device id does. -/
theorem not_signsAsMeant_long :
    ¬ SignsAsMeant (fun _ => Vector.replicate 32 0) ⟨repeated 20, repeated 23, repeated 64⟩
        (some (repeated 9)) ∧
      ¬ SignsAsMeant (fun _ => Vector.replicate 32 0) ⟨repeated 20, repeated 64, repeated 64⟩
        (some (repeated 9)) := by
  constructor
  · refine not_signsAsMeant_of_stray _ _ _ ?_
    have hlength := length_signSource ⟨repeated 20, repeated 23, repeated 64⟩
    simp only [strlen_repeated] at hlength
    rw [iotSignMqtt_eq]
    · rw [if_neg, if_pos (Nat.le_of_eq hlength.symm)]
      simp only [strlen_repeated]
      decide
    · simp only [strlen_repeated]
      decide
  · refine not_signsAsMeant_of_stray _ _ _ (iotSignMqtt_unterminated _ _ _ ?_)
    simp only [strlen_repeated]
    decide

end EnosDeviceSdk.DevSign
