/-
# The entries of a batch login

The list of a batch login is what its entries are, with commas between them, and the parameters are
the list between two fixed texts. What stands between quotes in the parameters shows the signs, so
a request that is right for every way to sign has the keys and secrets of the devices in its
entries, and nothing behind them. An entry that is cut opens a bracket that nobody closes.
-/

import EnosDeviceSdk.DevModel.BatchLogin

namespace EnosDeviceSdk.DevModel.BatchLogin

open EnosDeviceSdk.Infra EnosDeviceSdk.Library
open EnosDeviceSdk.DevModel.CommandChain EnosDeviceSdk.DevModel.Messages

/-! ## The list -/

section List

variable {sha256 : List UInt8 → Vector UInt8 32} {clientId timestamp : List UInt8}

/-- The entry that is written for a credential. -/
def writtenText (sha256 : List UInt8 → Vector UInt8 32) (clientId timestamp : List UInt8)
    (keys : DeviceKeys) : List UInt8 :=
  loginText keys (keys.entry sha256 clientId timestamp).sign

/-- The entries with the commas between them. -/
def listText (sha256 : List UInt8 → Vector UInt8 32) (clientId timestamp : List UInt8)
    (entries : List DeviceKeys) : List UInt8 :=
  joinCommas (entries.map (writtenText sha256 clientId timestamp))

/-- The loop does not refuse the credential. -/
def Accepted (credential : DeviceCredential × Bool) : Prop :=
  (storedKeys credential.1).Within ∧ credential.2 = true

theorem not_refused_iff (credential : DeviceCredential) (signOk : Bool) :
    ¬(arrayStrlen credential.productKey ≥ iotxProductKeyLen + 1 ∨
        arrayStrlen credential.deviceKey ≥ iotxDeviceKeyLen + 1 ∨
        arrayStrlen credential.deviceSecret ≥ iotxDeviceSecretLen + 1 ∨ !signOk) ↔
      Accepted (credential, signOk) := by
  constructor
  · intro hnone
    have hsign : signOk = true := by
      cases signOk with
      | true => rfl
      | false => exact absurd (Or.inr (Or.inr (Or.inr rfl))) hnone
    rw [not_or, not_or, not_or] at hnone
    obtain ⟨hproductKey, hdeviceKey, hdeviceSecret, -⟩ := hnone
    exact ⟨⟨Nat.le_of_lt_succ (Nat.not_le.mp hproductKey),
      Nat.le_of_lt_succ (Nat.not_le.mp hdeviceKey),
      Nat.le_of_lt_succ (Nat.not_le.mp hdeviceSecret)⟩, hsign⟩
  · rintro ⟨hwithin, rfl⟩ (hlong | hlong | hlong | hfalse)
    · exact absurd hwithin.productKey (Nat.not_le.mpr hlong)
    · exact absurd hwithin.deviceKey (Nat.not_le.mpr hlong)
    · exact absurd hwithin.deviceSecret (Nat.not_le.mpr hlong)
    · exact absurd hfalse (by decide)

theorem zero_not_mem_writtenText (credential : DeviceCredential) :
    0 ∉ writtenText sha256 clientId timestamp (storedKeys credential) := by
  have hproductKey := zero_not_mem_arrayText credential.productKey
  have hdeviceKey := zero_not_mem_arrayText credential.deviceKey
  have hsign : 0 ∉ ((storedKeys credential).entry sha256 clientId timestamp).sign :=
    zero_not_mem_hex _
  have hfirst : 0 ∉ ascii "\x7b\"productKey\":\"" := by decide
  have hsecond : 0 ∉ ascii "\", \"deviceKey\":\"" := by decide
  have hthird : 0 ∉ ascii "\", \"sign\":" := by decide
  have hclosing : 0 ∉ entryClosing (storedKeys credential) := by
    rw [entryClosing]
    split <;> decide
  simp only [writtenText, loginText, entryFront, List.mem_append, List.mem_cons, not_or]
  exact ⟨⟨⟨⟨⟨hfirst, hproductKey⟩, hsecond⟩, hdeviceKey⟩, hthird⟩, by decide, hsign, by decide,
    hclosing⟩

theorem listText_nil : listText sha256 clientId timestamp [] = [] := rfl

theorem listText_singleton (keys : DeviceKeys) :
    listText sha256 clientId timestamp [keys] = writtenText sha256 clientId timestamp keys := by
  simp [listText, joinCommas]

theorem listText_cons_cons (first next : DeviceKeys) (later : List DeviceKeys) :
    listText sha256 clientId timestamp (first :: next :: later) =
      writtenText sha256 clientId timestamp first ++
        44 :: listText sha256 clientId timestamp (next :: later) := by
  simp [listText, joinCommas]

/-- The loop appends the entries of the credentials if it accepts them and the buffer has room. -/
theorem subDevicesLoop_eq_ok_iff (hclientId : 0 ∉ clientId) (htimestamp : 0 ∉ timestamp)
    {credentials : List (DeviceCredential × Bool)} {size : Nat} {text string : List UInt8}
    (htext : 0 ∉ text) :
    (subDevicesLoop sha256 clientId timestamp credentials (padded size text) >>= boundedText) =
        .ok string ↔
      (∀ credential ∈ credentials, Accepted credential) ∧
        (text ++ listText sha256 clientId timestamp
          (credentials.map fun credential => storedKeys credential.1)).length < size ∧
        string = text ++ listText sha256 clientId timestamp
          (credentials.map fun credential => storedKeys credential.1) := by
  induction credentials generalizing text with
  | nil =>
      rw [subDevicesLoop, Outcome.ok_bind, boundedText_eq_ok_iff htext]
      simp [listText, joinCommas]
  | cons head rest ih =>
      obtain ⟨credential, signOk⟩ := head
      rw [subDevicesLoop, List.forall_mem_cons]
      by_cases haccepted : Accepted (credential, signOk)
      · have hwritten : halSnprintf subDeviceParamLen (subDeviceFormat credential
            (signStr sha256 clientId timestamp credential)) =
              writtenText sha256 clientId timestamp (storedKeys credential) := by
          rw [signStr_eq hclientId htimestamp]
          exact subDevice_printed haccepted.1 (zero_not_mem_hex _) (length_sign _)
        have hzero := @zero_not_mem_writtenText sha256 clientId timestamp credential
        have hentry : 0 ∉ text ++
            writtenText sha256 clientId timestamp (storedKeys credential) := by
          rw [List.mem_append, not_or]
          exact ⟨htext, hzero⟩
        rw [if_neg ((not_refused_iff credential signOk).mpr haccepted), and_iff_right haccepted]
        dsimp only
        rw [hwritten, Outcome.bind_assoc, appendText_bind_eq_ok_iff htext]
        cases rest with
        | nil =>
            rw [List.isEmpty_nil, if_pos rfl, Outcome.pure_eq, Outcome.ok_bind, ih hentry,
              List.map_nil, List.map_singleton, listText_nil,
              listText_singleton, List.append_nil, List.length_append]
            exact ⟨fun hall => hall.2.2, fun hall => ⟨by omega, by omega, hall⟩⟩
        | cons next later =>
            have hcomma : 0 ∉ text ++ writtenText sha256 clientId timestamp
                (storedKeys credential) ++ [44] := by
              rw [List.mem_append, not_or]
              exact ⟨hentry, by decide⟩
            rw [List.isEmpty_cons, if_neg Bool.false_ne_true, Outcome.bind_assoc,
              appendText_bind_eq_ok_iff hentry, ih hcomma]
            simp only [List.map_cons, listText_cons_cons, List.append_assoc, List.singleton_append,
              List.length_append, List.length_cons]
            constructor
            · rintro ⟨-, -, -, -, hall⟩
              exact hall
            · intro hall
              exact ⟨by omega, by omega, by omega, by simp; omega, hall⟩
      · have hrefused := not_not.mp fun hnone =>
          haccepted ((not_refused_iff credential signOk).mp hnone)
        rw [if_pos hrefused]
        exact iff_of_false (by rintro ⟨⟩) fun hall => haccepted hall.1.1

end List

/-! ## Lengths -/

section Lengths

variable {sha256 : List UInt8 → Vector UInt8 32} {clientId timestamp : List UInt8}

theorem length_writtenText (keys : DeviceKeys) :
    (writtenText sha256 clientId timestamp keys).length =
      107 + keys.productKey.length + keys.deviceKey.length + (entryClosing keys).length := by
  have hfront := length_entryFront keys
  have hsign := @length_sign sha256 clientId timestamp keys
  rw [writtenText, loginText, List.length_append, List.length_cons, List.length_append,
    List.length_cons, hfront, hsign]
  omega

theorem length_entryClosing_le (keys : DeviceKeys) : (entryClosing keys).length ≤ 1 := by
  rw [entryClosing]
  split <;> decide

/-- Each entry takes at least this many bytes of the list. -/
theorem le_length_listText (entries : List DeviceKeys) :
    108 * entries.length ≤ (listText sha256 clientId timestamp entries).length + 1 := by
  induction entries with
  | nil => exact Nat.zero_le _
  | cons first rest ih =>
      have hfirst := @length_writtenText sha256 clientId timestamp first
      cases rest with
      | nil =>
          rw [listText_singleton, List.length_singleton]
          omega
      | cons next later =>
          simp only [listText_cons_cons, List.length_append, List.length_cons] at *
          omega

/-- Entries with keys within their limits have room in the list. -/
theorem length_listText_le {entries : List DeviceKeys}
    (hwithin : ∀ keys ∈ entries, keys.Within) :
    (listText sha256 clientId timestamp entries).length ≤ entries.length * subDeviceParamLen := by
  have hlen : subDeviceParamLen = 192 := rfl
  rw [hlen]
  induction entries with
  | nil => exact Nat.zero_le _
  | cons first rest ih =>
      obtain ⟨hkeys, hrest⟩ := List.forall_mem_cons.mp hwithin
      have hproductKey : first.productKey.length ≤ 20 := hkeys.productKey
      have hdeviceKey : first.deviceKey.length ≤ 64 := hkeys.deviceKey
      have hbound : (writtenText sha256 clientId timestamp first).length ≤ 191 := by
        rw [length_writtenText, entryClosing]
        split
        · rw [List.length_singleton]
          omega
        · rw [List.length_nil]
          omega
      cases rest with
      | nil =>
          rw [listText_singleton, List.length_singleton]
          omega
      | cons next later =>
          have hlater := ih hrest
          simp only [listText_cons_cons, List.length_append, List.length_cons] at *
          omega

/-- The length of a list of entries that are not cut. -/
theorem length_listText_of_room {entries : List DeviceKeys}
    (hroom : ∀ keys ∈ entries, keys.productKey.length + keys.deviceKey.length ≤ 83)
    (hsome : entries ≠ []) :
    (listText sha256 clientId timestamp entries).length + 1 =
      (entries.map fun keys => 109 + keys.productKey.length + keys.deviceKey.length).sum := by
  induction entries with
  | nil => exact absurd rfl hsome
  | cons first rest ih =>
      obtain ⟨hfirst, hrest⟩ := List.forall_mem_cons.mp hroom
      have hlength := @length_writtenText sha256 clientId timestamp first
      rw [entryClosing, if_pos hfirst, List.length_singleton] at hlength
      rw [List.map_cons, List.sum_cons]
      cases rest with
      | nil =>
          rw [listText_singleton, List.map_nil, List.sum_nil]
          omega
      | cons next later =>
          rw [listText_cons_cons, List.length_append, List.length_cons,
            ← ih hrest (List.cons_ne_nil _ _)]
          omega

end Lengths

/-! ## The lengths that the code computes -/

theorem subDevicesLen_eq (count : Nat) :
    subDevicesLen count = ((count * 192 + 1 : Nat) : Int).bmod (2 ^ 32) := rfl

theorem formatStrlen_batchParams (clientId timestamp subDevices : List UInt8) :
    formatStrlen (batchParamsFormat clientId timestamp subDevices) = 73 := by
  have hclientId : (ascii "\x7b\"clientId\":\"").length = 13 := by decide
  have hsignMethod : (ascii "\", \"signMethod\":\"").length = 17 := by decide
  have htimestamp : (ascii "\", \"timestamp\":\"").length = 16 := by decide
  have hsubDevices : (ascii "\", \"subDevices\":[").length = 17 := by decide
  have hend : (ascii "]\x7d").length = 2 := by decide
  simp [formatStrlen, batchParamsFormat, FormatPart.strlen, hclientId, hsignMethod, htimestamp,
    hsubDevices, hend]

theorem subDevicesLen_lt (count : Nat) : subDevicesLen count < 2 ^ 31 :=
  Int.bmod_lt (by decide)

theorem paramsLen_eq (clientId timestamp subDevices : List UInt8) :
    paramsLen clientId timestamp subDevices =
      ((80 + clientId.length + timestamp.length + subDevices.length : Nat) : Int).bmod
        (2 ^ 32) := by
  have hsign : dmMsgSignMethodSha256.strlen = 6 := by decide
  have hlen : (formatStrlen (batchParamsFormat clientId timestamp subDevices) + clientId.length +
      dmMsgSignMethodSha256.strlen + timestamp.length + subDevices.length + 1 : Int) =
        (80 + clientId.length + timestamp.length + subDevices.length : Nat) := by
    rw [formatStrlen_batchParams, hsign]
    omega
  exact congrArg (fun length => Int.bmod length (2 ^ 32)) hlen

theorem subDevicesBuffer_eq_ok_iff {count : Nat} {mallocOk : Bool} {buffer : List UInt8} :
    subDevicesBuffer count mallocOk = .ok buffer ↔
      mallocOk = true ∧ ∃ size : Nat, subDevicesLen count = size ∧ buffer = padded size [] := by
  rw [subDevicesBuffer]
  constructor
  · intro hbuffer
    split at hbuffer
    · cases hbuffer
    next hnone =>
      rw [not_or, Int.not_lt, Bool.not_eq_true, Bool.not_eq_false'] at hnone
      obtain ⟨size, hsize⟩ := Int.eq_ofNat_of_zero_le hnone.1
      refine ⟨hnone.2, size, hsize, ?_⟩
      rw [hsize, Int.toNat_natCast] at hbuffer
      exact (Outcome.ok.inj hbuffer).symm
  · rintro ⟨rfl, size, hsize, rfl⟩
    rw [if_neg, hsize, Int.toNat_natCast]
    rintro (hnegative | hfalse)
    · omega
    · exact absurd hfalse (by decide)

/-- A list whose buffer has an overflown length does not fit the buffer. -/
theorem fits_of_room {count size length : Nat} (hsize : subDevicesLen count = size)
    (hroom : length < size) (hlength : 108 * count ≤ length + 1) : count * 192 + 1 < 2 ^ 31 := by
  rw [subDevicesLen_eq] at hsize
  have hbound := @Int.bmod_lt ((count * 192 + 1 : Nat) : Int) (2 ^ 32) (by decide)
  by_contra hlong
  have hnegative := @bmod_of_long (count * 192 + 1) (by omega) (by omega)
  omega

/-! ## The parameters -/

/-- The parameters up to the list. -/
def paramsFront (clientId timestamp : List UInt8) : List UInt8 :=
  ascii "\x7b\"clientId\":\"" ++ clientId ++ ascii "\", \"signMethod\":\"" ++
    dmMsgSignMethodSha256.bytes ++ ascii "\", \"timestamp\":\"" ++ timestamp ++
    ascii "\", \"subDevices\":["

/-- The parameters. -/
def paramsText (clientId timestamp subDevices : List UInt8) : List UInt8 :=
  paramsFront clientId timestamp ++ subDevices ++ [93, 125]

theorem length_paramsText (clientId timestamp subDevices : List UInt8) :
    (paramsText clientId timestamp subDevices).length =
      71 + clientId.length + timestamp.length + subDevices.length := by
  have hclientId : (ascii "\x7b\"clientId\":\"").length = 13 := by decide
  have hsignMethod : (ascii "\", \"signMethod\":\"").length = 17 := by decide
  have htimestamp : (ascii "\", \"timestamp\":\"").length = 16 := by decide
  have hsubDevices : (ascii "\", \"subDevices\":[").length = 17 := by decide
  have hsign : dmMsgSignMethodSha256.bytes.length = 6 := by decide
  simp only [paramsText, paramsFront, List.length_append, List.length_cons, List.length_nil,
    hclientId, hsignMethod, htimestamp, hsubDevices, hsign]
  omega

theorem formatText_batchParams {clientId timestamp subDevices : List UInt8}
    (hclientId : 0 ∉ clientId) (htimestamp : 0 ∉ timestamp) (hsubDevices : 0 ∉ subDevices) :
    formatText (batchParamsFormat clientId timestamp subDevices) =
      paramsText clientId timestamp subDevices := by
  have hend : ascii "]\x7d" = [93, 125] := by decide
  simp [formatText, batchParamsFormat, FormatPart.print, paramsText, paramsFront, hend,
    arrayText_of_noNul hclientId, arrayText_of_noNul htimestamp, arrayText_of_noNul hsubDevices,
    arrayText_of_noNul dmMsgSignMethodSha256.noNul]

theorem zero_not_mem_timestampText (uptime : Nat) : 0 ∉ timestampText uptime :=
  zero_not_mem_halSnprintf (by simp) _

theorem zero_not_mem_listText {sha256 : List UInt8 → Vector UInt8 32}
    {clientId timestamp : List UInt8} (credentials : List (DeviceCredential × Bool)) :
    0 ∉ listText sha256 clientId timestamp
      (credentials.map fun credential => storedKeys credential.1) := by
  induction credentials with
  | nil => exact List.not_mem_nil
  | cons first rest ih =>
      have hfirst := @zero_not_mem_writtenText sha256 clientId timestamp first.1
      cases rest with
      | nil => rwa [List.map_singleton, listText_singleton]
      | cons next later =>
          rw [List.map_cons, List.map_cons, listText_cons_cons, List.mem_append, List.mem_cons,
            not_or, not_or]
          exact ⟨hfirst, by decide, ih⟩

theorem length_timestampText_le (uptime : Nat) : (timestampText uptime).length ≤ 19 :=
  List.length_take_le 19 _

/-- The parameters are printed whole if their length does not overflow. -/
theorem halSnprintf_batchParams {clientId timestamp subDevices : List UInt8}
    (hclientId : 0 ∉ clientId) (htimestamp : 0 ∉ timestamp) (hsubDevices : 0 ∉ subDevices)
    (hshort : 80 + clientId.length + timestamp.length + subDevices.length < 2 ^ 31) :
    0 ≤ paramsLen clientId timestamp subDevices ∧
      halSnprintf (paramsLen clientId timestamp subDevices).toNat
        (batchParamsFormat clientId timestamp subDevices) =
          paramsText clientId timestamp subDevices := by
  have hlength := length_paramsText clientId timestamp subDevices
  rw [paramsLen_eq, bmod_of_short hshort, Int.toNat_natCast, halSnprintf,
    formatText_batchParams hclientId htimestamp hsubDevices, List.take_of_length_le (by omega)]
  exact ⟨Int.natCast_nonneg _, rfl⟩

/-- For the parameters of a list that fits its own buffer the length overflows just once. -/
theorem short_of_paramsLen {clientId timestamp subDevices : List UInt8}
    (hclientId : clientId.length ≤ iotxProductKeyLen) (htimestamp : timestamp.length ≤ 19)
    (hsubDevices : subDevices.length < 2 ^ 31)
    (hpositive : 0 ≤ paramsLen clientId timestamp subDevices) :
    80 + clientId.length + timestamp.length + subDevices.length < 2 ^ 31 := by
  have hproductKey : iotxProductKeyLen = 20 := rfl
  rw [paramsLen_eq] at hpositive
  by_contra hlong
  exact absurd hpositive (Int.not_le.mpr (bmod_of_long (by omega) (by omega)))

section Params

variable {sha256 : List UInt8 → Vector UInt8 32} {productKey deviceKey : CString}
  {credentials : List (DeviceCredential × Bool)} {uptime : Nat} {memory : BatchMemory}
  {params : List UInt8}

theorem halSnprintf_clientId (hproductKey : productKey.strlen ≤ iotxProductKeyLen) :
    halSnprintf (iotxProductKeyLen + 1) [.s (productKey.stored (iotxProductKeyLen + 1))] =
      productKey.bytes := by
  have htext : formatText [.s (productKey.stored (iotxProductKeyLen + 1))] = productKey.bytes := by
    simp [formatText, FormatPart.print, productKey.arrayText_stored]
  rw [halSnprintf, htext]
  exact List.take_of_length_le hproductKey

/-- The parameters have the entries of the credentials, if all of them are accepted, there is
memory and no length overflows. -/
theorem dmMsgCombineLoginBatch_eq_ok_iff (hproductKey : productKey.strlen ≤ iotxProductKeyLen)
    (hdeviceKey : deviceKey.strlen ≤ iotxDeviceKeyLen) (hsome : credentials ≠ [])
    {subDevices : List UInt8}
    (hsubDevices : subDevices = listText sha256 productKey.bytes (timestampText uptime)
      (credentials.map fun credential => storedKeys credential.1)) :
    dmMsgCombineLoginBatch sha256 credentials (productKey.stored (iotxProductKeyLen + 1))
        (deviceKey.stored (iotxDeviceKeyLen + 1)) uptime memory = .ok params ↔
      (∀ credential ∈ credentials, Accepted credential) ∧
        (memory.subDevices = true ∧ memory.params = true) ∧
        credentials.length * 192 + 1 < 2 ^ 31 ∧
        80 + productKey.strlen + (timestampText uptime).length + subDevices.length < 2 ^ 31 ∧
        params = paramsText productKey.bytes (timestampText uptime) subDevices := by
  have hvalid : ¬(credentials = [] ∨
      arrayStrlen (productKey.stored (iotxProductKeyLen + 1)) ≥ iotxProductKeyLen + 1 ∨
      arrayStrlen (deviceKey.stored (iotxDeviceKeyLen + 1)) ≥ iotxDeviceKeyLen + 1) := by
    rw [arrayStrlen, arrayStrlen, productKey.arrayText_stored, deviceKey.arrayText_stored, not_or,
      not_or, Nat.not_le, Nat.not_le]
    exact ⟨hsome, Nat.lt_succ_of_le hproductKey, Nat.lt_succ_of_le hdeviceKey⟩
  have htimestamp := zero_not_mem_timestampText uptime
  have hlist := @zero_not_mem_listText sha256 productKey.bytes (timestampText uptime) credentials
  have hloop := fun size string => @subDevicesLoop_eq_ok_iff sha256 _ _ productKey.noNul htimestamp
    credentials size [] string List.not_mem_nil
  have hleast := @le_length_listText sha256 productKey.bytes (timestampText uptime)
    (credentials.map fun credential => storedKeys credential.1)
  have hmost := fun haccepted : ∀ credential ∈ credentials, Accepted credential =>
    @length_listText_le sha256 productKey.bytes (timestampText uptime)
      (credentials.map fun credential => storedKeys credential.1)
      (List.forall_mem_map.mpr fun credential hmem => (haccepted credential hmem).1)
  rw [List.length_map] at hleast hmost
  simp only [List.nil_append, ← hsubDevices] at hlist hloop hleast hmost
  rw [dmMsgCombineLoginBatch, if_neg hvalid]
  dsimp only
  rw [halSnprintf_clientId hproductKey]
  constructor
  · intro hok
    obtain ⟨buffer, hbuffer, hok⟩ := Outcome.bind_eq_ok_iff.mp hok
    obtain ⟨hmalloc, size, hsize, rfl⟩ := subDevicesBuffer_eq_ok_iff.mp hbuffer
    rw [← Outcome.bind_assoc] at hok
    obtain ⟨string, hstring, hok⟩ := Outcome.bind_eq_ok_iff.mp hok
    obtain ⟨haccepted, hroom, rfl⟩ := (hloop size string).mp hstring
    have hfits := fits_of_room hsize hroom hleast
    have hlong := hsize ▸ subDevicesLen_lt credentials.length
    split at hok
    · cases hok
    next hnone =>
      rw [not_or, Int.not_lt, Bool.not_eq_true, Bool.not_eq_false'] at hnone
      have hshort := short_of_paramsLen hproductKey (length_timestampText_le uptime)
        (by omega) hnone.1
      have hprinted := (halSnprintf_batchParams productKey.noNul htimestamp hlist hshort).2
      exact ⟨haccepted, ⟨hmalloc, hnone.2⟩, hfits, hshort,
        (hprinted ▸ Outcome.ok.inj hok).symm⟩
  · rintro ⟨haccepted, ⟨hmalloc, hmemory⟩, hfits, hshort, rfl⟩
    have hlen : subDevicesLen credentials.length = (credentials.length * 192 + 1 : Nat) := by
      rw [subDevicesLen_eq, bmod_of_short hfits]
    have hbuffer := subDevicesBuffer_eq_ok_iff.mpr ⟨hmalloc, _, hlen, rfl⟩
    have hstring := (hloop (credentials.length * 192 + 1) subDevices).mpr
      ⟨haccepted, Nat.lt_succ_of_le (hmost haccepted), rfl⟩
    obtain ⟨hpositive, hprinted⟩ :=
      halSnprintf_batchParams productKey.noNul htimestamp hlist hshort
    rw [hbuffer, Outcome.ok_bind, ← Outcome.bind_assoc, hstring, Outcome.ok_bind, if_neg, hprinted]
    · rfl
    · rw [not_or, Int.not_lt, hmemory]
      exact ⟨hpositive, by decide⟩

end Params

/-! ## The parameters as a document -/

/-- A member behind a comma and a blank. -/
def laterMember (key : List UInt8) (value : Doc) : Frame × Doc :=
  (memberFrame [32] key [] [], value)

/-- An object with a blank behind each comma. -/
def spacedOf : List (List UInt8 × Doc) → Doc
  | [] => .nest .object [] []
  | first :: rest =>
      .nest .object [] (member first.1 first.2 ::
        rest.map fun entry => laterMember entry.1 entry.2)

theorem spacedOf_wellFormed {levels : Nat} {members : List (List UInt8 × Doc)}
    (hkeys : ∀ entry ∈ members, StringBody entry.1)
    (hvalues : ∀ entry ∈ members, entry.2.WellFormed levels) :
    (spacedOf members).WellFormed (levels + 1) := by
  cases members with
  | nil => exact .nest blank_nil (List.forall_mem_nil _) (List.forall_mem_nil _)
  | cons first rest =>
      obtain ⟨hkey, hkeys⟩ := List.forall_mem_cons.mp hkeys
      obtain ⟨hvalue, hvalues⟩ := List.forall_mem_cons.mp hvalues
      have hblank : Blank [32] := List.forall_mem_singleton.mpr (by decide)
      refine .nest blank_nil (List.forall_mem_cons.mpr ⟨member_fits hkey first.2, ?_⟩)
        (List.forall_mem_cons.mpr ⟨hvalue, ?_⟩)
      · exact List.forall_mem_map.mpr fun entry hentry =>
          memberFrame_fits hblank (hkeys entry hentry) blank_nil blank_nil
      · exact List.forall_mem_map.mpr hvalues

theorem field_spacedOf (members : List (List UInt8 × Doc)) (key : List UInt8) :
    (spacedOf members).field key =
      (members.find? fun entry => entry.1 = key).map Prod.snd := by
  cases members with
  | nil => rfl
  | cons first rest =>
      have hlater : (rest.map fun entry => laterMember entry.1 entry.2).find?
          (fun entry => keyOf entry = key) =
            (rest.find? fun entry => entry.1 = key).map fun entry =>
              laterMember entry.1 entry.2 := List.find?_map
      rw [spacedOf, Doc.field, List.find?_cons, List.find?_cons, keyOf_member, hlater]
      cases decide (first.1 = key) with
      | true => rfl
      | false => exact Option.map_map ..

/-- The text of a member. -/
def memberText (entry : List UInt8 × Doc) : List UInt8 :=
  34 :: (entry.1 ++ 34 :: 58 :: entry.2.render)

theorem render_spacedOf (first : List UInt8 × Doc) (rest : List (List UInt8 × Doc)) :
    (spacedOf (first :: rest)).render =
      123 :: (memberText first ++ (rest.map fun entry => 44 :: 32 :: memberText entry).flatten) ++
        [125] := by
  have hfirst : entryText (member first.1 first.2) = memberText first := by
    simp [entryText, member, Frame.wrap, Frame.lead, Label.render, memberText]
  have hlater : ∀ entry : List UInt8 × Doc,
      entryText (laterMember entry.1 entry.2) = 32 :: memberText entry := by
    intro entry
    simp [entryText, laterMember, memberFrame, Frame.wrap, Frame.lead, Label.render, memberText]
  rw [spacedOf, render_nest, bodyText, List.map_cons, joinCommas, hfirst, List.map_map,
    List.map_map]
  simp only [Function.comp_def, hlater]
  rfl

theorem render_string (body : List UInt8) :
    (Doc.scalar (.string body)).render = 34 :: (body ++ [34]) := rfl

/-- An entry. -/
def entryDoc (entry : LoginEntry) : Doc :=
  spacedOf [(ascii "productKey", .scalar (.string entry.productKey)),
    (ascii "deviceKey", .scalar (.string entry.deviceKey)),
    (ascii "sign", .scalar (.string entry.sign))]

/-- The parameters. -/
def batchDoc (clientId timestamp : List UInt8) (entries : List LoginEntry) : Doc :=
  spacedOf [(ascii "clientId", .scalar (.string clientId)),
    (ascii "signMethod", .scalar (.string dmMsgSignMethodSha256.bytes)),
    (ascii "timestamp", .scalar (.string timestamp)),
    (ascii "subDevices",
      .nest .array [] (entries.map fun entry => (elementFrame [], entryDoc entry)))]

section Documents

variable {sha256 : List UInt8 → Vector UInt8 32} {clientId timestamp : List UInt8}

/-- What is written for keys that leave room is their entry. -/
theorem render_entryDoc {keys : DeviceKeys}
    (hroom : keys.productKey.length + keys.deviceKey.length ≤ 83) :
    (entryDoc (keys.entry sha256 clientId timestamp)).render =
      writtenText sha256 clientId timestamp keys := by
  have hproductKey : ascii "\x7b\"productKey\":\"" =
      123 :: 34 :: (ascii "productKey" ++ [34, 58, 34]) := by decide
  have hdeviceKey : ascii "\", \"deviceKey\":\"" =
      34 :: 44 :: 32 :: 34 :: (ascii "deviceKey" ++ [34, 58, 34]) := by decide
  have hsign : ascii "\", \"sign\":" = 34 :: 44 :: 32 :: 34 :: (ascii "sign" ++ [34, 58]) := by
    decide
  rw [writtenText, loginText, entryFront, entryClosing, if_pos hroom, hproductKey, hdeviceKey,
    hsign]
  simp [entryDoc, DeviceKeys.entry, render_spacedOf, memberText, render_string]

/-- The parameters with such entries are a document. -/
theorem render_batchDoc {entries : List LoginEntry} :
    (batchDoc clientId timestamp entries).render =
      paramsText clientId timestamp
        (joinCommas (entries.map fun entry => (entryDoc entry).render)) := by
  have hclientId : ascii "\x7b\"clientId\":\"" =
      123 :: 34 :: (ascii "clientId" ++ [34, 58, 34]) := by decide
  have hsignMethod : ascii "\", \"signMethod\":\"" =
      34 :: 44 :: 32 :: 34 :: (ascii "signMethod" ++ [34, 58, 34]) := by decide
  have htimestamp : ascii "\", \"timestamp\":\"" =
      34 :: 44 :: 32 :: 34 :: (ascii "timestamp" ++ [34, 58, 34]) := by decide
  have hsubDevices : ascii "\", \"subDevices\":[" =
      34 :: 44 :: 32 :: 34 :: (ascii "subDevices" ++ [34, 58, 91]) := by decide
  have hlist : (Doc.nest .array []
      (entries.map fun entry => (elementFrame [], entryDoc entry))).render =
      91 :: (joinCommas (entries.map fun entry => (entryDoc entry).render) ++ [93]) := by
    have htexts : (entries.map fun entry => (elementFrame [], entryDoc entry)).map entryText =
        entries.map fun entry => (entryDoc entry).render := by
      rw [List.map_map]
      exact List.map_congr_left fun entry _ => by
        simp [entryText, Frame.wrap, Frame.lead, elementFrame]
    cases entries with
    | nil => rfl
    | cons entry rest =>
        rw [render_nest, ← htexts]
        rfl
  rw [paramsText, paramsFront, hclientId, hsignMethod, htimestamp, hsubDevices]
  simp [batchDoc, render_spacedOf, memberText, render_string, hlist]

theorem entryDoc_wellFormed {levels : Nat} {entry : LoginEntry}
    (hproductKey : StringBody entry.productKey) (hdeviceKey : StringBody entry.deviceKey)
    (hsign : StringBody entry.sign) : (entryDoc entry).WellFormed (levels + 1) := by
  apply spacedOf_wellFormed
  · simp only [List.forall_mem_cons, List.not_mem_nil, false_imp_iff, implies_true, and_true]
    exact ⟨stringBody_of_plain (by decide), stringBody_of_plain (by decide),
      stringBody_of_plain (by decide)⟩
  · simp only [List.forall_mem_cons, List.not_mem_nil, false_imp_iff, implies_true, and_true]
    exact ⟨.scalar hproductKey, .scalar hdeviceKey, .scalar hsign⟩

theorem batchDoc_wellFormed {entries : List LoginEntry} (hclientId : StringBody clientId)
    (htimestamp : StringBody timestamp)
    (hentries : ∀ entry ∈ entries, (entryDoc entry).WellFormed 1) :
    (batchDoc clientId timestamp entries).WellFormed 3 := by
  apply spacedOf_wellFormed
  · simp only [List.forall_mem_cons, List.not_mem_nil, false_imp_iff, implies_true, and_true]
    exact ⟨stringBody_of_plain (by decide), stringBody_of_plain (by decide),
      stringBody_of_plain (by decide), stringBody_of_plain (by decide)⟩
  · simp only [List.forall_mem_cons, List.not_mem_nil, false_imp_iff, implies_true, and_true]
    refine ⟨.scalar hclientId, .scalar (stringBody_of_plain (by decide)), .scalar htimestamp,
      .nest blank_nil ?_ ?_⟩
    · exact List.forall_mem_map.mpr fun _ _ => elementFrame_fits blank_nil
    · exact List.forall_mem_map.mpr hentries

/-- An entry is read back from its document. -/
theorem entryOf_entryDoc (entry : LoginEntry) : entryOf (entryDoc entry) = some entry := by
  have hproductKey : (entryDoc entry).field (ascii "productKey") =
      some (.scalar (.string entry.productKey)) := by
    rw [entryDoc, field_spacedOf]
    rfl
  have hdeviceKey : (entryDoc entry).field (ascii "deviceKey") =
      some (.scalar (.string entry.deviceKey)) := by
    rw [entryDoc, field_spacedOf]
    rfl
  have hsign : (entryDoc entry).field (ascii "sign") = some (.scalar (.string entry.sign)) := by
    rw [entryDoc, field_spacedOf]
    rfl
  rw [entryOf, hproductKey, hdeviceKey, hsign]
  rfl

theorem entriesOf_entryDocs (entries : List LoginEntry) :
    entriesOf (.nest .array [] (entries.map fun entry => (elementFrame [], entryDoc entry))) =
      some entries := by
  rw [entriesOf]
  induction entries with
  | nil => rfl
  | cons entry rest ih =>
      rw [List.map_cons, List.mapM_cons, entryOf_entryDoc, ih]
      rfl

/-- The parameters are right if the strings can stand between quotes and the keys leave room. -/
theorem logsIn_paramsText {entries : List DeviceKeys} (hclientId : StringBody clientId)
    (htimestamp : StringBody timestamp)
    (hentries : ∀ keys ∈ entries, StringBody keys.productKey ∧ StringBody keys.deviceKey ∧
      keys.productKey.length + keys.deviceKey.length ≤ 83) :
    LogsIn (paramsText clientId timestamp (listText sha256 clientId timestamp entries)) clientId
      timestamp (entries.map fun keys => keys.entry sha256 clientId timestamp) := by
  have hdocs : ∀ entry ∈ entries.map fun keys => keys.entry sha256 clientId timestamp,
      (entryDoc entry).WellFormed 1 :=
    List.forall_mem_map.mpr fun keys hkeys =>
      entryDoc_wellFormed (hentries keys hkeys).1 (hentries keys hkeys).2.1 (stringBody_hex _)
  refine ⟨batchDoc clientId timestamp
    (entries.map fun keys => keys.entry sha256 clientId timestamp),
    (batchDoc_wellFormed hclientId htimestamp hdocs).mono (by decide), ?_, ?_, ?_, ?_⟩
  · rw [render_batchDoc, listText, List.map_map]
    exact congrArg (fun texts => paramsText clientId timestamp (joinCommas texts))
      (List.map_congr_left fun keys hkeys => render_entryDoc (hentries keys hkeys).2.2)
  · rw [batchDoc, field_spacedOf]
    rfl
  · rw [batchDoc, field_spacedOf]
    rfl
  · have hfield : (batchDoc clientId timestamp
        (entries.map fun keys => keys.entry sha256 clientId timestamp)).field
          (ascii "subDevices") = some (.nest .array []
            ((entries.map fun keys => keys.entry sha256 clientId timestamp).map fun entry =>
              (elementFrame [], entryDoc entry))) := by
      rw [batchDoc, field_spacedOf]
      rfl
    rw [hfield, Option.bind_some, entriesOf_entryDocs]

end Documents

end EnosDeviceSdk.DevModel.BatchLogin
