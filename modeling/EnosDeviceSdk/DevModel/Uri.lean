/-
# The topics of a device

A topic begins with a prefix that names its device by the product key and the device key, and goes
on with the name of a service. It is built from the three, and the keys are found in it again
by counting slashes. The method of a request that the user posts under a name of its own becomes
the name of the service with its dots for slashes, and the method of the reply is the end of the
reply's topic with its slashes for dots.

A slash at the very end of a topic is not counted, and a slash in a method comes back as a dot.
-/

import EnosDeviceSdk.Infra.Printf
import EnosDeviceSdk.DevModel.Manager

namespace EnosDeviceSdk.DevModel

open EnosDeviceSdk.Infra EnosDeviceSdk.Library

/-- `DM_URI_SERVICE_DELIMITER` -/
def dmUriServiceDelimiter : UInt8 := 47

/-- `DM_ENOS_METHOD_DELIMITER` -/
def dmEnosMethodDelimiter : UInt8 := 46

/-- `DM_URI_REPLY_SUFFIX` -/
def dmUriReplySuffix : List UInt8 := ascii "_reply"

/-- `memcpy` of the bytes to a place of an array. Bytes that do not fit go astray. -/
def copyAt (array : List UInt8) (place : Nat) (bytes : List UInt8) : Outcome (List UInt8) :=
  if place + bytes.length ≤ array.length then
    .ok (array.take place ++ bytes ++ array.drop (place + bytes.length))
  else .stray

/-- Bytes are appended to what was copied into a zeroed array. -/
theorem copyAt_padded {size : Nat} {text bytes : List UInt8}
    (hroom : text.length + bytes.length ≤ size) :
    copyAt (padded size text) text.length bytes = .ok (padded size (text ++ bytes)) := by
  have hlength : (padded size text).length = size := by
    rw [padded, List.length_append, List.length_replicate]
    omega
  have hzeros : size - text.length - bytes.length = size - (text ++ bytes).length := by
    rw [List.length_append]
    omega
  rw [copyAt, if_pos (by omega), padded, padded, List.take_left, ← List.drop_drop, List.drop_left,
    List.drop_replicate, hzeros]

theorem copyAt_zeros {size : Nat} {bytes : List UInt8} (hroom : bytes.length ≤ size) :
    copyAt (padded size []) 0 bytes = .ok (padded size bytes) := by
  have hcopy := @copyAt_padded size [] bytes (by simpa using hroom)
  rwa [List.length_nil, List.nil_append] at hcopy

theorem copyAt_zeros_stray {size : Nat} {bytes : List UInt8} (hlong : size < bytes.length) :
    copyAt (padded size []) 0 bytes = .stray := by
  have hlength : (padded size []).length = size := by
    rw [padded, List.nil_append, List.length_replicate, List.length_nil, Nat.sub_zero]
  rw [copyAt, if_neg (by omega)]

/-! ## Building a topic -/

/-- The prefixes `DM_URI_SYS_PREFIX` and `DM_URI_EXT_SESSION_PREFIX`. -/
inductive UriPrefix
  | sys | extSession
  deriving DecidableEq

/-- What a prefix has before the keys. -/
def UriPrefix.start : UriPrefix → List UInt8
  | .sys => ascii "/sys/"
  | .extSession => ascii "/ext/session/"

/-- The format of a prefix, with the keys that are printed. -/
def UriPrefix.format (kind : UriPrefix) (productKey deviceKey : CString) : List FormatPart :=
  [.text kind.start, .s productKey.bytes, .text [dmUriServiceDelimiter], .s deviceKey.bytes,
    .text [dmUriServiceDelimiter]]

/-- `dm_utils_service_name`: the buffer that it allocates. -/
def dmUtilsServiceName (uriPrefix : Option UriPrefix) (name : Option CString)
    (productKey deviceKey : CString) (mallocOk : Bool) : Outcome (List UInt8) :=
  let format := (uriPrefix.map fun kind => kind.format productKey deviceKey).getD []
  let nameText := (name.map CString.bytes).getD []
  if (uriPrefix.isNone ∧ name.isNone) ∨ !mallocOk then .failed
  else
    let serviceNameLen := formatStrlen format + nameText.length + productKey.strlen +
      deviceKey.strlen + 1
    let serviceName := padded serviceNameLen
      (if uriPrefix.isSome then halSnprintf serviceNameLen format else [])
    copyAt serviceName (arrayStrlen serviceName) nameText

/-! ## Finding the keys -/

/-- The loop of `dm_utils_memtok`. -/
def memtokLoop (delimiter : UInt8) (index : Nat) : List UInt8 → Nat → Nat → Option Nat
  | [], _, _ => none
  | char :: rest, itemIndex, count =>
      if char = delimiter ∧ rest ≠ [] then
        if count + 1 = index then some itemIndex
        else memtokLoop delimiter index rest (itemIndex + 1) (count + 1)
      else memtokLoop delimiter index rest (itemIndex + 1) count

/-- `dm_utils_memtok`: the place of a delimiter that is not the last byte. -/
def dmUtilsMemtok (input : List UInt8) (delimiter : UInt8) (index : Nat) : Option Nat :=
  memtokLoop delimiter index input 0 0

/-- `dm_msg_uri_parse_pkdk`: the two arrays after it. Its callers count to a delimiter behind the
one that separates the keys. -/
def dmMsgUriParsePkdk (uri : List UInt8) (startDeli endDeli : Nat)
    (productKey deviceKey : List UInt8) : Outcome (List UInt8 × List UInt8) :=
  if iotxProductKeyLen + 1 ≤ arrayStrlen productKey ∨
      iotxDeviceKeyLen + 1 ≤ arrayStrlen deviceKey then .failed
  else
    match dmUtilsMemtok uri dmUriServiceDelimiter startDeli,
        dmUtilsMemtok uri dmUriServiceDelimiter (startDeli + 1),
        dmUtilsMemtok uri dmUriServiceDelimiter endDeli with
    | some start, some slice, some finish => do
        let productKey ← copyAt productKey 0 ((uri.drop (start + 1)).take (slice - start - 1))
        let deviceKey ← copyAt deviceKey 0 ((uri.drop (slice + 1)).take (finish - slice - 1))
        return (productKey, deviceKey)
    | _, _, _ => .failed

/-- The keys of a topic, for which every handler has zeroed arrays. -/
def uriKeys (uri : List UInt8) : Outcome (List UInt8 × List UInt8) :=
  dmMsgUriParsePkdk uri 2 4 (padded (iotxProductKeyLen + 1) []) (padded (iotxDeviceKeyLen + 1) [])

/-! ## Methods -/

/-- `infra_str_replace` -/
def infraStrReplace (origin : List UInt8) (src dst : UInt8) : List UInt8 :=
  origin.map fun char => if char = src then dst else char

/-- The topic of the request that `dm_mgr_upstream_common` sends for a device. -/
def upstreamCommonUri (ctx : DmMgrCtx) (devid : Int) (method : CString) : Option (List UInt8) :=
  if devid < 0 then none
  else do
    let node ← dmMgrSearchDevByDevid ctx devid
    let serviceName := CString.ofArray
      (infraStrReplace method.bytes dmEnosMethodDelimiter dmUriServiceDelimiter)
    let uri ← (dmUtilsServiceName (some .sys) (some serviceName) (.ofArray node.productKey)
      (.ofArray node.deviceKey) true).toOption
    return arrayText uri

/-- The method that `dm_msg_proc_thing_reply` takes from the topic of a reply. -/
def thingReplyMethod (uri : List UInt8) : Option (List UInt8) :=
  (dmUtilsMemtok uri dmUriServiceDelimiter 4).map fun methodStartPos =>
    (infraStrReplace uri dmUriServiceDelimiter dmEnosMethodDelimiter).drop (methodStartPos + 1)

/-! ## Counting delimiters -/

/-- A delimiter is found at the place that has the right number of them before it, if something
follows it. -/
theorem memtokLoop_eq_some_iff {delimiter : UInt8} {index place : Nat} {input : List UInt8}
    {itemIndex count : Nat} (hcount : count < index) :
    memtokLoop delimiter index input itemIndex count = some place ↔
      ∃ front back, input = front ++ delimiter :: back ∧ back ≠ [] ∧
        count + front.count delimiter + 1 = index ∧ place = itemIndex + front.length := by
  induction input generalizing itemIndex count with
  | nil =>
      refine iff_of_false (fun hnone => (nomatch hnone)) ?_
      rintro ⟨front, back, hsplit, -⟩
      exact absurd hsplit.symm (List.append_ne_nil_of_right_ne_nil front (List.cons_ne_nil _ _))
  | cons char rest ih =>
      rw [memtokLoop]
      by_cases hchar : char = delimiter ∧ rest ≠ []
      · rw [if_pos hchar]
        by_cases hindex : count + 1 = index
        · rw [if_pos hindex, Option.some.injEq]
          constructor
          · rintro rfl
            exact ⟨[], rest, by rw [hchar.1, List.nil_append], hchar.2, by simpa using hindex, rfl⟩
          · rintro ⟨front, back, hsplit, -, hcountEq, rfl⟩
            rcases List.cons_eq_append_iff.mp hsplit with ⟨rfl, -⟩ | ⟨front, rfl, -⟩
            · rfl
            · rw [hchar.1, List.count_cons_self] at hcountEq
              omega
        · rw [if_neg hindex, ih (by omega)]
          constructor
          · rintro ⟨front, back, rfl, hback, hcountEq, rfl⟩
            refine ⟨char :: front, back, rfl, hback, ?_, ?_⟩
            · rw [hchar.1, List.count_cons_self]
              omega
            · rw [List.length_cons]
              omega
          · rintro ⟨front, back, hsplit, hback, hcountEq, rfl⟩
            rcases List.cons_eq_append_iff.mp hsplit with ⟨rfl, -⟩ | ⟨front, rfl, hrest⟩
            · exact absurd hcountEq hindex
            · rw [hchar.1, List.count_cons_self] at hcountEq
              refine ⟨front, back, hrest, hback, by omega, ?_⟩
              rw [List.length_cons]
              omega
      · rw [if_neg hchar, ih hcount]
        constructor
        · rintro ⟨front, back, rfl, hback, hcountEq, rfl⟩
          have hne : char ≠ delimiter := fun hsame =>
            hchar ⟨hsame, List.append_ne_nil_of_right_ne_nil front (List.cons_ne_nil _ _)⟩
          refine ⟨char :: front, back, rfl, hback, ?_, ?_⟩
          · rw [List.count_cons_of_ne hne]
            exact hcountEq
          · rw [List.length_cons]
            omega
        · rintro ⟨front, back, hsplit, hback, hcountEq, rfl⟩
          rcases List.cons_eq_append_iff.mp hsplit with ⟨rfl, hfirst⟩ | ⟨front, rfl, rfl⟩
          · obtain ⟨hsame, hrest⟩ := List.cons_eq_cons.mp hfirst
            exact absurd ⟨hsame.symm, hrest ▸ hback⟩ hchar
          · have hne : char ≠ delimiter := fun hsame =>
              hchar ⟨hsame, List.append_ne_nil_of_right_ne_nil front (List.cons_ne_nil _ _)⟩
            rw [List.count_cons_of_ne hne] at hcountEq
            refine ⟨front, back, rfl, hback, hcountEq, ?_⟩
            rw [List.length_cons]
            omega

theorem dmUtilsMemtok_eq_some_iff {delimiter : UInt8} {index place : Nat} {input : List UInt8}
    (hindex : 0 < index) :
    dmUtilsMemtok input delimiter index = some place ↔
      ∃ front back, input = front ++ delimiter :: back ∧ back ≠ [] ∧
        front.count delimiter + 1 = index ∧ place = front.length := by
  rw [dmUtilsMemtok, memtokLoop_eq_some_iff hindex]
  simp only [Nat.zero_add]

/-- The bytes of a list between two of its parts. -/
theorem take_drop_middle (front middle back : List UInt8) (first second : UInt8) :
    ((front ++ first :: (middle ++ second :: back)).drop (front.length + 1)).take
        ((front ++ first :: middle).length - front.length - 1) = middle := by
  have hfront : (front ++ [first]).length = front.length + 1 := by
    rw [List.length_append, List.length_singleton]
  have hmiddle : (front ++ first :: middle).length - front.length - 1 = middle.length := by
    rw [List.length_append, List.length_cons]
    omega
  rw [hmiddle, ← hfront, List.append_cons front first (middle ++ second :: back), List.drop_left,
    List.take_left]

/-- The next delimiter is reached over bytes that are none. -/
theorem split_of_count {delimiter : UInt8} {front second back rest : List UInt8}
    (hsame : front ++ delimiter :: back = second ++ delimiter :: rest)
    (hcount : second.count delimiter = front.count delimiter + 1) :
    ∃ middle, second = front ++ delimiter :: middle ∧ back = middle ++ delimiter :: rest ∧
      delimiter ∉ middle := by
  rcases List.append_eq_append_iff.mp hsame with ⟨between, rfl, hbetween⟩ | ⟨between, rfl, -⟩
  · rcases List.cons_eq_append_iff.mp hbetween with ⟨rfl, -⟩ | ⟨middle, rfl, hback⟩
    · rw [List.append_nil] at hcount
      omega
    · rw [List.count_append, List.count_cons_self] at hcount
      exact ⟨middle, rfl, hback, List.count_eq_zero.mp (by omega)⟩
  · rw [List.count_append] at hcount
    omega

/-! ## The keys of a topic -/

/-- The keys stand between the second and the fourth slash, and something follows the latter. -/
def HasKeys (uri productKey deviceKey : List UInt8) : Prop :=
  ∃ head tail, uri = head ++ dmUriServiceDelimiter :: (productKey ++ dmUriServiceDelimiter ::
      (deviceKey ++ dmUriServiceDelimiter :: tail)) ∧
    head.count dmUriServiceDelimiter = 1 ∧ dmUriServiceDelimiter ∉ productKey ∧
    dmUriServiceDelimiter ∉ deviceKey ∧ tail ≠ []

section Keys

variable {uri productKey deviceKey : List UInt8}

/-- The keys are copied into zeroed arrays, if they fit. -/
theorem HasKeys.uriKeys_eq (hkeys : HasKeys uri productKey deviceKey) :
    uriKeys uri = (do
      let first ← copyAt (padded (iotxProductKeyLen + 1) []) 0 productKey
      let second ← copyAt (padded (iotxDeviceKeyLen + 1) []) 0 deviceKey
      return (first, second)) := by
  obtain ⟨head, tail, huri, hhead, hproduct, hdevice, htail⟩ := hkeys
  have hproductCount := List.count_eq_zero.mpr hproduct
  have hdeviceCount := List.count_eq_zero.mpr hdevice
  have hstart : dmUtilsMemtok uri dmUriServiceDelimiter 2 = some head.length := by
    refine (dmUtilsMemtok_eq_some_iff (by decide)).mpr ⟨head, _, huri, ?_, by omega, rfl⟩
    exact List.append_ne_nil_of_right_ne_nil _ (List.cons_ne_nil _ _)
  have hslice : dmUtilsMemtok uri dmUriServiceDelimiter 3 =
      some (head ++ dmUriServiceDelimiter :: productKey).length := by
    refine (dmUtilsMemtok_eq_some_iff (by decide)).mpr
      ⟨head ++ dmUriServiceDelimiter :: productKey, deviceKey ++ dmUriServiceDelimiter :: tail, ?_,
        List.append_ne_nil_of_right_ne_nil _ (List.cons_ne_nil _ _), ?_, rfl⟩
    · rw [huri, List.append_assoc, List.cons_append]
    · rw [List.count_append, List.count_cons_self]
      omega
  have hfinish : dmUtilsMemtok uri dmUriServiceDelimiter 4 =
      some (head ++ dmUriServiceDelimiter :: productKey ++
        dmUriServiceDelimiter :: deviceKey).length := by
    refine (dmUtilsMemtok_eq_some_iff (by decide)).mpr
      ⟨head ++ dmUriServiceDelimiter :: productKey ++ dmUriServiceDelimiter :: deviceKey, tail,
        ?_, htail, ?_, rfl⟩
    · rw [huri, List.append_assoc, List.append_assoc, List.cons_append, List.cons_append]
    · rw [List.count_append, List.count_append, List.count_cons_self, List.count_cons_self]
      omega
  have hfirst : (uri.drop (head.length + 1)).take
      ((head ++ dmUriServiceDelimiter :: productKey).length - head.length - 1) = productKey := by
    rw [huri]
    exact take_drop_middle head productKey _ _ _
  have hsecond : (uri.drop ((head ++ dmUriServiceDelimiter :: productKey).length + 1)).take
      ((head ++ dmUriServiceDelimiter :: productKey ++ dmUriServiceDelimiter :: deviceKey).length -
        (head ++ dmUriServiceDelimiter :: productKey).length - 1) = deviceKey := by
    have huri' : uri = (head ++ dmUriServiceDelimiter :: productKey) ++
        dmUriServiceDelimiter :: (deviceKey ++ dmUriServiceDelimiter :: tail) := by
      rw [huri, List.append_assoc, List.cons_append]
    rw [huri']
    exact take_drop_middle _ deviceKey _ _ _
  rw [uriKeys, dmMsgUriParsePkdk, if_neg (by decide), hstart, hslice, hfinish]
  dsimp only
  rw [hfirst, hsecond]

/-- A topic without keys is rejected. -/
theorem uriKeys_failed (hnone : ∀ productKey deviceKey, ¬ HasKeys uri productKey deviceKey) :
    uriKeys uri = .failed := by
  rw [uriKeys, dmMsgUriParsePkdk, if_neg (by decide)]
  cases hstart : dmUtilsMemtok uri dmUriServiceDelimiter 2 with
  | none => rfl
  | some start =>
      cases hslice : dmUtilsMemtok uri dmUriServiceDelimiter (2 + 1) with
      | none => rfl
      | some slice =>
          cases hfinish : dmUtilsMemtok uri dmUriServiceDelimiter 4 with
          | none => rfl
          | some finish =>
              obtain ⟨head, back, huri, -, hhead, -⟩ :=
                (dmUtilsMemtok_eq_some_iff (by decide)).mp hstart
              obtain ⟨second, back', huri', -, hsecond, -⟩ :=
                (dmUtilsMemtok_eq_some_iff (by decide)).mp hslice
              obtain ⟨third, tail, huri'', htail, hthird, -⟩ :=
                (dmUtilsMemtok_eq_some_iff (by decide)).mp hfinish
              obtain ⟨productKey, rfl, rfl, hproduct⟩ :=
                split_of_count (huri.symm.trans huri') (by omega)
              obtain ⟨deviceKey, -, rfl, hdevice⟩ :=
                split_of_count (huri'.symm.trans huri'') (by omega)
              exact absurd ⟨head, tail, huri, by omega, hproduct, hdevice, htail⟩
                (hnone productKey deviceKey)

end Keys

/-! ## There and back -/

/-- A topic of a device. -/
def UriPrefix.topic (kind : UriPrefix) (productKey deviceKey name : CString) : List UInt8 :=
  kind.start ++ productKey.bytes ++ dmUriServiceDelimiter ::
    (deviceKey.bytes ++ dmUriServiceDelimiter :: name.bytes)

/-- The name of a service is not cut, has a terminator, and gives the keys back. -/
def FaithfulTopic (productKey deviceKey name : CString) : Prop :=
  ∃ serviceName, dmUtilsServiceName (some .sys) (some name) productKey deviceKey true =
      .ok serviceName ∧ 0 ∈ serviceName ∧
    arrayText serviceName = UriPrefix.sys.topic productKey deviceKey name ∧
    uriKeys (arrayText serviceName) = .ok (padded (iotxProductKeyLen + 1) productKey.bytes,
      padded (iotxDeviceKeyLen + 1) deviceKey.bytes)

/-- The reply to a request of the user is passed on under its method, with the suffix. -/
def PassesMethod (ctx : DmMgrCtx) (devid : Int) (method : CString) : Prop :=
  ∃ uri, upstreamCommonUri ctx devid method = some uri ∧
    thingReplyMethod (uri ++ dmUriReplySuffix) = some (method.bytes ++ dmUriReplySuffix)

section RoundTrip

variable (kind : UriPrefix) (productKey deviceKey name : CString)

theorem zero_not_mem_topic : 0 ∉ kind.topic productKey deviceKey name := by
  have hstart : 0 ∉ kind.start := by cases kind <;> decide
  simp only [UriPrefix.topic, List.mem_append, List.mem_cons, not_or]
  exact ⟨⟨hstart, productKey.noNul⟩, by decide, deviceKey.noNul, by decide, name.noNul⟩

/-- The buffer has room for the topic and a terminator. -/
theorem dmUtilsServiceName_eq :
    dmUtilsServiceName (some kind) (some name) productKey deviceKey true =
      .ok (padded ((kind.topic productKey deviceKey name).length + 5)
        (kind.topic productKey deviceKey name)) := by
  have hformat : formatText (kind.format productKey deviceKey) =
      kind.start ++ productKey.bytes ++
        dmUriServiceDelimiter :: (deviceKey.bytes ++ [dmUriServiceDelimiter]) := by
    simp [formatText, UriPrefix.format, FormatPart.print, arrayText_of_noNul productKey.noNul,
      arrayText_of_noNul deviceKey.noNul]
  have htopic : formatText (kind.format productKey deviceKey) ++ name.bytes =
      kind.topic productKey deviceKey name := by
    simp [hformat, UriPrefix.topic]
  have hlength := congrArg List.length htopic
  rw [List.length_append] at hlength
  have hsize : formatStrlen (kind.format productKey deviceKey) + name.bytes.length +
      productKey.strlen + deviceKey.strlen + 1 =
        (kind.topic productKey deviceKey name).length + 5 := by
    simp only [formatStrlen, UriPrefix.format, FormatPart.strlen, UriPrefix.topic,
      CString.strlen, List.map_cons, List.map_nil, List.sum_cons, List.sum_nil, List.length_cons,
      List.length_append, List.length_nil]
    omega
  have hnoNul : 0 ∉ formatText (kind.format productKey deviceKey) := by
    have hwhole := zero_not_mem_topic kind productKey deviceKey name
    rw [← htopic] at hwhole
    exact fun hzero => hwhole (List.mem_append_left _ hzero)
  have hprint : halSnprintf ((kind.topic productKey deviceKey name).length + 5)
      (kind.format productKey deviceKey) = formatText (kind.format productKey deviceKey) := by
    rw [halSnprintf, List.take_of_length_le (by omega)]
  rw [dmUtilsServiceName, if_neg (by simp)]
  dsimp only [Option.map_some, Option.getD_some, Option.isSome_some]
  rw [hsize, if_pos rfl, hprint, arrayStrlen, arrayText_padded hnoNul,
    copyAt_padded (by omega), htopic]

/-- The keys of a topic with something behind them. -/
theorem hasKeys_topic (hproduct : dmUriServiceDelimiter ∉ productKey.bytes)
    (hdevice : dmUriServiceDelimiter ∉ deviceKey.bytes) (hname : name.bytes ≠ []) :
    HasKeys (UriPrefix.sys.topic productKey deviceKey name) productKey.bytes deviceKey.bytes :=
  ⟨ascii "/sys", name.bytes, rfl, by decide, hproduct, hdevice, hname⟩

/-- Keys that fit into the arrays are in them. -/
theorem HasKeys.uriKeys_of_fits {uri : List UInt8} {productKey deviceKey : List UInt8}
    (hkeys : HasKeys uri productKey deviceKey)
    (hproduct : productKey.length ≤ iotxProductKeyLen + 1)
    (hdevice : deviceKey.length ≤ iotxDeviceKeyLen + 1) :
    uriKeys uri = .ok (padded (iotxProductKeyLen + 1) productKey,
      padded (iotxDeviceKeyLen + 1) deviceKey) := by
  rw [hkeys.uriKeys_eq, copyAt_zeros hproduct, Outcome.ok_bind, copyAt_zeros hdevice,
    Outcome.ok_bind]
  rfl

/-- Keys that do not fit are copied all the same. -/
theorem HasKeys.uriKeys_stray {uri : List UInt8} {productKey deviceKey : List UInt8}
    (hkeys : HasKeys uri productKey deviceKey)
    (hlong : ¬(productKey.length ≤ iotxProductKeyLen + 1 ∧
      deviceKey.length ≤ iotxDeviceKeyLen + 1)) :
    uriKeys uri = .stray := by
  rw [hkeys.uriKeys_eq]
  by_cases hproduct : productKey.length ≤ iotxProductKeyLen + 1
  · have hdevice : iotxDeviceKeyLen + 1 < deviceKey.length := by
      by_contra hshort
      exact hlong ⟨hproduct, by omega⟩
    rw [copyAt_zeros hproduct, Outcome.ok_bind, copyAt_zeros_stray hdevice]
    rfl
  · rw [copyAt_zeros_stray (by omega)]
    rfl

variable {productKey deviceKey}

/-- A topic is faithful if no key has a slash and there is a name. -/
theorem faithfulTopic (hproduct : productKey.strlen ≤ iotxProductKeyLen)
    (hdevice : deviceKey.strlen ≤ iotxDeviceKeyLen)
    (hproductSlash : dmUriServiceDelimiter ∉ productKey.bytes)
    (hdeviceSlash : dmUriServiceDelimiter ∉ deviceKey.bytes) (hname : name.bytes ≠ []) :
    FaithfulTopic productKey deviceKey name := by
  have htext := arrayText_padded (zero_not_mem_topic .sys productKey deviceKey name)
    ((UriPrefix.sys.topic productKey deviceKey name).length + 5)
  refine ⟨_, dmUtilsServiceName_eq .sys productKey deviceKey name, ?_, htext, ?_⟩
  · refine List.mem_append_right _ (List.mem_replicate.mpr ⟨?_, rfl⟩)
    omega
  · rw [htext]
    exact (hasKeys_topic _ _ _ hproductSlash hdeviceSlash hname).uriKeys_of_fits
      (Nat.le_succ_of_le hproduct) (Nat.le_succ_of_le hdevice)

/-- A method comes back from the name of its service with its slashes for dots. -/
theorem infraStrReplace_back (method : List UInt8) :
    infraStrReplace (infraStrReplace method dmEnosMethodDelimiter dmUriServiceDelimiter)
        dmUriServiceDelimiter dmEnosMethodDelimiter =
      infraStrReplace method dmUriServiceDelimiter dmEnosMethodDelimiter := by
  rw [infraStrReplace, infraStrReplace, infraStrReplace, List.map_map]
  refine List.map_congr_left fun char _ => ?_
  rw [Function.comp_apply]
  by_cases hdot : char = dmEnosMethodDelimiter
  · rw [if_pos hdot, if_pos rfl, hdot, if_neg (by decide)]
  · rw [if_neg hdot]

theorem infraStrReplace_of_not_mem {origin : List UInt8} {src : UInt8} (hnone : src ∉ origin)
    (dst : UInt8) : infraStrReplace origin src dst = origin := by
  rw [infraStrReplace]
  refine (List.map_congr_left fun char hchar => ?_).trans (List.map_id origin)
  have hne : char ≠ src := fun hsame => hnone (hsame ▸ hchar)
  exact if_neg hne

/-- The method of a reply to a topic. -/
theorem thingReplyMethod_topic (hproductSlash : dmUriServiceDelimiter ∉ productKey.bytes)
    (hdeviceSlash : dmUriServiceDelimiter ∉ deviceKey.bytes) :
    thingReplyMethod (UriPrefix.sys.topic productKey deviceKey name ++ dmUriReplySuffix) =
      some (infraStrReplace name.bytes dmUriServiceDelimiter dmEnosMethodDelimiter ++
        dmUriReplySuffix) := by
  have hsplit : UriPrefix.sys.topic productKey deviceKey name ++ dmUriReplySuffix =
      (ascii "/sys/" ++ productKey.bytes ++ dmUriServiceDelimiter :: deviceKey.bytes) ++
        dmUriServiceDelimiter :: (name.bytes ++ dmUriReplySuffix) := by
    simp [UriPrefix.topic, UriPrefix.start]
  have hcount : (ascii "/sys/" ++ productKey.bytes ++
      dmUriServiceDelimiter :: deviceKey.bytes).count dmUriServiceDelimiter + 1 = 4 := by
    rw [List.count_append, List.count_append, List.count_cons_self,
      List.count_eq_zero.mpr hproductSlash, List.count_eq_zero.mpr hdeviceSlash]
    rfl
  have hplace := (dmUtilsMemtok_eq_some_iff (by decide)).mpr
    ⟨_, _, hsplit, List.append_ne_nil_of_right_ne_nil name.bytes (by decide), hcount, rfl⟩
  have hbehind : (UriPrefix.sys.topic productKey deviceKey name ++ dmUriReplySuffix).drop
      ((ascii "/sys/" ++ productKey.bytes ++ dmUriServiceDelimiter :: deviceKey.bytes).length + 1) =
        name.bytes ++ dmUriReplySuffix := by
    rw [hsplit]
    generalize ascii "/sys/" ++ productKey.bytes ++ dmUriServiceDelimiter :: deviceKey.bytes =
      front
    rw [List.append_cons front]
    exact List.drop_left' List.length_append
  have hsuffix : infraStrReplace dmUriReplySuffix dmUriServiceDelimiter dmEnosMethodDelimiter =
      dmUriReplySuffix := by decide
  rw [thingReplyMethod, hplace, Option.map_some, infraStrReplace, ← List.map_drop, hbehind,
    List.map_append]
  exact congrArg (fun suffix => some (_ ++ suffix)) hsuffix

end RoundTrip

/-- Keys within their limits and without slashes come back from every topic of theirs, and a method
without slashes from the topic of its reply. -/
theorem topics_roundTrip {productKey deviceKey : CString}
    (hproduct : productKey.strlen ≤ iotxProductKeyLen)
    (hdevice : deviceKey.strlen ≤ iotxDeviceKeyLen)
    (hproductSlash : dmUriServiceDelimiter ∉ productKey.bytes)
    (hdeviceSlash : dmUriServiceDelimiter ∉ deviceKey.bytes) :
    (∀ name : CString, name.bytes ≠ [] → FaithfulTopic productKey deviceKey name) ∧
      ∀ ctx devid node, 0 ≤ devid → dmMgrSearchDevByDevid ctx devid = some node →
        node.pair = (productKey.bytes, deviceKey.bytes) →
        ∀ method : CString, dmUriServiceDelimiter ∉ method.bytes →
          PassesMethod ctx devid method := by
  refine ⟨fun name hname => faithfulTopic name hproduct hdevice hproductSlash hdeviceSlash hname,
    ?_⟩
  intro ctx devid node hdevid hfound hpair method hmethod
  obtain ⟨hproductText, hdeviceText⟩ := Prod.mk.inj hpair
  have hproductKey : CString.ofArray node.productKey = productKey := CString.ext hproductText
  have hdeviceKey : CString.ofArray node.deviceKey = deviceKey := CString.ext hdeviceText
  have hnoNul : 0 ∉ infraStrReplace method.bytes dmEnosMethodDelimiter dmUriServiceDelimiter := by
    intro hzero
    obtain ⟨char, hchar, hreplaced⟩ := List.mem_map.mp hzero
    split at hreplaced
    · exact absurd hreplaced (by decide)
    · exact method.noNul (hreplaced ▸ hchar)
  let name : CString :=
    ⟨infraStrReplace method.bytes dmEnosMethodDelimiter dmUriServiceDelimiter, hnoNul⟩
  have hname : CString.ofArray
      (infraStrReplace method.bytes dmEnosMethodDelimiter dmUriServiceDelimiter) = name :=
    CString.ext (arrayText_of_noNul hnoNul)
  refine ⟨UriPrefix.sys.topic productKey deviceKey name, ?_, ?_⟩
  · rw [upstreamCommonUri, if_neg (by omega), hfound]
    dsimp only [Option.bind_eq_bind, Option.bind_some]
    rw [hproductKey, hdeviceKey, hname, dmUtilsServiceName_eq]
    exact congrArg some
      (arrayText_padded (zero_not_mem_topic .sys productKey deviceKey name) _)
  · rw [thingReplyMethod_topic name hproductSlash hdeviceSlash, infraStrReplace_back,
      infraStrReplace_of_not_mem hmethod]

/-- Keys as the gateway has them, and the method of a post. -/
theorem topics_roundTrip_gateway :
    FaithfulTopic ⟨[112], by decide⟩ ⟨[103], by decide⟩ ⟨ascii "thing/x", by decide⟩ ∧
      PassesMethod gatewayAlone 0 ⟨ascii "thing.x", by decide⟩ := by
  have hroundTrip := @topics_roundTrip ⟨[112], by decide⟩ ⟨[103], by decide⟩ (by decide)
    (by decide) (by decide) (by decide)
  exact ⟨hroundTrip.1 _ (by decide),
    hroundTrip.2 gatewayAlone 0 (gatewayAlone.devList.head (by decide)) (by decide) (by decide)
      (by decide) _
      (by decide)⟩

/-- A method with a slash comes back with a dot. -/
theorem not_passesMethod_slash : ¬ PassesMethod gatewayAlone 0 ⟨ascii "a/b", by decide⟩ := by
  rintro ⟨uri, huri, hmethod⟩
  have hexpected : upstreamCommonUri gatewayAlone 0 ⟨ascii "a/b", by decide⟩ =
      some (ascii "/sys/p/g/a/b") := by decide +kernel
  rw [hexpected] at huri
  cases huri
  exact absurd hmethod (by decide +kernel)

end EnosDeviceSdk.DevModel
