/-
# The response with the identity of the device

The broker tells a client its product key and device key on a topic of its own. The client looks
the two values up in the payload and copies each without its quotes, which it takes for granted:
it subtracts them from the length of the value, and the difference is unsigned.

Nothing outside the payload is read to find the values. What is done with them is as it should
be if both are quoted, and otherwise a value that the broker left empty or wrote as a number is
copied with a length of four gigabytes, or without its first and last digit.
-/

import EnosDeviceSdk.Library.Decimal
import EnosDeviceSdk.Infra.JsonValue

namespace EnosDeviceSdk.Mqtt

open EnosDeviceSdk.Infra EnosDeviceSdk.Library

/-- The topic of the response. -/
def identifyTopic : List UInt8 := ascii "/ext/auth/identity/response"

/-- An allocation, the copy of the whole payload, or that of a part of it. -/
inductive Transfer
  | malloc (size : Nat)
  | copyPayload (length : Nat)
  | copyValue (start length : Nat)
  deriving DecidableEq

/-- Which allocations succeed. -/
structure IdentityMalloc where
  payloadOk : Bool
  productOk : Bool
  deviceOk : Bool

/-- The difference of two `uint32_t`. -/
def uint32Sub (first second : Nat) : Nat := (first + 2 ^ 32 - second) % 2 ^ 32

/-- `HAL_Malloc` for a value without its quotes, with a terminator. -/
def mallocValue (value : Nat × Nat) : Transfer := .malloc ((uint32Sub value.2 2 + 1) % 2 ^ 32)

/-- `memcpy` of a value without its quotes. -/
def copyValue (value : Nat × Nat) : Transfer := .copyValue (value.1 + 1) (uint32Sub value.2 2)

/-- What `iotx_mc_parse_identity_response` does with the values that it has found. -/
def installValues (product device : Nat × Nat) (mallocs : IdentityMalloc) : List Transfer :=
  if !mallocs.productOk then [mallocValue product]
  else if !mallocs.deviceOk then [mallocValue product, copyValue product, mallocValue device]
  else [mallocValue product, copyValue product, mallocValue device, copyValue device]

/-- `iotx_mc_parse_identity_response`: its allocations and copies. -/
def iotxMcParseIdentityResponse (topic payload : List UInt8) (mallocs : IdentityMalloc) :
    Outcome (List Transfer) :=
  if topic ≠ identifyTopic then .ok []
  else if !mallocs.payloadOk then .ok [.malloc (payload.length + 1)]
  else
    let shown := [.malloc (payload.length + 1), .copyPayload payload.length]
    match infraJsonValue payload (ascii "productKey") with
    | .failed => .ok shown
    | .stray => .stray
    | .running => .running
    | .ok product =>
        match infraJsonValue payload (ascii "deviceKey") with
        | .failed => .ok shown
        | .stray => .stray
        | .running => .running
        | .ok device => .ok (shown ++ installValues product device mallocs)

/-! ## What the code promises -/

/-- A quoted string. -/
def Quoted (payload : List UInt8) (value : Nat × Nat) : Prop :=
  2 ≤ value.2 ∧ payload[value.1]? = some 34 ∧ payload[value.1 + value.2 - 1]? = some 34

instance (payload : List UInt8) (value : Nat × Nat) : Decidable (Quoted payload value) :=
  inferInstanceAs (Decidable (_ ∧ _ ∧ _))

/-- Only the payload is read, no more is allocated than the payload and a terminator take, only
parts of the payload are copied, and no value is unless both are quoted. -/
structure HandlesSafely (payload : List UInt8) (result : Outcome (List Transfer)) : Prop where
  reads : ∃ transfers, result = .ok transfers
  allocates : ∀ transfers size, result = .ok transfers → .malloc size ∈ transfers →
    size ≤ payload.length + 1
  copiesPayload : ∀ transfers length, result = .ok transfers → .copyPayload length ∈ transfers →
    length ≤ payload.length
  copiesValues : ∀ transfers start length, result = .ok transfers →
    .copyValue start length ∈ transfers → start + length ≤ payload.length
  rejects : ∀ transfers start length product device, result = .ok transfers →
    .copyValue start length ∈ transfers →
    infraJsonValue payload (ascii "productKey") = .ok product →
    infraJsonValue payload (ascii "deviceKey") = .ok device →
      Quoted payload product ∧ Quoted payload device

/-- If both values are found, both are quoted, or no memory is left for the first and it is not
empty. -/
def ValuesQuoted (topic payload : List UInt8) (mallocs : IdentityMalloc) : Prop :=
  topic = identifyTopic → mallocs.payloadOk = true → ∀ product device,
    infraJsonValue payload (ascii "productKey") = .ok product →
    infraJsonValue payload (ascii "deviceKey") = .ok device →
      if mallocs.productOk then Quoted payload product ∧ Quoted payload device
      else product.2 ≠ 0

/-! ## When it keeps its promise -/

theorem uint32Sub_of_le {first second : Nat} (hle : second ≤ first) (hbound : first < 2 ^ 32) :
    uint32Sub first second = first - second := by
  rw [uint32Sub]
  omega

section Payload

variable {payload : List UInt8}

/-- A response that copies no values, and allocates as much as it may. -/
theorem handlesSafely_of_plain {transfers : List Transfer}
    (hplain : ∀ transfer ∈ transfers, (∃ size ≤ payload.length + 1, transfer = .malloc size) ∨
      transfer = .copyPayload payload.length) :
    HandlesSafely payload (.ok transfers) := by
  refine ⟨⟨transfers, rfl⟩, ?_, ?_, ?_, ?_⟩
  · rintro _ size ⟨⟩ hmem
    rcases hplain _ hmem with ⟨bound, hbound, hsame⟩ | hsame
    · cases hsame
      exact hbound
    · cases hsame
  · rintro _ length ⟨⟩ hmem
    rcases hplain _ hmem with ⟨bound, -, hsame⟩ | hsame
    · cases hsame
    · cases hsame
      exact Nat.le_refl _
  · rintro _ start length ⟨⟩ hmem
    rcases hplain _ hmem with ⟨bound, -, hsame⟩ | hsame <;> cases hsame
  · rintro _ start length product device ⟨⟩ hmem
    rcases hplain _ hmem with ⟨bound, -, hsame⟩ | hsame <;> cases hsame

variable {product device : Nat × Nat} {mallocs : IdentityMalloc}

/-- Quoted values are installed safely. -/
theorem handlesSafely_of_quoted (hlength : payload.length ≤ 268435455)
    (hproduct : infraJsonValue payload (ascii "productKey") = .ok product)
    (hdevice : infraJsonValue payload (ascii "deviceKey") = .ok device)
    (hquoted : Quoted payload product ∧ Quoted payload device) :
    HandlesSafely payload (.ok ([.malloc (payload.length + 1), .copyPayload payload.length] ++
      installValues product device mallocs)) := by
  have hinside : ∀ {key : List UInt8} {value : Nat × Nat},
      infraJsonValue payload key = .ok value → value.1 + value.2 < payload.length :=
    fun hvalue => ((infraJsonValue_keeps payload _).of_ok hvalue).2
  have hvalues : ∀ value, value.1 + value.2 < payload.length → 2 ≤ value.2 →
      mallocValue value = .malloc (value.2 - 1) ∧
        copyValue value = .copyValue (value.1 + 1) (value.2 - 2) := by
    intro value hbound hlong
    rw [mallocValue, copyValue, uint32Sub_of_le hlong (by omega)]
    refine ⟨congrArg Transfer.malloc ?_, rfl⟩
    omega
  obtain ⟨hproductMalloc, hproductCopy⟩ := hvalues product (hinside hproduct) hquoted.1.1
  obtain ⟨hdeviceMalloc, hdeviceCopy⟩ := hvalues device (hinside hdevice) hquoted.2.1
  have hproductBound := hinside hproduct
  have hdeviceBound := hinside hdevice
  have hproductLong := hquoted.1.1
  have hdeviceLong := hquoted.2.1
  have htransfers : ∀ transfer ∈ [.malloc (payload.length + 1), .copyPayload payload.length] ++
      installValues product device mallocs,
        transfer = .malloc (payload.length + 1) ∨ transfer = .copyPayload payload.length ∨
        transfer = .malloc (product.2 - 1) ∨ transfer = .malloc (device.2 - 1) ∨
        transfer = .copyValue (product.1 + 1) (product.2 - 2) ∨
        transfer = .copyValue (device.1 + 1) (device.2 - 2) := by
    rw [installValues, hproductMalloc, hproductCopy, hdeviceMalloc, hdeviceCopy]
    split
    · simp
    · split <;> simp
  refine ⟨⟨_, rfl⟩, ?_, ?_, ?_, ?_⟩
  · rintro _ size ⟨⟩ hmem
    rcases htransfers _ hmem with h | h | h | h | h | h <;> cases h <;> omega
  · rintro _ length ⟨⟩ hmem
    rcases htransfers _ hmem with h | h | h | h | h | h <;> cases h
    exact Nat.le_refl _
  · rintro _ start length ⟨⟩ hmem
    rcases htransfers _ hmem with h | h | h | h | h | h <;> cases h <;> omega
  · rintro _ start length other other' ⟨⟩ _ hother hother'
    rw [hproduct] at hother
    rw [hdevice] at hother'
    cases hother
    cases hother'
    exact hquoted

/-- The response is handled safely exactly where the values it finds are quoted, or, without
memory for the first, where that one is not empty. The length is the longest that a packet can
have. -/
theorem handlesSafely_iff (hlength : payload.length ≤ 268435455) (topic : List UInt8)
    (mallocs : IdentityMalloc) :
    HandlesSafely payload (iotxMcParseIdentityResponse topic payload mallocs) ↔
      ValuesQuoted topic payload mallocs := by
  rw [iotxMcParseIdentityResponse, ValuesQuoted]
  by_cases htopic : topic = identifyTopic
  · rw [if_neg (not_not.mpr htopic)]
    cases hpayload : mallocs.payloadOk with
    | false =>
        refine iff_of_true (handlesSafely_of_plain ?_) (fun _ hok => (nomatch hok))
        simp
    | true =>
        have hshown : HandlesSafely payload
            (.ok [.malloc (payload.length + 1), .copyPayload payload.length]) := by
          apply handlesSafely_of_plain
          simp
        have hkeeps := fun key => infraJsonValue_keeps payload key
        have hproductKeeps := hkeeps (ascii "productKey")
        have hdeviceKeeps := hkeeps (ascii "deviceKey")
        rw [if_neg (by decide)]
        dsimp only
        cases hproduct : infraJsonValue payload (ascii "productKey") with
        | failed => exact iff_of_true hshown fun _ _ _ _ hfound => (nomatch hfound)
        | stray =>
            rw [hproduct] at hproductKeeps
            exact hproductKeeps.elim
        | running =>
            rw [hproduct] at hproductKeeps
            exact hproductKeeps.elim
        | ok product =>
            cases hdevice : infraJsonValue payload (ascii "deviceKey") with
            | failed => exact iff_of_true hshown fun _ _ _ _ _ hfound => (nomatch hfound)
            | stray =>
                rw [hdevice] at hdeviceKeeps
                exact hdeviceKeeps.elim
            | running =>
                rw [hdevice] at hdeviceKeeps
                exact hdeviceKeeps.elim
            | ok device =>
                have hproductBound := hproductKeeps.of_ok hproduct
                have hcondition : (topic = identifyTopic → true = true → ∀ other other',
                    Outcome.ok product = .ok other → Outcome.ok device = .ok other' →
                      if mallocs.productOk then Quoted payload other ∧ Quoted payload other'
                      else other.2 ≠ 0) ↔
                    if mallocs.productOk then Quoted payload product ∧ Quoted payload device
                    else product.2 ≠ 0 := by
                  constructor
                  · exact fun h => h htopic rfl product device rfl rfl
                  · rintro h - - other other' ⟨⟩ ⟨⟩
                    exact h
                rw [hcondition]
                cases hok : mallocs.productOk with
                | true =>
                    rw [if_pos rfl]
                    constructor
                    · intro hsafe
                      refine hsafe.rejects _ (product.1 + 1) (uint32Sub product.2 2) product device
                        rfl ?_ hproduct hdevice
                      rw [installValues, hok, if_neg (by decide)]
                      split <;> simp [copyValue]
                    · exact handlesSafely_of_quoted hlength hproduct hdevice
                | false =>
                    rw [if_neg Bool.false_ne_true]
                    have hinstall : installValues product device mallocs =
                      [mallocValue product] := by
                      rw [installValues, hok]
                      rfl
                    constructor
                    · intro hsafe hempty
                      have hsize := hsafe.allocates _ (2 ^ 32 - 1) rfl (by
                        rw [hinstall, mallocValue, hempty]
                        exact List.mem_append_right _ (List.mem_singleton.mpr rfl))
                      omega
                    · intro hsome
                      apply handlesSafely_of_plain
                      rw [hinstall]
                      intro transfer htransfer
                      rw [List.mem_append, List.mem_singleton] at htransfer
                      rcases htransfer with hshownMem | rfl
                      · rcases List.mem_cons.mp hshownMem with rfl | hrest
                        · exact Or.inl ⟨_, Nat.le_refl _, rfl⟩
                        · exact Or.inr (List.mem_singleton.mp hrest)
                      · refine Or.inl ⟨_, ?_, rfl⟩
                        rw [uint32Sub]
                        omega
  · rw [if_pos htopic]
    refine iff_of_true (handlesSafely_of_plain ?_) fun htopic' => absurd htopic' htopic
    simp

end Payload

/-- All allocations succeed. -/
def plentifulMalloc : IdentityMalloc := ⟨true, true, true⟩

theorem handlesSafely_identity :
    HandlesSafely (ascii "\x7b\"productKey\":\"p\",\"deviceKey\":\"d\"\x7d")
      (iotxMcParseIdentityResponse identifyTopic
        (ascii "\x7b\"productKey\":\"p\",\"deviceKey\":\"d\"\x7d") plentifulMalloc) := by
  refine (handlesSafely_iff (by decide +kernel) _ _).mpr ?_
  intro _ _ product device hproduct hdevice
  have hproductValue : infraJsonValue (ascii "\x7b\"productKey\":\"p\",\"deviceKey\":\"d\"\x7d")
      (ascii "productKey") = .ok (14, 3) := by decide +kernel
  have hdeviceValue : infraJsonValue (ascii "\x7b\"productKey\":\"p\",\"deviceKey\":\"d\"\x7d")
      (ascii "deviceKey") = .ok (30, 3) := by decide +kernel
  rw [hproductValue] at hproduct
  rw [hdeviceValue] at hdevice
  cases hproduct
  cases hdevice
  decide +kernel

/-- An empty product key makes the code ask for four gigabytes. -/
theorem not_handlesSafely_empty :
    ¬ HandlesSafely (ascii "\x7b\"productKey\":,\"deviceKey\":\"d\"\x7d")
      (iotxMcParseIdentityResponse identifyTopic
        (ascii "\x7b\"productKey\":,\"deviceKey\":\"d\"\x7d") plentifulMalloc) := by
  intro hsafe
  have hresult : iotxMcParseIdentityResponse identifyTopic
      (ascii "\x7b\"productKey\":,\"deviceKey\":\"d\"\x7d") plentifulMalloc =
        .ok [.malloc 32, .copyPayload 31, .malloc 4294967295, .copyValue 15 4294967294,
          .malloc 2, .copyValue 28 1] := by decide +kernel
  have hsize := hsafe.allocates _ 4294967295 hresult (by decide)
  exact absurd hsize (by decide +kernel)

end EnosDeviceSdk.Mqtt
