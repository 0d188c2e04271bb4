/-
# The message with the device secret

The dynamic activation waits for a message with the secret of the device. The handler looks for the
fifth slash of the topic, compares what follows with the name of the method, and copies the secret
out of the payload, which it then blackens.

The topic stands in the packet without a terminator, with the payload or the packet id behind it,
and the handler takes it for a string. A topic with fewer slashes leaves it with a null pointer. It
takes for granted that the secret is quoted and that it fits, and blackens a fixed number of bytes.
It looks the secret up without parsing, so what it installs need not be what the JSON text of the
payload says.
-/

import EnosDeviceSdk.DevModel.TextBuffer
import EnosDeviceSdk.Infra.JsonStrings
import EnosDeviceSdk.Mqtt.IdentityResponse

namespace EnosDeviceSdk.Activate

open EnosDeviceSdk.Infra EnosDeviceSdk.Library EnosDeviceSdk.DevModel EnosDeviceSdk.Mqtt

/-! ## The code -/

/-- A PUBLISH packet as the handler finds it in memory. The packet id is empty for QoS 0. -/
structure Publication where
  topic : List UInt8
  packetId : List UInt8
  payload : List UInt8

/-- What may be read from the topic on: the payload too if it follows directly. -/
def Publication.readable (publication : Publication) : List UInt8 :=
  publication.topic ++ if publication.packetId = [] then publication.payload else []

/-- The name of the method. -/
def activateInfo : List UInt8 := ascii "/thing/activate/info"

/-- The key of the secret. -/
def deviceSecretKey : List UInt8 := ascii "deviceSecret"

/-- What the secret is blackened with. -/
def asterisk : List UInt8 := ascii "**********************"

/-- `find_method_pos`, with the slashes that are still to be counted. -/
def findMethodPos : Nat → List UInt8 → Option Nat
  | _, [] => none
  | count, char :: rest =>
      let count := if char = 47 then count - 1 else count
      if count = 0 then some 0 else (findMethodPos count rest).map (· + 1)

/-- The end of `_mqtt_dynamic_activate_topic_handle`: the secret is parsed, copied and blackened. -/
def installSecret (publication : Publication) (ds : List UInt8) :
    Outcome (List UInt8 × List UInt8) :=
  match infraJsonValue publication.payload deviceSecretKey with
  | .failed => .ok (publication.payload, ds)
  | .stray => .stray
  | .running => .running
  | .ok (deviceSecret, deviceSecretLen) => do
      let secret ← readBytes publication.payload (deviceSecret + 1 : Nat)
        (uint32Sub deviceSecretLen 2)
      let ds ← copyAt ds 0 secret
      let payload ← copyAt publication.payload (deviceSecret + 1 + 5) asterisk
      return (payload, ds)

/-- `_mqtt_dynamic_activate_topic_handle` for a PUBLISH: the payload and the array of the secret
after it. -/
def mqttDynamicActivateTopicHandle (publication : Publication) (ds : List UInt8) :
    Outcome (List UInt8 × List UInt8) := do
  let topicLen ← boundedStrlen publication.readable
  match findMethodPos 5 (publication.readable.take topicLen) with
  | none => .stray
  | some methodStartPos =>
      let compared ← readBytes publication.readable methodStartPos activateInfo.length
      if compared ≠ activateInfo then return (publication.payload, ds)
      else installSecret publication ds

/-! ## What is meant -/

/-- The path of the topic from its fifth slash on starts with the method. -/
def Activates (topic : List UInt8) : Prop :=
  ∃ head tail, topic = head ++ (activateInfo ++ tail) ∧ head.count 47 = 4

/-- The payload is a JSON text, which may have a terminator, and its `deviceSecret` says this. -/
def SecretIn (payload secret : List UInt8) : Prop :=
  ∃ text behind, payload = text ++ behind ∧ (∀ byte ∈ behind.head?, byte = 0) ∧
    SaysString text deviceSecretKey secret

/-- A secret that is to be installed. -/
def Installs (publication : Publication) (secret : List UInt8) : Prop :=
  Activates publication.topic ∧ SecretIn publication.payload secret ∧
    secret.length ≤ iotxDeviceSecretLen

/-- Nothing goes astray. The array holds a secret that is to be installed as a string, or there is
none and the array is as it was. -/
def HandledAsMeant (publication : Publication) (ds : List UInt8) : Prop :=
  ∃ payload after, mqttDynamicActivateTopicHandle publication ds = .ok (payload, after) ∧
    ((∃ secret, Installs publication secret ∧ arrayText after = secret) ∨
      (∀ secret, ¬ Installs publication secret) ∧ after = ds)

/-- The string at the topic ends, it has five slashes, and there is room for the method behind the
fifth. -/
structure MethodRead (publication : Publication) (place : Nat) : Prop where
  terminated : 0 ∈ publication.readable
  found : findMethodPos 5 (arrayText publication.readable) = some place
  room : place + activateInfo.length ≤ publication.readable.length

/-- The bytes of a value without its first and its last one. -/
def inner (payload : List UInt8) (value : Nat × Nat) : List UInt8 :=
  (payload.drop (value.1 + 1)).take (value.2 - 2)

/-- What is found for the secret has two bytes at least and fits, and there is room for blackening
it. What stands between its first and its last byte, with the rest that the array has up to a
terminator, is a secret to be installed. If there is none, the array has these bytes already. -/
structure ValueFits (publication : Publication) (ds : List UInt8) (value : Nat × Nat) : Prop where
  quotes : 2 ≤ value.2
  fits : value.2 ≤ iotxDeviceSecretLen + 3
  room : value.1 + 28 ≤ publication.payload.length
  right : (∃ secret, Installs publication secret ∧
      arrayText (inner publication.payload value ++ ds.drop (value.2 - 2)) = secret) ∨
    (∀ secret, ¬ Installs publication secret) ∧
      inner publication.payload value = ds.take (value.2 - 2)

/-- There is no secret to be installed, or the array has it already. -/
def NothingNew (publication : Publication) (ds : List UInt8) : Prop :=
  (∃ secret, Installs publication secret ∧ arrayText ds = secret) ∨
    ∀ secret, ¬ Installs publication secret

/-! ## Where the method is -/

/-- The place is that of the slash that brings the count to zero. -/
theorem findMethodPos_eq_some_iff {text : List UInt8} {count place : Nat} :
    findMethodPos (count + 1) text = some place ↔
      ∃ head tail, text = head ++ 47 :: tail ∧ head.count 47 = count ∧ place = head.length := by
  induction text generalizing count place with
  | nil =>
      refine iff_of_false nofun ?_
      rintro ⟨head, tail, hsplit, -⟩
      exact List.append_ne_nil_of_right_ne_nil head (List.cons_ne_nil 47 tail) hsplit.symm
  | cons char rest ih =>
      by_cases hslash : char = 47
      · subst hslash
        cases count with
        | zero =>
            have hfound : findMethodPos 1 (47 :: rest) = some 0 := rfl
            rw [Nat.zero_add, hfound, Option.some.injEq]
            constructor
            · rintro rfl
              exact ⟨[], rest, rfl, rfl, rfl⟩
            · rintro ⟨head, tail, hsplit, hcount, hplace⟩
              cases head with
              | nil => exact hplace.symm
              | cons first head =>
                  obtain ⟨rfl, -⟩ := List.cons_eq_cons.mp hsplit
                  rw [List.count_cons_self] at hcount
                  omega
        | succ count =>
            have hnext : findMethodPos (count + 1 + 1) (47 :: rest) =
                (findMethodPos (count + 1) rest).map (· + 1) := rfl
            rw [hnext, Option.map_eq_some_iff]
            constructor
            · rintro ⟨later, hlater, rfl⟩
              obtain ⟨head, tail, rfl, hcount, rfl⟩ := ih.mp hlater
              exact ⟨47 :: head, tail, rfl, by rw [List.count_cons_self, hcount], rfl⟩
            · rintro ⟨head, tail, hsplit, hcount, rfl⟩
              cases head with
              | nil => exact absurd hcount (by simp)
              | cons first head =>
                  obtain ⟨rfl, rfl⟩ := List.cons_eq_cons.mp hsplit
                  rw [List.count_cons_self, Nat.succ_inj] at hcount
                  exact ⟨_, ih.mpr ⟨head, tail, rfl, hcount, rfl⟩, rfl⟩
      · have hnext : findMethodPos (count + 1) (char :: rest) =
            (findMethodPos (count + 1) rest).map (· + 1) := by
          rw [findMethodPos, if_neg hslash]
          exact if_neg (Nat.succ_ne_zero count)
        rw [hnext, Option.map_eq_some_iff]
        constructor
        · rintro ⟨later, hlater, rfl⟩
          obtain ⟨head, tail, rfl, hcount, rfl⟩ := ih.mp hlater
          exact ⟨char :: head, tail, rfl, by rw [List.count_cons_of_ne hslash, hcount], rfl⟩
        · rintro ⟨head, tail, hsplit, hcount, rfl⟩
          cases head with
          | nil => exact absurd (List.cons_eq_cons.mp hsplit).1 hslash
          | cons first head =>
              obtain ⟨rfl, rfl⟩ := List.cons_eq_cons.mp hsplit
              rw [List.count_cons_of_ne hslash] at hcount
              exact ⟨_, ih.mpr ⟨head, tail, rfl, hcount, rfl⟩, rfl⟩

/-- What comes behind does not change the place. -/
theorem findMethodPos_append {text : List UInt8} {count place : Nat} (behind : List UInt8)
    (hfound : findMethodPos (count + 1) text = some place) :
    findMethodPos (count + 1) (text ++ behind) = some place := by
  obtain ⟨head, tail, rfl, hcount, rfl⟩ := findMethodPos_eq_some_iff.mp hfound
  exact findMethodPos_eq_some_iff.mpr ⟨head, tail ++ behind, List.append_assoc _ _ _, hcount, rfl⟩

section Handler

variable {publication : Publication} {ds : List UInt8} {place : Nat}

/-- A topic with the method has it where the handler compares. -/
theorem Activates.begins (hactivates : Activates publication.topic)
    (hread : MethodRead publication place) :
    activateInfo <+: publication.readable.drop place := by
  obtain ⟨head, tail, htopic, hcount⟩ := hactivates
  obtain ⟨behind, hbehind⟩ : arrayText publication.readable <+: publication.readable :=
    List.takeWhile_prefix _
  have hfound := findMethodPos_append behind hread.found
  rw [hbehind] at hfound
  have hreadable : publication.readable = head ++ (activateInfo ++ (tail ++
      if publication.packetId = [] then publication.payload else [])) := by
    rw [Publication.readable, htopic, List.append_assoc, List.append_assoc]
  have hhere : findMethodPos 5 publication.readable = some head.length :=
    findMethodPos_eq_some_iff.mpr ⟨head, _, hreadable, hcount, rfl⟩
  rw [hfound, Option.some.injEq] at hhere
  rw [hhere, hreadable, List.drop_left]
  exact List.prefix_append _ _

/-- What lies between the quotes of a value is read if the value has two of them, and nothing else
is. -/
theorem readBytes_value (hlength : publication.payload.length ≤ 268435455) {value : Nat × Nat}
    (hvalue : infraJsonValue publication.payload deviceSecretKey = .ok value)
    {secret : List UInt8} :
    readBytes publication.payload (value.1 + 1 : Nat) (uint32Sub value.2 2) = .ok secret ↔
      2 ≤ value.2 ∧ secret = inner publication.payload value := by
  have hinside := ((infraJsonValue_keeps publication.payload deviceSecretKey).of_ok hvalue).2
  by_cases hquotes : 2 ≤ value.2
  · rw [uint32Sub_of_le hquotes (by omega), and_iff_right hquotes]
    rcases Nat.eq_zero_or_pos (value.2 - 2) with hempty | hsome
    · rw [hempty, readBytes, inner, hempty, List.take_zero, Outcome.ok.injEq, eq_comm]
    · rw [readBytes_eq_ok_iff hsome, ← inner]
      exact and_iff_right (by omega)
  · have hwrapped : 2 ^ 32 - 2 ≤ uint32Sub value.2 2 := by
      rw [uint32Sub]
      omega
    rw [readBytes_eq_ok_iff (by omega)]
    exact iff_of_false (fun hread => by omega) (fun hread => hquotes hread.1)

/-- The bytes of a value that has two quotes. -/
theorem length_inner {value : Nat × Nat}
    (hvalue : infraJsonValue publication.payload deviceSecretKey = .ok value) :
    (inner publication.payload value).length = value.2 - 2 := by
  have hinside := ((infraJsonValue_keeps publication.payload deviceSecretKey).of_ok hvalue).2
  rw [inner, List.length_take, List.length_drop]
  omega

theorem handle_of_read (hread : MethodRead publication place) :
    mqttDynamicActivateTopicHandle publication ds =
      if activateInfo <+: publication.readable.drop place then installSecret publication ds
      else .ok (publication.payload, ds) := by
  have hcompared := (readBytes_eq_ok_iff (by decide)).mpr ⟨hread.room, rfl⟩
  rw [mqttDynamicActivateTopicHandle, boundedStrlen, if_pos hread.terminated, Outcome.ok_bind,
    take_arrayStrlen, hread.found]
  dsimp only
  rw [hcompared, Outcome.ok_bind]
  by_cases hbegins : activateInfo <+: publication.readable.drop place
  · rw [if_pos hbegins, if_neg (not_not.mpr (List.prefix_iff_eq_take.mp hbegins).symm)]
  · rw [if_neg hbegins, if_pos fun hsame => hbegins (List.prefix_iff_eq_take.mpr hsame.symm)]
    rfl

/-- Unless the method can be read the handler goes astray. -/
theorem methodRead_of_handle {result : List UInt8 × List UInt8}
    (hok : mqttDynamicActivateTopicHandle publication ds = .ok result) :
    ∃ place, MethodRead publication place := by
  rw [mqttDynamicActivateTopicHandle, Outcome.bind_eq_ok_iff] at hok
  obtain ⟨topicLen, hstrlen, hok⟩ := hok
  rw [boundedStrlen] at hstrlen
  split at hstrlen
  · rename_i hterminated
    cases hstrlen
    rw [take_arrayStrlen] at hok
    cases hfound : findMethodPos 5 (arrayText publication.readable) with
    | none =>
        rw [hfound] at hok
        cases hok
    | some place =>
        rw [hfound] at hok
        obtain ⟨compared, hcompared, -⟩ := Outcome.bind_eq_ok_iff.mp hok
        exact ⟨place, hterminated, hfound, ((readBytes_eq_ok_iff (by decide)).mp hcompared).1⟩
  · cases hstrlen

/-- Where the place is found it is the only one. -/
theorem MethodRead.unique {other : Nat} (hread : MethodRead publication place)
    (hother : MethodRead publication other) : place = other :=
  Option.some.inj (hread.found.symm.trans hother.found)

/-- What becomes of a value that is found. -/
theorem installSecret_eq_ok_iff (hds : ds.length = iotxDeviceSecretLen + 1)
    (hlength : publication.payload.length ≤ 268435455) {value : Nat × Nat}
    (hvalue : infraJsonValue publication.payload deviceSecretKey = .ok value)
    {payload after : List UInt8} :
    installSecret publication ds = .ok (payload, after) ↔
      2 ≤ value.2 ∧ value.2 ≤ iotxDeviceSecretLen + 3 ∧
        copyAt publication.payload (value.1 + 6) asterisk = .ok payload ∧
        after = inner publication.payload value ++ ds.drop (value.2 - 2) := by
  have hlong := length_inner hvalue
  have hcopied : ∀ copied, copyAt ds 0 (inner publication.payload value) = .ok copied ↔
      value.2 ≤ iotxDeviceSecretLen + 3 ∧
        copied = inner publication.payload value ++ ds.drop (value.2 - 2) := by
    intro copied
    rw [copyAt, hlong, hds, Nat.zero_add, List.take_zero, List.nil_append]
    split
    · rw [Outcome.ok.injEq, eq_comm]
      exact (and_iff_right (by omega)).symm
    · exact iff_of_false (by simp) fun hboth => by omega
  rw [installSecret, hvalue, Outcome.bind_eq_ok_iff]
  constructor
  · rintro ⟨secret, hsecret, hrest⟩
    obtain ⟨hquotes, rfl⟩ := (readBytes_value hlength hvalue).mp hsecret
    obtain ⟨copied, hfirst, hrest⟩ := Outcome.bind_eq_ok_iff.mp hrest
    obtain ⟨blackened, hsecond, hresult⟩ := Outcome.bind_eq_ok_iff.mp hrest
    obtain ⟨hfits, rfl⟩ := (hcopied copied).mp hfirst
    cases hresult
    exact ⟨hquotes, hfits, hsecond, rfl⟩
  · rintro ⟨hquotes, hfits, hblackened, rfl⟩
    refine ⟨_, (readBytes_value hlength hvalue).mpr ⟨hquotes, rfl⟩, ?_⟩
    rw [(hcopied _).mpr ⟨hfits, rfl⟩, Outcome.ok_bind, hblackened]
    rfl

/-- The array holds a string that was copied to its front if a terminator follows it. -/
theorem arrayText_front_iff {string behind : List UInt8} (hbehind : behind ≠ []) :
    arrayText (string ++ behind) = string ↔ 0 ∉ string ∧ behind.head? = some 0 := by
  constructor
  · intro htext
    have hstring : 0 ∉ string := htext ▸ zero_not_mem_arrayText (string ++ behind)
    rw [arrayText_append hstring, List.append_right_eq_self] at htext
    refine ⟨hstring, ?_⟩
    cases behind with
    | nil => exact absurd rfl hbehind
    | cons byte behind =>
        by_cases hzero : byte = 0
        · rw [hzero, List.head?_cons]
        · have hgoes : arrayText (byte :: behind) = byte :: arrayText behind :=
            List.takeWhile_cons_of_pos (decide_eq_true hzero)
          rw [hgoes] at htext
          exact nomatch htext
  · rintro ⟨hstring, hzero⟩
    rw [arrayText_append hstring, List.append_right_eq_self]
    cases behind with
    | nil => exact absurd rfl hbehind
    | cons byte behind =>
        cases hzero
        rfl

/-- A value in bounds is treated as meant if what is then in the array is to be there. -/
theorem valueFits_iff (hds : ds.length = iotxDeviceSecretLen + 1)
    (hlength : publication.payload.length ≤ 268435455) {value : Nat × Nat}
    (hvalue : infraJsonValue publication.payload deviceSecretKey = .ok value) :
    (∃ payload after, installSecret publication ds = .ok (payload, after) ∧
        ((∃ secret, Installs publication secret ∧ arrayText after = secret) ∨
          (∀ secret, ¬ Installs publication secret) ∧ after = ds)) ↔
      ValueFits publication ds value := by
  have hlong := length_inner hvalue
  have hkept : value.2 ≤ iotxDeviceSecretLen + 3 →
      (inner publication.payload value ++ ds.drop (value.2 - 2) = ds ↔
        inner publication.payload value = ds.take (value.2 - 2)) := by
    intro hfits
    constructor
    · intro hsame
      rw [← hlong]
      exact List.prefix_iff_eq_take.mp ⟨_, hlong ▸ hsame⟩
    · intro hsame
      rw [hsame, List.take_append_drop]
  have hblackened : ∀ payload,
      copyAt publication.payload (value.1 + 6) asterisk = .ok payload →
        value.1 + 28 ≤ publication.payload.length := by
    intro payload hcopied
    rw [copyAt] at hcopied
    split at hcopied
    · rename_i hroom
      exact hroom
    · cases hcopied
  constructor
  · rintro ⟨payload, after, hok, hright⟩
    obtain ⟨hquotes, hfits, hpayload, rfl⟩ := (installSecret_eq_ok_iff hds hlength hvalue).mp hok
    exact
      { quotes := hquotes
        fits := hfits
        room := hblackened payload hpayload
        right := hright.imp_right fun hnone => ⟨hnone.1, (hkept hfits).mp hnone.2⟩ }
  · intro hfits
    have hroom : value.1 + 6 + asterisk.length ≤ publication.payload.length := hfits.room
    exact ⟨_, _, (installSecret_eq_ok_iff hds hlength hvalue).mpr
      ⟨hfits.quotes, hfits.fits, if_pos hroom, rfl⟩,
      hfits.right.imp_right fun hnone => ⟨hnone.1, (hkept hfits.fits).mpr hnone.2⟩⟩

/-- A secret that stands between the first and the last byte of what is found is installed rightly
if it has no terminator in it and the array has one right behind it. -/
theorem valueFits_of_installs (hds : ds.length = iotxDeviceSecretLen + 1) {value : Nat × Nat}
    (hvalue : infraJsonValue publication.payload deviceSecretKey = .ok value)
    (hquotes : 2 ≤ value.2)
    (hroom : value.1 + 28 ≤ publication.payload.length)
    (hinstalls : Installs publication (inner publication.payload value))
    (hstring : 0 ∉ inner publication.payload value) (hend : ds[value.2 - 2]? = some 0) :
    ValueFits publication ds value := by
  have hshort := hinstalls.2.2
  rw [length_inner hvalue] at hshort
  have hlast : ds.drop (value.2 - 2) ≠ [] := by
    rw [ne_eq, List.drop_eq_nil_iff, hds]
    omega
  refine ⟨hquotes, by omega, hroom, Or.inl ⟨_, hinstalls, ?_⟩⟩
  exact (arrayText_front_iff hlast).mpr ⟨hstring, by rwa [List.head?_drop]⟩

end Handler

/-! ## A message that is handled and others that are not -/

/-- A message on the topic of the activation. -/
def activation (payload : List UInt8) : Publication where
  topic := ascii "/ext/session/pk/dk/thing/activate/info"
  packetId := []
  payload := payload

theorem activates_activation (payload : List UInt8) : Activates (activation payload).topic := by
  have hsplit : ascii "/ext/session/pk/dk/thing/activate/info" =
      ascii "/ext/session/pk/dk" ++ (activateInfo ++ []) := by decide +kernel
  exact ⟨_, [], hsplit, by decide +kernel⟩

/-- A payload that somebody terminated, with a secret that is long enough. -/
def secretPayload : List UInt8 :=
  ascii "\x7b\"deviceSecret\":\"abcdefghijklmnopqrstuvwxyz\"\x7d" ++ [0]

/-- The name of another member that ends like the secret's. -/
def longerNamePayload : List UInt8 :=
  ascii "\x7b\"mydeviceSecret\":\"evil\",\"deviceSecret\":\"good\"\x7d" ++ [0]

/-- A secret with white space around its colon. -/
def spacedPayload : List UInt8 := ascii "\x7b\"deviceSecret\" : \"abc\"\x7d" ++ [0]

/-- The value of a member with a longer name is installed in the place of the secret, and a secret
with white space in front of the colon is not found. -/
theorem not_handledAsMeant_lookup :
    ¬ HandledAsMeant (activation longerNamePayload) (List.replicate 65 0) ∧
      ¬ HandledAsMeant (activation spacedPayload) (List.replicate 65 0) := by
  constructor
  · rintro ⟨payload, after, hok, hright⟩
    have hafter : (mqttDynamicActivateTopicHandle (activation longerNamePayload)
        (List.replicate 65 0)).toOption.map Prod.snd =
          some (ascii "evil" ++ List.replicate 61 0) := by decide +kernel
    rw [hok] at hafter
    obtain rfl : after = ascii "evil" ++ List.replicate 61 0 := Option.some.inj hafter
    rcases hright with ⟨secret, ⟨-, ⟨text, behind, hpayload, -, hsaid⟩, -⟩, hsecret⟩ | ⟨-, hsame⟩
    · have hsaid := @SaysString.eq_of_only longerNamePayload text deviceSecretKey secret
        (ascii "good") [125, 0] 25 ⟨deviceSecretKey, [], []⟩ hsaid ⟨behind, hpayload.symm⟩
        (by decide +kernel) (by decide +kernel) rfl blank_nil blank_nil
        (stringBody_of_plain (by decide +kernel))
      rw [← hsecret] at hsaid
      revert hsaid
      decide +kernel
    · revert hsame
      decide +kernel
  · rintro ⟨payload, after, hok, hright⟩
    have hafter : (mqttDynamicActivateTopicHandle (activation spacedPayload)
        (List.replicate 65 0)).toOption.map Prod.snd = some (List.replicate 65 0) := by
      decide +kernel
    rw [hok] at hafter
    obtain rfl : after = List.replicate 65 0 := Option.some.inj hafter
    rcases hright with ⟨secret, ⟨-, ⟨text, behind, hpayload, -, hsaid⟩, -⟩, hsecret⟩ | ⟨hnone, -⟩
    · have hsaid := @SaysString.eq_of_only spacedPayload text deviceSecretKey secret
        (ascii "abc") [125, 0] 1 ⟨deviceSecretKey, [32], [32]⟩ hsaid ⟨behind, hpayload.symm⟩
        (by decide +kernel) (by decide +kernel) rfl (by simp [Blank]) (by simp [Blank])
        (stringBody_of_plain (by decide +kernel))
      rw [← hsecret] at hsaid
      revert hsaid
      decide +kernel
    · refine hnone (ascii "abc") ⟨activates_activation _, ⟨_, [0], rfl, by simp, ?_⟩,
        by decide +kernel⟩
      exact @saysString_of_plain deviceSecretKey [32] [32] (ascii "abc") (by decide +kernel)
        (by simp [StandardBlank]) (by simp [StandardBlank]) (by decide +kernel)

end EnosDeviceSdk.Activate
