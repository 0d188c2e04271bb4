/-
# Code that reads a byte string through unchecked addresses

Such code can end in four ways: with a result, with a failure that it reports, with a read
outside the bytes it was given, or not at all. The last is seen as running out of the
steps that a loop was allowed.

A contract says what a result must satisfy and that the two bad endings do not happen. It
is proved piece by piece along the sequencing of the code.
-/

import Mathlib.Data.List.Basic

namespace EnosDeviceSdk.Library

universe u

/-- The ways a piece of code can end. -/
inductive Outcome (α : Type u)
  | ok (value : α)
  | failed
  | stray
  | running
  deriving DecidableEq

namespace Outcome

variable {α β : Type u}

/-- What comes next is done with the result, if there is one. -/
protected def bind (first : Outcome α) (next : α → Outcome β) : Outcome β :=
  match first with
  | .ok value => next value
  | .failed => .failed
  | .stray => .stray
  | .running => .running

instance : Monad Outcome where
  pure := .ok
  bind := Outcome.bind

@[simp]
theorem pure_eq (value : α) : (pure value : Outcome α) = .ok value := rfl

@[simp]
theorem ok_bind (value : α) (next : α → Outcome β) : (ok value >>= next) = next value := rfl

/-- Two steps have a result if the first has one and the second has it from there. -/
theorem bind_eq_ok_iff {first : Outcome α} {next : α → Outcome β} {result : β} :
    (first >>= next) = ok result ↔ ∃ value, first = ok value ∧ next value = ok result := by
  cases first with
  | ok value => simp [ok_bind]
  | failed | stray | running =>
      constructor
      · exact nofun
      · rintro ⟨_, hfirst, -⟩
        exact nomatch hfirst

theorem bind_ok (code : Outcome α) : (code >>= fun value => ok value) = code := by
  cases code <;> rfl

theorem bind_assoc {γ : Type u} (first : Outcome α) (second : α → Outcome β)
    (third : β → Outcome γ) :
    (first >>= second >>= third) = first >>= fun value => second value >>= third := by
  cases first <;> rfl

/-- A guard that is passed. -/
theorem ite_failed_eq_ok_iff {refused : Prop} [Decidable refused] {code : Outcome α} {result : α} :
    (if refused then failed else code) = ok result ↔ ¬refused ∧ code = ok result := by
  by_cases hrefused : refused
  · rw [if_pos hrefused]
    exact ⟨nofun, fun h => absurd hrefused h.1⟩
  · rw [if_neg hrefused]
    exact ⟨fun h => ⟨hrefused, h⟩, And.right⟩

/-- The result, for a caller that treats every other ending alike. -/
def toOption : Outcome α → Option α
  | .ok value => some value
  | .failed | .stray | .running => none

@[simp]
theorem toOption_ok (value : α) : (ok value : Outcome α).toOption = some value := rfl

theorem toOption_eq_some {outcome : Outcome α} {value : α} :
    outcome.toOption = some value ↔ outcome = .ok value := by
  cases outcome <;> simp [toOption]

/-- The contract of a piece of code: it reports a failure or its result is as promised. It
does not read outside its bytes, and it comes to an end. -/
def Keeps (promise : α → Prop) : Outcome α → Prop
  | .ok value => promise value
  | .failed => True
  | .stray => False
  | .running => False

theorem keeps_failed {promise : α → Prop} : (failed : Outcome α).Keeps promise := trivial

/-- The contract of a sequence, from the contracts of its parts. -/
theorem Keeps.bind {between : α → Prop} {promise : β → Prop} {first : Outcome α}
    {next : α → Outcome β} (hfirst : first.Keeps between)
    (hnext : ∀ value, between value → (next value).Keeps promise) :
    (first >>= next).Keeps promise := by
  cases first with
  | ok value => exact hnext value hfirst
  | failed => trivial
  | stray => exact hfirst
  | running => exact hfirst

/-- A part that never gives a result needs nothing of what comes next. -/
theorem Keeps.bind_of_none {promise : β → Prop} {first : Outcome α} {next : α → Outcome β}
    (hfirst : first.Keeps fun _ => False) : (first >>= next).Keeps promise :=
  hfirst.bind fun _ hfalse => hfalse.elim

theorem Keeps.mono {weaker stronger : α → Prop} {code : Outcome α}
    (hkeeps : code.Keeps stronger) (himp : ∀ value, stronger value → weaker value) :
    code.Keeps weaker := by
  cases code with
  | ok value => exact himp value hkeeps
  | failed => trivial
  | stray => exact hkeeps
  | running => exact hkeeps

/-- A code that does not end badly keeps whatever its results satisfy. -/
theorem Keeps.of_results {promise better : α → Prop} {code : Outcome α}
    (hkeeps : code.Keeps promise) (hresults : ∀ value, code = .ok value → better value) :
    code.Keeps better := by
  cases code with
  | ok value => exact hresults value rfl
  | failed => trivial
  | stray => exact hkeeps
  | running => exact hkeeps

theorem Keeps.of_ok {promise : α → Prop} {code : Outcome α} {value : α}
    (hkeeps : code.Keeps promise) (hok : code = .ok value) : promise value := by
  rwa [hok] at hkeeps

end Outcome

/-- A fact about bytes that is decided for each of them. -/
theorem forall_byte {holds : UInt8 → Prop} (hall : ∀ number < 256, holds (UInt8.ofNat number))
    (byte : UInt8) : holds byte := by
  have hbyte := hall byte.toNat byte.toNat_lt
  rwa [UInt8.ofNat_toNat] at hbyte

/-- The byte at an address, counted from the start of the bytes that may be read. -/
def readByte (bytes : List UInt8) (address : Int) : Outcome UInt8 :=
  if address < 0 then .stray
  else
    match bytes[address.toNat]? with
    | some byte => .ok byte
    | none => .stray

/-- Reading behind a known beginning gives the next byte. -/
theorem readByte_append_cons (before after : List UInt8) (byte : UInt8) :
    readByte (before ++ byte :: after) before.length = .ok byte := by
  simp [readByte]

/-- A block of bytes from an address on. -/
def readBytes (bytes : List UInt8) (address : Int) : Nat → Outcome (List UInt8)
  | 0 => .ok []
  | count + 1 => do
      let byte ← readByte bytes address
      let rest ← readBytes bytes (address + 1) count
      return byte :: rest

/-- What is read stands in the bytes. -/
theorem mem_of_readBytes {bytes block : List UInt8} {address : Int} {count : Nat}
    (hread : readBytes bytes address count = .ok block) : ∀ byte ∈ block, byte ∈ bytes := by
  induction count generalizing address block with
  | zero =>
      cases hread
      exact fun _ hbyte => absurd hbyte List.not_mem_nil
  | succ count ih =>
      obtain ⟨first, hfirst, hread⟩ := Outcome.bind_eq_ok_iff.mp hread
      obtain ⟨rest, hrest, hread⟩ := Outcome.bind_eq_ok_iff.mp hread
      cases hread
      intro byte hbyte
      rcases List.mem_cons.mp hbyte with rfl | hlater
      · unfold readByte at hfirst
        split at hfirst
        · cases hfirst
        · split at hfirst
          next hplace =>
            cases hfirst
            exact List.mem_of_getElem? hplace
          next => cases hfirst
      · exact ih hrest byte hlater

/-- Reading a block behind a known beginning gives that block. -/
theorem readBytes_append (before block after : List UInt8) :
    readBytes (before ++ block ++ after) before.length block.length = .ok block := by
  induction block generalizing before with
  | nil => rfl
  | cons byte block ih =>
      have hrest := ih (before ++ [byte])
      have hplace : ((before ++ [byte]).length : Int) = before.length + 1 := by
        rw [List.length_append, List.length_singleton]
        omega
      have hsplit : before ++ [byte] ++ block ++ after = before ++ byte :: (block ++ after) := by
        simp
      have hwhole : before ++ byte :: block ++ after = before ++ byte :: (block ++ after) := by
        simp
      rw [hplace, hsplit] at hrest
      rw [hwhole, List.length_cons, readBytes, readByte_append_cons, Outcome.ok_bind, hrest]
      rfl

/-- A block is read where it lies inside of the bytes. -/
theorem readBytes_eq_ok_iff {bytes block : List UInt8} {place count : Nat} (hcount : 0 < count) :
    readBytes bytes place count = .ok block ↔
      place + count ≤ bytes.length ∧ block = (bytes.drop place).take count := by
  induction count generalizing place block with
  | zero => exact absurd hcount (Nat.lt_irrefl 0)
  | succ count ih =>
      by_cases hinside : place < bytes.length
      · have hnext : (place : Int) + 1 = (place + 1 : Nat) := rfl
        have hbyte : readByte bytes place = .ok bytes[place] := by
          simp [readByte, hinside]
        rw [readBytes, hbyte, Outcome.ok_bind, List.drop_eq_getElem_cons hinside,
          List.take_succ_cons]
        rcases Nat.eq_zero_or_pos count with rfl | hmore
        · rw [readBytes, Outcome.ok_bind, Outcome.pure_eq, Outcome.ok.injEq, List.take_zero,
            eq_comm]
          exact (and_iff_right hinside).symm
        · rw [Outcome.bind_eq_ok_iff]
          constructor
          · rintro ⟨rest, hrest, hblock⟩
            rw [hnext, ih hmore] at hrest
            cases hblock
            exact ⟨by omega, by rw [hrest.2]⟩
          · rintro ⟨hroom, rfl⟩
            refine ⟨_, ?_, rfl⟩
            rw [hnext, ih hmore]
            exact ⟨by omega, rfl⟩
      · have hstray : readByte bytes place = .stray := by
          simp [readByte, hinside]
        rw [readBytes, hstray]
        exact iff_of_false nofun fun hroom => hinside (by omega)

end EnosDeviceSdk.Library
