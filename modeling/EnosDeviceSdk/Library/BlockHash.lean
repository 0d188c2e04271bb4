/-
# Hashing by blocks

A text is hashed by folding a compression over its blocks. A text that comes in pieces is hashed
with a buffer, in which the end of the text waits until its block is full. The state behind a text
and what waits are decided by the text alone, and not by the pieces.

If two different texts of whole blocks have the same state behind them, then somewhere on the way
the compression has given the same state for two different inputs, as long as the texts have the
same number of blocks or different last blocks.
-/

import Mathlib.Data.List.Basic

namespace EnosDeviceSdk.Library

universe u v

variable {σ : Type u} {α : Type v}

section Absorb

variable (compress : σ → List α → σ) (size : Nat)

/-- The state behind so many blocks of a text. -/
def absorbBlocks : Nat → σ → List α → σ
  | 0, state, _ => state
  | count + 1, state, text =>
      absorbBlocks count (compress state (text.take size)) (text.drop size)

/-- The state behind all whole blocks of a text. -/
def absorb (state : σ) (text : List α) : σ :=
  absorbBlocks compress size (text.length / size) state text

/-- The end of a text that does not fill a block. -/
def waiting (text : List α) : List α := text.drop (size * (text.length / size))

end Absorb

section Laws

variable {compress : σ → List α → σ} {size : Nat}

theorem absorb_of_short {text : List α} (hshort : text.length < size) (state : σ) :
    absorb compress size state text = state := by
  rw [absorb, Nat.div_eq_of_lt hshort, absorbBlocks]

theorem waiting_of_short {text : List α} (hshort : text.length < size) :
    waiting size text = text := by
  rw [waiting, Nat.div_eq_of_lt hshort, Nat.mul_zero, List.drop_zero]

/-- A whole block is folded into the state. -/
theorem absorb_block {block : List α} (hblock : block.length = size) (hsize : 0 < size)
    (state : σ) (rest : List α) :
    absorb compress size state (block ++ rest) =
      absorb compress size (compress state block) rest := by
  have hcount : (block ++ rest).length / size = rest.length / size + 1 := by
    rw [List.length_append, hblock, Nat.add_div_left _ hsize]
  rw [absorb, hcount, absorbBlocks, ← hblock, List.take_left, List.drop_left, absorb]

/-- It does not wait. -/
theorem waiting_block {block : List α} (hblock : block.length = size) (hsize : 0 < size)
    (rest : List α) : waiting size (block ++ rest) = waiting size rest := by
  rw [waiting, List.length_append, hblock, Nat.add_div_left _ hsize, Nat.mul_succ, Nat.add_comm,
    ← hblock, List.drop_length_add_append, waiting]

theorem length_waiting (text : List α) : (waiting size text).length = text.length % size := by
  rw [waiting, List.length_drop]
  exact (Nat.mod_eq_sub ..).symm

theorem waiting_of_dvd {text : List α} (hdvd : size ∣ text.length) : waiting size text = [] := by
  rw [← List.length_eq_zero_iff, length_waiting, Nat.mod_eq_zero_of_dvd hdvd]

/-- What comes behind a text goes on from the state behind it and from what waits. -/
theorem absorb_append (hsize : 0 < size) (state : σ) (text more : List α) :
    absorb compress size state (text ++ more) =
        absorb compress size (absorb compress size state text) (waiting size text ++ more) ∧
      waiting size (text ++ more) = waiting size (waiting size text ++ more) := by
  induction hlength : text.length using Nat.strongRecOn generalizing state text with
  | ind length ih =>
      rcases Nat.lt_or_ge text.length size with hshort | hlong
      · rw [absorb_of_short hshort, waiting_of_short hshort]
        exact ⟨rfl, rfl⟩
      · have hblock : (text.take size).length = size := List.length_take_of_le hlong
        have hrest := ih (text.drop size).length (by rw [List.length_drop]; omega)
          (compress state (text.take size)) (text.drop size) rfl
        rw [← List.take_append_drop size text, List.append_assoc, absorb_block hblock hsize,
          absorb_block hblock hsize, waiting_block hblock hsize, waiting_block hblock hsize]
        exact hrest

/-- The last block of a text of whole blocks. -/
theorem absorb_concat_block (hsize : 0 < size) {front block : List α}
    (hfront : size ∣ front.length) (hblock : block.length = size) (state : σ) :
    absorb compress size state (front ++ block) =
      compress (absorb compress size state front) block := by
  have hlast := @absorb_block _ _ compress _ _ hblock hsize (absorb compress size state front) []
  have hnone := @absorb_of_short _ _ compress _ [] hsize
  rw [List.append_nil, hnone] at hlast
  rw [(absorb_append hsize state front block).1, waiting_of_dvd hfront, List.nil_append, hlast]

/-! ## Collisions -/

/-- On the way through the texts, the compression gives the same state for two different inputs. -/
def Collide (compress : σ → List α → σ) (size : Nat) (start : σ) (text text' : List α) : Prop :=
  ∃ front block front' block',
    (front ++ block <+: text ∧ size ∣ front.length ∧ block.length = size) ∧
      (front' ++ block' <+: text' ∧ size ∣ front'.length ∧ block'.length = size) ∧
      (absorb compress size start front, block) ≠ (absorb compress size start front', block') ∧
      compress (absorb compress size start front) block =
        compress (absorb compress size start front') block'

/-- Different inputs of the last compression collide at once. -/
theorem collide_of_last (hsize : 0 < size) {front front' block block' : List α} {start : σ}
    (hfront : size ∣ front.length) (hfront' : size ∣ front'.length) (hblock : block.length = size)
    (hblock' : block'.length = size)
    (hne : (absorb compress size start front, block) ≠ (absorb compress size start front', block'))
    (hsame : absorb compress size start (front ++ block) =
      absorb compress size start (front' ++ block')) :
    Collide compress size start (front ++ block) (front' ++ block') := by
  rw [absorb_concat_block hsize hfront hblock, absorb_concat_block hsize hfront' hblock'] at hsame
  exact ⟨front, block, front', block', ⟨List.prefix_refl _, hfront, hblock⟩,
    ⟨List.prefix_refl _, hfront', hblock'⟩, hne, hsame⟩

theorem Collide.longer {start : σ} {text text' : List α}
    (hcollide : Collide compress size start text text') (more more' : List α) :
    Collide compress size start (text ++ more) (text' ++ more') := by
  obtain ⟨front, block, front', block', ⟨hfront, hfirst⟩, ⟨hfront', hsecond⟩, hrest⟩ := hcollide
  exact ⟨front, block, front', block', ⟨hfront.trans (List.prefix_append ..), hfirst⟩,
    ⟨hfront'.trans (List.prefix_append ..), hsecond⟩, hrest⟩

/-- Texts of as many blocks collide somewhere if they differ. -/
theorem collide_of_length (hsize : 0 < size) {text text' : List α} {start : σ}
    (hdvd : size ∣ text.length) (hlength : text.length = text'.length) (hne : text ≠ text')
    (hsame : absorb compress size start text = absorb compress size start text') :
    Collide compress size start text text' := by
  obtain ⟨count, hcount⟩ := hdvd
  induction count generalizing text text' with
  | zero =>
      rw [Nat.mul_zero, List.length_eq_zero_iff] at hcount
      rw [hcount, List.length_nil, eq_comm, List.length_eq_zero_iff] at hlength
      exact absurd (hcount.trans hlength.symm) hne
  | succ count ih =>
      rw [Nat.mul_succ] at hcount
      have hfront : (text.take (size * count)).length = size * count :=
        List.length_take_of_le (by omega)
      have hfront' : (text'.take (size * count)).length = size * count :=
        List.length_take_of_le (by omega)
      have hwhole : size ∣ (text.take (size * count)).length := ⟨count, hfront⟩
      have hwhole' : size ∣ (text'.take (size * count)).length := ⟨count, hfront'⟩
      have hblock : (text.drop (size * count)).length = size := by
        rw [List.length_drop]
        omega
      have hblock' : (text'.drop (size * count)).length = size := by
        rw [List.length_drop]
        omega
      rw [← List.take_append_drop (size * count) text,
        ← List.take_append_drop (size * count) text'] at hsame hne ⊢
      by_cases hinputs :
          (absorb compress size start (text.take (size * count)), text.drop (size * count)) =
            (absorb compress size start (text'.take (size * count)), text'.drop (size * count))
      · obtain ⟨hstates, hlast⟩ := Prod.mk.inj hinputs
        refine (ih (hfront.trans hfront'.symm) ?_ hstates hfront).longer _ _
        intro htakes
        exact hne (by rw [htakes, hlast])
      · exact collide_of_last hsize hwhole hwhole' hblock hblock' hinputs hsame

end Laws

end EnosDeviceSdk.Library
