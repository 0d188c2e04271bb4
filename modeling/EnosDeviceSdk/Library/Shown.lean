/-
# What stands between separators

A text shows bodies if each of them stands between two separators in it, one body behind the other.
What is written between separators can be read there, and nothing else can: a text that shows as
many bodies as were written into it, whatever the writer has put for them, shows the ones that were
written, in their order.
-/

import Mathlib.Data.List.Basic
import Mathlib.Data.Finset.Card

namespace EnosDeviceSdk.Library

universe u v

variable {α : Type u} {sep : α}

/-- Each body stands between two separators, and they stand in this order. -/
inductive Shows (sep : α) : List (List α) → List α → Prop
  | nil (text : List α) : Shows sep [] text
  | cons (front body : List α) {bodies : List (List α)} {rest : List α}
      (hrest : Shows sep bodies rest) :
      Shows sep (body :: bodies) (front ++ sep :: (body ++ sep :: rest))

namespace Shows

/-- More text in front does not hide a body. -/
theorem behind {bodies : List (List α)} {text : List α} (hshows : Shows sep bodies text)
    (front : List α) : Shows sep bodies (front ++ text) := by
  cases hshows with
  | nil => exact .nil _
  | cons later body hrest =>
      rw [← List.append_assoc]
      exact .cons (front ++ later) body hrest

theorem append {first second : List (List α)} {text text' : List α}
    (hfirst : Shows sep first text) (hsecond : Shows sep second text') :
    Shows sep (first ++ second) (text ++ text') := by
  induction hfirst with
  | nil text => exact hsecond.behind text
  | cons front body _ ih =>
      rw [List.append_assoc, List.cons_append, List.cons_append, List.append_assoc,
        List.cons_append]
      exact .cons front body ih

/-- Nor does more text behind it. -/
theorem before {bodies : List (List α)} {text : List α} (hshows : Shows sep bodies text)
    (rest : List α) : Shows sep bodies (text ++ rest) := by
  have hall := hshows.append (@Shows.nil α sep rest)
  rwa [List.append_nil] at hall

end Shows

section Split

variable [BEq α]

/-- There are at most as many separators as there is text. -/
theorem length_splitOn_le (text : List α) : (text.splitOn sep).length ≤ text.length + 1 := by
  induction text with
  | nil => exact Nat.le_refl 1
  | cons head text ih =>
      rw [List.splitOn_cons_eq_if_modifyHead]
      split
      · exact Nat.succ_le_succ ih
      · rw [List.length_modifyHead]
        exact Nat.le_succ_of_le ih

variable [LawfulBEq α]

/-- Bodies without separators are among the pieces. -/
theorem Shows.sublist {bodies : List (List α)} {text : List α} (hshows : Shows sep bodies text)
    (hbodies : ∀ body ∈ bodies, sep ∉ body) : List.Sublist bodies (text.splitOn sep) := by
  induction hshows with
  | nil text => exact List.nil_sublist _
  | cons front body _ ih =>
      rw [List.forall_mem_cons] at hbodies
      rw [List.splitOn_append_cons_self, List.splitOn_append_cons_self_of_not_mem hbodies.1]
      exact ((ih hbodies.2).cons_cons body).trans (List.sublist_append_right _ _)

end Split

/-! ## Marks -/

section Marks

variable {β : Type u} {γ : Type v} {head : List β} {places : List (γ × List β)}
  {marked plain : β}

/-- Of what is written, only the marks are one of two things that stand nowhere else. -/
theorem filter_marks (hhead : marked ∉ head ∧ plain ∉ head)
    (hgaps : ∀ place ∈ places, marked ∉ place.2 ∧ plain ∉ place.2) {mark : γ → β}
    (hmark : ∀ source, mark source = marked ∨ mark source = plain)
    {kind : β → Bool} (hkind : ∀ piece, kind piece = true ↔ piece = marked ∨ piece = plain) :
    (head ++ places.flatMap fun place => mark place.1 :: place.2).filter kind =
      places.map fun place => mark place.1 := by
  have hnone : ∀ pieces : List β, marked ∉ pieces ∧ plain ∉ pieces → pieces.filter kind = [] := by
    rintro pieces ⟨hmarked, hplain⟩
    rw [List.filter_eq_nil_iff]
    intro piece hpiece htrue
    rcases (hkind piece).mp htrue with rfl | rfl
    · exact hmarked hpiece
    · exact hplain hpiece
  rw [List.filter_append, hnone head hhead, List.nil_append]
  induction places with
  | nil => rfl
  | cons place rest ih =>
      rw [List.forall_mem_cons] at hgaps
      rw [List.flatMap_cons, List.cons_append, List.filter_cons_of_pos ((hkind _).mpr (hmark _)),
        List.filter_append, hnone place.2 hgaps.1, List.nil_append, ih hgaps.2, List.map_cons]

/-- If as many sources are read as were written, and for every marking of the sources the marks
that are read stand in what is written in this order, then the sources are those that were written.
The marks must not stand in what is around them. -/
theorem eq_of_marks (hne : marked ≠ plain) (hhead : marked ∉ head ∧ plain ∉ head)
    (hgaps : ∀ place ∈ places, marked ∉ place.2 ∧ plain ∉ place.2) {sources : List γ}
    (hlength : sources.length = places.length)
    (hread : ∀ mark : γ → β, (∀ source, mark source = marked ∨ mark source = plain) →
      List.Sublist (sources.map mark) (head ++ places.flatMap fun place =>
        mark place.1 :: place.2)) :
    sources = places.map Prod.fst := by
  classical
  apply List.ext_getElem (by rw [List.length_map, hlength])
  intro index hindex hindex'
  let mark : γ → β := fun source => if source = sources[index] then marked else plain
  have hmark : ∀ source, mark source = marked ∨ mark source = plain := by
    intro source
    by_cases hsame : source = sources[index]
    · exact Or.inl (if_pos hsame)
    · exact Or.inr (if_neg hsame)
  have hkind : ∀ piece, decide (piece = marked ∨ piece = plain) = true ↔
      piece = marked ∨ piece = plain := fun piece => decide_eq_true_iff
  have hsub := (hread mark hmark).filter (fun piece => decide (piece = marked ∨ piece = plain))
  rw [filter_marks hhead hgaps hmark hkind, List.filter_eq_self.mpr] at hsub
  · have hsame := hsub.eq_of_length (by rw [List.length_map, List.length_map, hlength])
    have hat := congrArg (fun marks => marks[index]?) hsame
    have hplace : index < places.length := hlength ▸ hindex
    simp only [List.getElem?_map, List.getElem?_eq_getElem hindex,
      List.getElem?_eq_getElem hplace, Option.map_some, Option.some.injEq] at hat
    rw [List.getElem_map]
    by_contra hother
    rw [show mark sources[index] = marked from if_pos rfl,
      show mark places[index].1 = plain from if_neg fun hsame => hother hsame.symm] at hat
    exact hne hat
  · intro piece hpiece
    obtain ⟨source, -, rfl⟩ := List.mem_map.mp hpiece
    exact decide_eq_true (hmark source)

end Marks

/-- Among more things than a list has, one is not in the list. -/
theorem exists_not_mem {make : Nat → α} {bound : Nat}
    (hmake : Set.InjOn make (Finset.range bound)) {used : List α} (hused : used.length < bound) :
    ∃ index < bound, make index ∉ used := by
  classical
  have hcard : used.toFinset.card < ((Finset.range bound).image make).card := by
    rw [Finset.card_image_of_injOn hmake, Finset.card_range]
    exact Nat.lt_of_le_of_lt (List.toFinset_card_le used) hused
  obtain ⟨item, hitem, hnone⟩ := Finset.exists_mem_notMem_of_card_lt_card hcard
  obtain ⟨index, hindex, rfl⟩ := Finset.mem_image.mp hitem
  exact ⟨index, Finset.mem_range.mp hindex, fun hmem => hnone (List.mem_toFinset.mpr hmem)⟩

end EnosDeviceSdk.Library
