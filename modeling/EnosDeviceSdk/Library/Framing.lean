/-
# Streams that are concatenations of whole frames

A byte stream is framed when it can be cut into complete frames with nothing
left over. The frames are any predicate on lists. When the predicate is
self-delimiting (no frame is a proper prefix of another continuation) the cut is
unique, and what follows a framed prefix decides alone whether the stream is
still framed: a started but unfinished frame breaks it.
-/

import Mathlib.Data.List.Basic

namespace EnosDeviceSdk.Library

universe u

variable {β : Type u} {frame : List β → Prop}

/-- The stream is a concatenation of complete frames. -/
def Framed (frame : List β → Prop) (stream : List β) : Prop :=
  ∃ frames : List (List β), (∀ piece ∈ frames, frame piece) ∧ stream = frames.flatten

theorem framed_nil : Framed frame ([] : List β) := ⟨[], by simp, rfl⟩

theorem framed_of_frame {piece : List β} (hpiece : frame piece) : Framed frame piece :=
  ⟨[piece], by simpa using hpiece, by simp⟩

theorem Framed.append {first second : List β} (hfirst : Framed frame first)
    (hsecond : Framed frame second) : Framed frame (first ++ second) := by
  obtain ⟨left, hleft, rfl⟩ := hfirst
  obtain ⟨right, hright, rfl⟩ := hsecond
  refine ⟨left ++ right, ?_, by simp⟩
  intro piece hpiece
  exact (List.mem_append.mp hpiece).elim (hleft piece) (hright piece)

/-- Frames are nonempty and a stream starts with at most one of them. -/
structure SelfDelimiting (frame : List β → Prop) : Prop where
  nonempty : ∀ piece, frame piece → piece ≠ []
  unique : ∀ first second restFirst restSecond, frame first → frame second →
    first ++ restFirst = second ++ restSecond → first = second

/-- A nonempty framed stream starts with a frame and goes on framed. -/
theorem Framed.exists_head {stream : List β} (hframed : Framed frame stream)
    (hnonempty : stream ≠ []) :
    ∃ piece rest, frame piece ∧ Framed frame rest ∧ stream = piece ++ rest := by
  obtain ⟨frames, hframes, rfl⟩ := hframed
  cases frames with
  | nil => simp at hnonempty
  | cons piece later =>
      refine ⟨piece, later.flatten, hframes piece (by simp), ⟨later, ?_, rfl⟩, by simp⟩
      exact fun other hother => hframes other (List.mem_cons_of_mem _ hother)

/-- A framed prefix can be cancelled from a framed stream. -/
theorem SelfDelimiting.framed_append_iff (hdelimiting : SelfDelimiting frame)
    {first second : List β} (hfirst : Framed frame first) :
    Framed frame (first ++ second) ↔ Framed frame second := by
  refine ⟨?_, hfirst.append⟩
  obtain ⟨frames, hframes, rfl⟩ := hfirst
  induction frames with
  | nil => simp
  | cons piece later ih =>
      intro hframed
      have hpiece : frame piece := hframes piece (by simp)
      have hnonempty : piece ≠ [] := hdelimiting.nonempty piece hpiece
      obtain ⟨head, rest, hhead, hrest, hsplit⟩ :=
        hframed.exists_head (by simp [hnonempty])
      rw [List.flatten_cons, List.append_assoc] at hsplit
      have hsame : piece = head :=
        hdelimiting.unique piece head _ rest hpiece hhead hsplit
      subst hsame
      rw [← List.append_cancel_left hsplit] at hrest
      exact ih (fun other hother => hframes other (List.mem_cons_of_mem _ hother)) hrest

/-- A nonempty stream that no frame starts is not framed. -/
theorem not_framed_of_no_head {stream : List β} (hnonempty : stream ≠ [])
    (hnone : ∀ piece rest, frame piece → stream ≠ piece ++ rest) :
    ¬ Framed frame stream := by
  intro hframed
  obtain ⟨piece, rest, hpiece, _, hsplit⟩ := hframed.exists_head hnonempty
  exact hnone piece rest hpiece hsplit

/-- A proper nonempty prefix of a frame is not framed. -/
theorem SelfDelimiting.not_framed_of_proper_prefix (hdelimiting : SelfDelimiting frame)
    {started missing : List β} (hwhole : frame (started ++ missing))
    (hstarted : started ≠ []) (hmissing : missing ≠ []) :
    ¬ Framed frame started := by
  refine not_framed_of_no_head hstarted fun piece rest hpiece hsplit => ?_
  have hsame : piece = started ++ missing :=
    hdelimiting.unique piece (started ++ missing) (rest ++ missing) [] hpiece hwhole
      (by simp [hsplit])
  have hlength := congrArg List.length hsplit
  simp only [hsame, List.length_append] at hlength
  have hpositive := List.length_pos_iff.mpr hmissing
  omega

/-- Of the prefixes of a frame only the empty one and the frame itself are framed. -/
theorem SelfDelimiting.framed_take_iff (hdelimiting : SelfDelimiting frame) {whole : List β}
    (hwhole : frame whole) (count : Nat) :
    Framed frame (whole.take count) ↔ count = 0 ∨ whole.length ≤ count := by
  constructor
  · intro hframed
    by_contra hbetween
    rw [not_or, Nat.not_le] at hbetween
    have hmissing : whole.drop count ≠ [] := by
      rw [ne_eq, List.drop_eq_nil_iff]
      omega
    have hstarted : whole.take count ≠ [] := by
      rw [ne_eq, List.take_eq_nil_iff]
      exact fun hnil => hnil.elim hbetween.1 (hdelimiting.nonempty whole hwhole)
    exact hdelimiting.not_framed_of_proper_prefix
      (by rwa [List.take_append_drop] : frame (whole.take count ++ whole.drop count))
      hstarted hmissing hframed
  · rintro (rfl | hall)
    · rw [List.take_zero]
      exact framed_nil
    · rw [List.take_of_length_le hall]
      exact framed_of_frame hwhole

end EnosDeviceSdk.Library
