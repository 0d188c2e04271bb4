/-
# Filters whose levels are literals or single wildcards

The filters of the device model have levels of two kinds: literals and `+` alone. On such filters
the delivery test says of every topic name, also of one with wildcards in it, that the levels agree
one by one. Two such filters clash if a literal of the one stands against another literal of the
other, or if they differ in length. Filters that clash never select the same name.
-/

import EnosDeviceSdk.Mqtt.TopicRules
import Mathlib.Data.List.Forall2

namespace EnosDeviceSdk.Mqtt

open EnosDeviceSdk.Infra

/-- The level is a literal or a `+` alone. -/
def PlainLevel (filter : List UInt8) : Prop := WildcardFree filter ∨ filter = [plus]

instance (filter : List UInt8) : Decidable (PlainLevel filter) :=
  inferInstanceAs (Decidable (_ ∨ _))

/-- A level of a name agrees with a level of a filter. -/
def LevelAgrees (filter name : List UInt8) : Prop :=
  filter = [plus] ∧ name ≠ [] ∨ WildcardFree filter ∧ filter = name

/-- The levels of a name agree with those of a filter. -/
abbrev LevelsAgree : List (List UInt8) → List (List UInt8) → Prop := List.Forall₂ LevelAgrees

/-- Some name may agree with both filters. -/
def compatible : List (List UInt8) → List (List UInt8) → Bool
  | [], [] => true
  | filter :: filters, other :: others =>
      (filter = other || filter = [plus] || other = [plus]) && compatible filters others
  | _, _ => false

theorem LevelAgrees.eq_of_free {filter name : List UInt8} (hagrees : LevelAgrees filter name)
    (hfree : WildcardFree filter) : filter = name := by
  rcases hagrees with ⟨rfl, -⟩ | ⟨-, hsame⟩
  · exact absurd hfree plus_not_free
  · exact hsame

theorem levelAgrees_of_free {filter : List UInt8} (hfree : WildcardFree filter) :
    LevelAgrees filter filter := Or.inr ⟨hfree, rfl⟩

/-- Filters that agree with one name are compatible. -/
theorem compatible_of_agree {filters others names : List (List UInt8)}
    (hfilters : LevelsAgree filters names) (hothers : LevelsAgree others names) :
    compatible filters others = true := by
  induction hfilters generalizing others with
  | nil =>
      cases hothers
      rfl
  | cons hfirst _ ih =>
      cases hothers with
      | cons hother hothers =>
          rw [compatible, ih hothers, Bool.and_true]
          rcases hfirst with ⟨rfl, -⟩ | ⟨-, rfl⟩
          · simp
          · rcases hother with ⟨rfl, -⟩ | ⟨-, rfl⟩
            · simp
            · simp

/-- The matcher's test on one level. -/
theorem levelCovers_plain {filter : List UInt8} (hplain : PlainLevel filter)
    (name : List UInt8) :
    (levelCovers filter name = true ↔ LevelAgrees filter name) ∧
      gluedCovers hash filter name = false := by
  rcases hplain with hfree | rfl
  · refine ⟨?_, gluedCovers_of_free hfree hash name⟩
    have hne : filter ≠ [plus] := fun hsame => plus_not_free (hsame ▸ hfree)
    rw [levelCovers_of_free hfree, LevelAgrees, decide_eq_true_eq]
    simp [hne, hfree]
  · refine ⟨?_, gluedCovers_hash_plus name⟩
    have hfree := plus_not_free
    rw [levelCovers_plus, LevelAgrees]
    simp [hfree]

theorem levelsCover_plain {filters : List (List UInt8)}
    (hplain : ∀ filter ∈ filters, PlainLevel filter) (names : List (List UInt8)) :
    levelsCover filters names = true ↔ LevelsAgree filters names := by
  induction filters generalizing names with
  | nil => cases names <;> simp [levelsCover, LevelsAgree]
  | cons filter filters ih =>
      rw [List.forall_mem_cons] at hplain
      cases names with
      | nil => simp [levelsCover, LevelsAgree]
      | cons name names =>
          obtain ⟨hcovers, hglued⟩ := levelCovers_plain hplain.1 name
          rw [levelsCover, hglued, Bool.false_and, Bool.or_false, Bool.and_eq_true, hcovers,
            ih hplain.2, LevelsAgree, List.forall₂_cons]

/-- The filter agrees with its own text. -/
theorem levelsAgree_self {filters : List (List UInt8)}
    (hplain : ∀ filter ∈ filters, PlainLevel filter) : LevelsAgree filters filters := by
  rw [LevelsAgree, List.forall₂_same]
  intro filter hfilter
  rcases hplain filter hfilter with hfree | rfl
  · exact levelAgrees_of_free hfree
  · exact Or.inl ⟨rfl, by simp⟩

/-- The delivery test on a filter with such levels. -/
theorem topicSelected_plain {topicFilter : CString}
    (hplain : ∀ filter ∈ topicLevels topicFilter.bytes, PlainLevel filter)
    (topicName : List UInt8) :
    topicSelected topicFilter (receivedTopic topicName) = true ↔
      LevelsAgree (topicLevels topicFilter.bytes) (topicLevels topicName) := by
  rw [topicSelected, iotxMcIsTopicMatched, receivedTopic_bytes, matched_eq_levelsCover,
    Bool.or_eq_true, levelsCover_plain hplain]
  refine or_iff_right_of_imp fun hequals => ?_
  have hsame : topicName = topicFilter.bytes := by
    simp only [mqttPacketEquals, receivedTopic, MqttLenString.bytes, Option.getD_some,
      List.take_length, Bool.and_eq_true, beq_iff_eq] at hequals
    exact hequals.2
  rw [hsame]
  exact levelsAgree_self hplain

/-- What it takes for the levels of a name to agree with literals and further levels. -/
theorem levelsAgree_append {literals : List (List UInt8)}
    (hfree : ∀ level ∈ literals, WildcardFree level) {filters names : List (List UInt8)} :
    LevelsAgree (literals ++ filters) names ↔
      ∃ rest, names = literals ++ rest ∧ LevelsAgree filters rest := by
  induction literals generalizing names with
  | nil => simp
  | cons literal literals ih =>
      rw [List.forall_mem_cons] at hfree
      rw [List.cons_append]
      constructor
      · intro hagree
        cases hagree with
        | cons hfirst hbehind =>
            obtain ⟨rest, rfl, hrest⟩ := (ih hfree.2).mp hbehind
            exact ⟨rest, by rw [hfirst.eq_of_free hfree.1]; rfl, hrest⟩
      · rintro ⟨rest, rfl, hrest⟩
        exact .cons (levelAgrees_of_free hfree.1) ((ih hfree.2).mpr ⟨rest, rfl, hrest⟩)

/-! ## Levels and texts -/

/-- Levels with a slash behind each, and a text behind them. -/
def joined (levels : List (List UInt8)) (later : List UInt8) : List UInt8 :=
  levels.flatMap (· ++ [slash]) ++ later

theorem joined_cons (level : List UInt8) (levels : List (List UInt8)) (later : List UInt8) :
    joined (level :: levels) later = level ++ slash :: joined levels later := by
  simp [joined]

theorem topicLevels_joined {levels : List (List UInt8)} (hlevels : ∀ level ∈ levels, slash ∉ level)
    (later : List UInt8) : topicLevels (joined levels later) = levels ++ topicLevels later := by
  induction levels with
  | nil => rfl
  | cons level levels ih =>
      rw [List.forall_mem_cons] at hlevels
      rw [joined_cons, List.cons_append, ← ih hlevels.2]
      exact List.splitOn_append_cons_self_of_not_mem hlevels.1 _

/-- A text whose levels go on behind some levels goes on behind their slashes. -/
theorem exists_joined_of_topicLevels {levels rest : List (List UInt8)} (hrest : rest ≠ [])
    {topic : List UInt8} (htopic : topicLevels topic = levels ++ rest) :
    ∃ later, topic = joined levels later ∧ topicLevels later = rest := by
  induction levels generalizing topic with
  | nil => exact ⟨topic, rfl, htopic⟩
  | cons level levels ih =>
      obtain ⟨first, behind, rfl, -, ⟨-, hsingle⟩ | ⟨later, rfl, hmore⟩⟩ := topicLevels_cases topic
      · rw [hsingle, List.cons_append, List.cons.injEq] at htopic
        exact absurd (List.append_eq_nil_iff.mp htopic.2.symm).2 hrest
      · rw [hmore, List.cons_append, List.cons.injEq] at htopic
        obtain ⟨text, rfl, htext⟩ := ih htopic.2
        exact ⟨text, by rw [joined_cons, htopic.1], htext⟩

end EnosDeviceSdk.Mqtt
