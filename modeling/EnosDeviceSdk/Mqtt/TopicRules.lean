/-
# The delivery test against the matching rules of MQTT

The MQTT rules work on levels: `+` stands for exactly one level, a final `#` for
the parent level and everything below it, and any other level for itself. The
client's delivery test departs from them in two ways only. A wildcard of the
client needs a character to stand on, so it covers neither an empty level nor
the parent of `#`. And a filter of maximal length may end in a wildcard glued to
a literal, because its last character escapes the validation; the matcher then
treats it as a prefix test, while the rules take the level literally.
-/

import EnosDeviceSdk.Mqtt.Topic

namespace EnosDeviceSdk.Mqtt

open EnosDeviceSdk.Infra

/-- The MQTT rules on levels. -/
def mqttLevelsMatch : List (List UInt8) → List (List UInt8) → Bool
  | [], names => names.isEmpty
  | filter :: filters, names =>
      if filter = [hash] ∧ filters = [] then true
      else
        match names with
        | [] => false
        | name :: names => (filter = [plus] || filter = name) && mqttLevelsMatch filters names

/-- The filter matches the topic name under the MQTT rules. -/
def mqttMatches (topicFilter topicName : List UInt8) : Bool :=
  mqttLevelsMatch (topicLevels topicFilter) (topicLevels topicName)

/-- Reading both level by level, a `+` meets an empty level, or the final `#`
meets an empty level or no level at all. -/
def wildcardFacesEmpty : List (List UInt8) → List (List UInt8) → Bool
  | [], _ => false
  | filter :: filters, names =>
      if filter = [hash] ∧ filters = [] then (names.head?.getD []).isEmpty
      else
        match names with
        | [] => false
        | name :: names => filter = [plus] && name.isEmpty || wildcardFacesEmpty filters names

/-- The last filter level is a nonempty text with a wildcard glued to it, the name
continues that text, and the levels before it agree. -/
def gluedTailCovers : List (List UInt8) → List (List UInt8) → Bool
  | [], _ => false
  | _ :: _, [] => false
  | filter :: filters, name :: names =>
      if filters = [] then
        filter.length > 1 &&
          (gluedCovers plus filter name && names = [] || gluedCovers hash filter name)
      else levelCovers filter name && gluedTailCovers filters names

/-- The topic name as `MQTTDeserialize_publish` hands it over. -/
def receivedTopic (topicName : List UInt8) : MqttString :=
  ⟨none, ⟨topicName.length, some topicName⟩⟩

@[simp]
theorem receivedTopic_bytes (topicName : List UInt8) :
    (receivedTopic topicName).lenstring.bytes = topicName := by
  simp [receivedTopic, MqttLenString.bytes]

/-! ## Single levels -/

/-- A level without wildcards covers only itself. -/
theorem gluedCovers_of_free {filter : List UInt8} (hfree : WildcardFree filter)
    (wildcard : UInt8) (name : List UInt8) : gluedCovers wildcard filter name = false := by
  induction filter generalizing name with
  | nil => rfl
  | cons curf filter ih =>
      rw [wildcardFree_cons] at hfree
      cases name with
      | nil => exact gluedCovers_nil wildcard _
      | cons curn name =>
          rw [gluedCovers_cons_literal hfree.1.1 hfree.1.2, ih hfree.2, Bool.and_false]

theorem levelCovers_of_free {filter : List UInt8} (hfree : WildcardFree filter)
    (name : List UInt8) : levelCovers filter name = decide (filter = name) := by
  simp [levelCovers, hfree, gluedCovers_of_free hfree]

theorem levelCovers_of_not_free {filter : List UInt8} (hfree : ¬ WildcardFree filter)
    (name : List UInt8) : levelCovers filter name = gluedCovers plus filter name := by
  simp [levelCovers, hfree]

/-- A single-character level is a wildcard or free of wildcards. -/
theorem checkedLevel_cases {level : List UInt8} (hchecked : CheckedLevel level) :
    level = [plus] ∨ level = [hash] ∨ WildcardFree level := by
  rcases hchecked with hshort | hfree
  · match level, hshort with
    | [], _ => exact Or.inr (Or.inr wildcardFree_nil)
    | [char], _ =>
        by_cases hplus : char = plus
        · exact Or.inl (by rw [hplus])
        · by_cases hhash : char = hash
          · exact Or.inr (Or.inl (by rw [hhash]))
          · exact Or.inr (Or.inr ((wildcardFree_cons char []).mpr
              ⟨⟨hplus, hhash⟩, wildcardFree_nil⟩))
  · exact Or.inr (Or.inr hfree)

theorem plus_not_free : ¬ WildcardFree [plus] := by decide

theorem hash_not_free : ¬ WildcardFree [hash] := by decide

/-- A wildcard-free level is not a filter level that has a wildcard. -/
theorem ne_of_free_of_not_free {filter name : List UInt8} (hfilter : ¬ WildcardFree filter)
    (hname : WildcardFree name) : filter ≠ name := fun heq => hfilter (heq ▸ hname)

theorem levelCovers_plus (name : List UInt8) :
    levelCovers [plus] name = !name.isEmpty := by
  simp [levelCovers_cons_wildcard]

theorem levelCovers_hash (name : List UInt8) : levelCovers [hash] name = false := by
  simp [levelCovers_cons_wildcard, Ne.symm plus_ne_hash]

theorem gluedCovers_hash_plus (name : List UInt8) : gluedCovers hash [plus] name = false := by
  simp [gluedCovers_cons_wildcard, plus_ne_hash]

theorem gluedCovers_hash_hash (name : List UInt8) :
    gluedCovers hash [hash] name = !name.isEmpty := by
  simp [gluedCovers_cons_wildcard]

/-! ## All levels -/

/-- The last level of a filter, whatever it is. -/
theorem levelsCover_last (filter : List UInt8) {names : List (List UInt8)}
    (hnames : ∀ level ∈ names, WildcardFree level) :
    levelsCover [filter] names =
      (mqttLevelsMatch [filter] names && !wildcardFacesEmpty [filter] names ||
        gluedTailCovers [filter] names) := by
  cases names with
  | nil =>
      by_cases hhash : filter = [hash] <;>
        simp [levelsCover, mqttLevelsMatch, wildcardFacesEmpty, gluedTailCovers, hhash]
  | cons name names =>
      have hname : WildcardFree name := hnames name (by simp)
      by_cases hfree : WildcardFree filter
      · have hhash : filter ≠ [hash] := fun heq => hash_not_free (heq ▸ hfree)
        have hplus : filter ≠ [plus] := fun heq => plus_not_free (heq ▸ hfree)
        cases names <;>
          simp [levelsCover, mqttLevelsMatch, wildcardFacesEmpty, gluedTailCovers, hhash, hplus,
            levelCovers_of_free hfree, gluedCovers_of_free hfree]
      · by_cases hlong : filter.length > 1
        · -- a glued tail: the rules want the name level to be this very text
          have hhash : filter ≠ [hash] := fun heq => by simp [heq] at hlong
          have hplus : filter ≠ [plus] := fun heq => by simp [heq] at hlong
          have hne : filter ≠ name := ne_of_free_of_not_free hfree hname
          cases names <;>
            simp [levelsCover, mqttLevelsMatch, gluedTailCovers, hhash, hplus, hne, hlong,
              levelCovers_of_not_free hfree]
        · rcases checkedLevel_cases (Or.inl (Nat.le_of_not_lt hlong)) with rfl | rfl | hfree'
          · cases names <;>
              simp [levelsCover, mqttLevelsMatch, wildcardFacesEmpty, gluedTailCovers,
                levelCovers_plus, gluedCovers_hash_plus, plus_ne_hash]
          · simp [levelsCover, mqttLevelsMatch, wildcardFacesEmpty, gluedTailCovers,
              levelCovers_hash, gluedCovers_hash_hash]
          · exact absurd hfree' hfree

/-- On a filter whose levels but the last are checked, the matcher agrees with the
MQTT rules up to empty levels and a glued tail. -/
theorem levelsCover_eq {filters names : List (List UInt8)}
    (hfilters : ∀ level ∈ filters.dropLast, CheckedLevel level)
    (hnames : ∀ level ∈ names, WildcardFree level) :
    levelsCover filters names =
      (mqttLevelsMatch filters names && !wildcardFacesEmpty filters names ||
        gluedTailCovers filters names) := by
  induction filters generalizing names with
  | nil => simp [levelsCover, mqttLevelsMatch, wildcardFacesEmpty, gluedTailCovers]
  | cons filter filters ih =>
      by_cases hlast : filters = []
      · subst hlast
        exact levelsCover_last filter hnames
      · cases names with
        | nil => simp [levelsCover, mqttLevelsMatch, gluedTailCovers, hlast]
        | cons name names =>
            rw [List.dropLast_cons_of_ne_nil hlast] at hfilters
            have hname : WildcardFree name := hnames name (by simp)
            have hrest := @ih names (fun level hlevel => hfilters level (by simp [hlevel]))
              (fun level hlevel => hnames level (by simp [hlevel]))
            rcases checkedLevel_cases (hfilters filter (by simp)) with rfl | rfl | hfree
            · cases name <;>
                simp [levelsCover, mqttLevelsMatch, wildcardFacesEmpty, gluedTailCovers, hlast,
                  levelCovers_plus, gluedCovers_hash_plus, hrest]
            · have hne : [hash] ≠ name := ne_of_free_of_not_free hash_not_free hname
              simp [levelsCover, mqttLevelsMatch, gluedTailCovers, hlast, levelCovers_hash,
                hne, Ne.symm plus_ne_hash]
            · have hplus : filter ≠ [plus] := fun heq => plus_not_free (heq ▸ hfree)
              by_cases hsame : filter = name
              · subst hsame
                simp [levelsCover, mqttLevelsMatch, wildcardFacesEmpty, gluedTailCovers, hlast,
                  hplus, levelCovers_of_free hfree, gluedCovers_of_free hfree, hrest]
              · simp [levelsCover, mqttLevelsMatch, gluedTailCovers, hlast, hplus,
                  levelCovers_of_free hfree, hsame]

/-- A glued tail never matches under the MQTT rules. -/
theorem not_match_of_gluedTail {filters names : List (List UInt8)}
    (hnames : ∀ level ∈ names, WildcardFree level)
    (hglued : gluedTailCovers filters names = true) : mqttLevelsMatch filters names = false := by
  induction filters generalizing names with
  | nil => exact absurd hglued (by simp [gluedTailCovers])
  | cons filter filters ih =>
      cases names with
      | nil => exact absurd hglued (by simp [gluedTailCovers])
      | cons name names =>
          by_cases hlast : filters = []
          · simp only [gluedTailCovers, hlast, if_true, Bool.and_eq_true,
              decide_eq_true_eq] at hglued
            obtain ⟨hlong, hcovers⟩ := hglued
            have hnotfree : ¬ WildcardFree filter := by
              intro hfree
              simp [gluedCovers_of_free hfree] at hcovers
            have hhash : filter ≠ [hash] := fun heq => by simp [heq] at hlong
            have hplus : filter ≠ [plus] := fun heq => by simp [heq] at hlong
            have hne : filter ≠ name := ne_of_free_of_not_free hnotfree (hnames name (by simp))
            simp [mqttLevelsMatch, hhash, hplus, hne]
          · simp only [gluedTailCovers, hlast, if_false, Bool.and_eq_true] at hglued
            have hrest := ih (fun level hlevel => hnames level (by simp [hlevel])) hglued.2
            simp [mqttLevelsMatch, hlast, hrest]

/-- A glued tail is a level that the validation would reject. -/
theorem not_gluedTail_of_checked {filters names : List (List UInt8)}
    (hfilters : ∀ level ∈ filters, CheckedLevel level) :
    ¬ gluedTailCovers filters names = true := by
  induction filters generalizing names with
  | nil => simp [gluedTailCovers]
  | cons filter filters ih =>
      cases names with
      | nil => simp [gluedTailCovers]
      | cons name names =>
          have hrest := @ih names fun level hlevel => hfilters level (by simp [hlevel])
          by_cases hlast : filters = []
          · rcases hfilters filter (by simp) with hshort | hfree
            · simp [gluedTailCovers, hlast, Nat.not_lt.mpr hshort]
            · simp [gluedTailCovers, hlast, gluedCovers_of_free hfree]
          · simp [gluedTailCovers, hlast, hrest]

/-! ## The delivery test -/

/-- The levels of a text without wildcards have none. -/
theorem wildcardFree_levels {text : List UInt8} (hfree : WildcardFree text) :
    ∀ level ∈ topicLevels text, WildcardFree level := by
  intro level hlevel
  have hsubset := (infix_of_mem_splitOn hlevel).subset
  exact ⟨fun hplus => hfree.1 (hsubset hplus), fun hhash => hfree.2 (hsubset hhash)⟩

/-- A text without wildcards matches itself. -/
theorem matched_self {text : List UInt8} (hfree : WildcardFree text) :
    iotxMcIsTopicMatchedLoop text text = true := by
  induction text with
  | nil => rfl
  | cons char rest ih =>
      rw [wildcardFree_cons] at hfree
      simp [iotxMcIsTopicMatchedLoop, hfree.1, ih hfree.2]

/-- On received topic names the delivery test is the matcher's level relation: the
equality test adds nothing. -/
theorem topicSelected_receivedTopic (topicFilter : CString) {topicName : List UInt8}
    (hname : WildcardFree topicName) :
    topicSelected topicFilter (receivedTopic topicName) =
      levelsCover (topicLevels topicFilter.bytes) (topicLevels topicName) := by
  rw [topicSelected, iotxMcIsTopicMatched, receivedTopic_bytes, matched_eq_levelsCover]
  by_cases hequals : mqttPacketEquals (receivedTopic topicName) topicFilter = true
  · have hsame : topicName = topicFilter.bytes := by
      simp only [mqttPacketEquals, receivedTopic, MqttLenString.bytes, Option.getD_some,
        List.take_length, Bool.and_eq_true, beq_iff_eq] at hequals
      exact hequals.2
    rw [hequals, ← hsame, ← matched_eq_levelsCover, matched_self hname]
    rfl
  · simp [hequals]

/-- A glued tail needs a filter of exactly the maximal length. -/
theorem strlen_of_gluedTail {topicFilter : CString} (haccepted : AcceptedFilter topicFilter)
    {names : List (List UInt8)}
    (hglued : gluedTailCovers (topicLevels topicFilter.bytes) names = true) :
    topicFilter.strlen = configMqttTopicMaxlen := by
  by_contra hlength
  have hchecked := (checkedLevels_of_accepted haccepted).2 hlength
  exact not_gluedTail_of_checked hchecked hglued

/-- For every accepted filter and every topic name without wildcards, the delivery
test agrees with the MQTT rules exactly when no wildcard of a matching filter
faces an empty level and no filter of maximal length covers the name by a wildcard
glued to its end. -/
theorem deliveryTest_eq_mqttMatches_iff (topicFilter : CString) (topicName : List UInt8)
    (haccepted : AcceptedFilter topicFilter) (hname : WildcardFree topicName) :
    topicSelected topicFilter (receivedTopic topicName) =
        mqttMatches topicFilter.bytes topicName ↔
      ¬ (mqttMatches topicFilter.bytes topicName ∧
          wildcardFacesEmpty (topicLevels topicFilter.bytes) (topicLevels topicName)) ∧
        ¬ (topicFilter.strlen = configMqttTopicMaxlen ∧
          gluedTailCovers (topicLevels topicFilter.bytes) (topicLevels topicName)) := by
  have hlength : topicFilter.strlen = configMqttTopicMaxlen ∧
      gluedTailCovers (topicLevels topicFilter.bytes) (topicLevels topicName) ↔
        gluedTailCovers (topicLevels topicFilter.bytes) (topicLevels topicName) :=
    and_iff_right_of_imp (strlen_of_gluedTail haccepted)
  have hglued := @not_match_of_gluedTail (topicLevels topicFilter.bytes) _
    (wildcardFree_levels hname)
  rw [topicSelected_receivedTopic topicFilter hname, hlength,
    levelsCover_eq (checkedLevels_of_accepted haccepted).1 (wildcardFree_levels hname),
    mqttMatches]
  revert hglued
  cases mqttLevelsMatch (topicLevels topicFilter.bytes) (topicLevels topicName) <;>
    cases wildcardFacesEmpty (topicLevels topicFilter.bytes) (topicLevels topicName) <;>
    cases gluedTailCovers (topicLevels topicFilter.bytes) (topicLevels topicName) <;>
    simp

/-- The filter `/a/+` and the name `/a/b`. -/
theorem deliveryTest_eq_mqttMatches_plus :
    topicSelected ⟨[47, 97, 47, 43], by decide⟩ (receivedTopic [47, 97, 47, 98]) =
      mqttMatches [47, 97, 47, 43] [47, 97, 47, 98] :=
  (deliveryTest_eq_mqttMatches_iff ⟨[47, 97, 47, 43], by decide⟩ [47, 97, 47, 98]
    (by decide) (by decide)).mpr (by decide)

/-- The accepted filter `/a/#` matches its parent `/a` under the MQTT rules, and the
delivery test does not select it. -/
theorem deliveryTest_misses_parent :
    AcceptedFilter ⟨[47, 97, 47, 35], by decide⟩ ∧ WildcardFree [47, 97] ∧
      mqttMatches [47, 97, 47, 35] [47, 97] = true ∧
      topicSelected ⟨[47, 97, 47, 35], by decide⟩ (receivedTopic [47, 97]) = false := by
  decide

end EnosDeviceSdk.Mqtt
