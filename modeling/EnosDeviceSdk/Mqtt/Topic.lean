/-
# Topic filters: their validation and the matcher

`iotx_mc_check_topic` and `iotx_mc_is_topic_matched` of `iotx_mqtt_client.c`.
The matcher walks filter and name character by character. What it decides is
restated level by level: a filter level covers a name level when it is the same
text without wildcards, or a literal prefix of it followed by a wildcard. The
restatement holds for every filter, also for those the validation rejects,
because the client applies the matcher to filters it has not validated.
-/

import EnosDeviceSdk.Infra.State
import EnosDeviceSdk.Infra.Strtok
import EnosDeviceSdk.Mqtt.Packet

namespace EnosDeviceSdk.Mqtt

open EnosDeviceSdk.Infra

/-- The level separator `/`. -/
def slash : UInt8 := 47

/-- The single-level wildcard `+`. -/
def plus : UInt8 := 43

/-- The multi-level wildcard `#`. -/
def hash : UInt8 := 35

theorem plus_ne_hash : plus ≠ hash := by decide

/-- `iotx_mc_topic_type_t` -/
inductive TopicType
  | topicNameType | topicFilterType
  deriving DecidableEq, Repr

/-- `CONFIG_MQTT_TOPIC_MAXLEN` -/
def configMqttTopicMaxlen : Nat := 128

/-! ## Validation -/

/-- The loop of `iotx_mc_check_rule`; `len` is the length of the whole item. -/
def iotxMcCheckRuleLoop (type : TopicType) (len : Nat) : List UInt8 → Int
  | [] => stateSuccess
  | char :: rest =>
      let wildcardError :=
        match type with
        | .topicFilterType => (char = plus || char = hash) && len ≠ 1
        | .topicNameType => char = plus || char = hash
      if wildcardError then stateMqttUnexpTopicFormat
      else if char < 32 || char ≥ 127 then stateMqttUnexpTopicFormat
      else iotxMcCheckRuleLoop type len rest

/-- `iotx_mc_check_rule` -/
def iotxMcCheckRule (iterm : Option (List UInt8)) (type : TopicType) : Int :=
  match iterm with
  | none => stateUserInputInvalid
  | some item => iotxMcCheckRuleLoop type item.length item

/-- The loop of `iotx_mc_check_topic` over the tokens behind the first one.
Every token shortens the string, so its length is fuel enough. -/
def iotxMcCheckTopicLoop (type : TopicType) : Nat → Bool → List UInt8 → Int
  | 0, _, _ => stateSuccess
  | fuel + 1, mask, pos =>
      match infraStrtok slash pos with
      | (none, _) => stateSuccess
      | (some iterm, pos) =>
          if mask then stateMqttUnexpTopicFormat
          else
            let res := iotxMcCheckRule (some iterm) type
            if res < stateSuccess then res
            else iotxMcCheckTopicLoop type fuel (mask || iterm.head? = some hash) pos

/-- `iotx_mc_check_topic`. Only the first `CONFIG_MQTT_TOPIC_MAXLEN - 1`
characters are copied into the buffer that is checked. -/
def iotxMcCheckTopic (topicName : CString) (type : TopicType) : Int :=
  if topicName.bytes.head? ≠ some slash then stateMqttUnexpTopicFormat
  else if topicName.strlen > configMqttTopicMaxlen then stateMqttTopicBufTooShort
  else
    let topicString := topicName.bytes.take (configMqttTopicMaxlen - 1)
    let (iterm, pos) := infraStrtok slash topicString
    let res := iotxMcCheckRule iterm type
    if res < stateSuccess then res
    else iotxMcCheckTopicLoop type topicString.length false pos

/-- The validation accepts the string as a topic filter. -/
def AcceptedFilter (topicFilter : CString) : Prop :=
  ¬ iotxMcCheckTopic topicFilter .topicFilterType < stateSuccess

instance (topicFilter : CString) : Decidable (AcceptedFilter topicFilter) :=
  inferInstanceAs (Decidable (¬ _))

/-! ## The matcher -/

/-- The loop of `iotx_mc_is_topic_matched` on the rest of the filter and of the
name. Leaving the loop early means that name is left, hence no match. -/
def iotxMcIsTopicMatchedLoop : List UInt8 → List UInt8 → Bool
  | [], curn => curn.isEmpty
  | _ :: _, [] => false
  | curf :: filter, curn :: name =>
      if curn = slash && curf ≠ slash then false
      else if curf ≠ plus && curf ≠ hash && curf ≠ curn then false
      else if curf = plus then
        -- skip until we meet the next separator, or end of string
        iotxMcIsTopicMatchedLoop filter (name.dropWhile (· ≠ slash))
      else if curf = hash then
        -- skip until end of string
        iotxMcIsTopicMatchedLoop filter []
      else iotxMcIsTopicMatchedLoop filter name

/-- `iotx_mc_is_topic_matched`, which reads the name as a length-delimited string. -/
def iotxMcIsTopicMatched (topicFilter : CString) (topicName : MqttString) : Bool :=
  iotxMcIsTopicMatchedLoop topicFilter.bytes topicName.lenstring.bytes

/-- The test with which both the delivery and the removal loop select a handler. -/
def topicSelected (topicFilter : CString) (topicName : MqttString) : Bool :=
  mqttPacketEquals topicName topicFilter || iotxMcIsTopicMatched topicFilter topicName

/-! ## Levels -/

/-- The levels of a topic. -/
def topicLevels (topic : List UInt8) : List (List UInt8) := topic.splitOn slash

/-- No wildcard character occurs. -/
def WildcardFree (text : List UInt8) : Prop := plus ∉ text ∧ hash ∉ text

instance (text : List UInt8) : Decidable (WildcardFree text) :=
  inferInstanceAs (Decidable (_ ∧ _))

/-- The filter level is a literal followed by the wildcard, and the name level
continues the literal. -/
def gluedCovers (wildcard : UInt8) : List UInt8 → List UInt8 → Bool
  | [], _ => false
  | curf :: filter, name =>
      if curf = plus || curf = hash then
        curf = wildcard && filter.isEmpty && !name.isEmpty
      else
        match name with
        | [] => false
        | curn :: name => curf = curn && gluedCovers wildcard filter name

/-- One filter level covers exactly one name level. -/
def levelCovers (filter name : List UInt8) : Bool :=
  (WildcardFree filter && filter = name) || gluedCovers plus filter name

/-- What the matcher decides, level by level. -/
def levelsCover : List (List UInt8) → List (List UInt8) → Bool
  | [], names => names.isEmpty
  | _ :: _, [] => false
  | filter :: filters, name :: names =>
      levelCovers filter name && levelsCover filters names ||
        gluedCovers hash filter name && filters.isEmpty

theorem wildcardFree_nil : WildcardFree [] := by decide

theorem wildcardFree_cons (char : UInt8) (rest : List UInt8) :
    WildcardFree (char :: rest) ↔ (char ≠ plus ∧ char ≠ hash) ∧ WildcardFree rest := by
  simp only [WildcardFree, List.mem_cons, not_or]
  constructor
  · rintro ⟨⟨hplus, hrestplus⟩, hhash, hresthash⟩
    exact ⟨⟨Ne.symm hplus, Ne.symm hhash⟩, hrestplus, hresthash⟩
  · rintro ⟨⟨hplus, hhash⟩, hrestplus, hresthash⟩
    exact ⟨⟨Ne.symm hplus, hrestplus⟩, Ne.symm hhash, hresthash⟩

/-- A literal character at the head of a filter level stands for itself. -/
theorem gluedCovers_cons_literal {curf : UInt8} (hplus : curf ≠ plus) (hhash : curf ≠ hash)
    (wildcard : UInt8) (filter : List UInt8) (curn : UInt8) (name : List UInt8) :
    gluedCovers wildcard (curf :: filter) (curn :: name) =
      (curf = curn && gluedCovers wildcard filter name) := by
  simp [gluedCovers, hplus, hhash]

/-- A wildcard at the head of a filter level ends it and needs a character. -/
theorem gluedCovers_cons_wildcard {curf : UInt8} (hcurf : curf = plus ∨ curf = hash)
    (wildcard : UInt8) (filter name : List UInt8) :
    gluedCovers wildcard (curf :: filter) name =
      (curf = wildcard && filter.isEmpty && !name.isEmpty) := by
  rcases hcurf with rfl | rfl <;> simp [gluedCovers]

/-- No filter level but the empty one covers the empty name level. -/
theorem gluedCovers_nil (wildcard : UInt8) (filter : List UInt8) :
    gluedCovers wildcard filter [] = false := by
  cases filter with
  | nil => rfl
  | cons curf filter => simp [gluedCovers]

theorem levelCovers_cons_literal {curf : UInt8} (hplus : curf ≠ plus) (hhash : curf ≠ hash)
    (filter : List UInt8) (curn : UInt8) (name : List UInt8) :
    levelCovers (curf :: filter) (curn :: name) =
      (curf = curn && levelCovers filter name) := by
  simp only [levelCovers, gluedCovers_cons_literal hplus hhash, wildcardFree_cons, hplus,
    hhash, ne_eq, not_false_eq_true, and_self, true_and, List.cons.injEq]
  by_cases hsame : curf = curn <;> simp [hsame]

theorem levelCovers_cons_wildcard {curf : UInt8} (hcurf : curf = plus ∨ curf = hash)
    (filter name : List UInt8) :
    levelCovers (curf :: filter) name = (curf = plus && filter.isEmpty && !name.isEmpty) := by
  have hnotfree : ¬ WildcardFree (curf :: filter) := by
    rw [wildcardFree_cons]
    rintro ⟨⟨hplus, hhash⟩, _⟩
    exact hcurf.elim hplus hhash
  simp only [levelCovers, hnotfree, gluedCovers_cons_wildcard hcurf, decide_false,
    Bool.false_and, Bool.false_or]

/-- A rest that the matcher meets behind a level: nothing, or a further level. -/
def AtBoundary (rest : List UInt8) : Prop := rest = [] ∨ ∃ later, rest = slash :: later

/-- At the end of a name level the matcher wants the filter level to end too. -/
theorem matched_cons_boundary {curf : UInt8} (hcurf : curf ≠ slash)
    (filter : List UInt8) {rest : List UInt8} (hrest : AtBoundary rest) :
    iotxMcIsTopicMatchedLoop (curf :: filter) rest = false := by
  rcases hrest with rfl | ⟨later, rfl⟩
  · rfl
  · simp [iotxMcIsTopicMatchedLoop, hcurf]

/-- Where a filter level has ended, so must the name level have. -/
theorem matched_boundary_cons {curn : UInt8} (hcurn : curn ≠ slash)
    (name : List UInt8) {rest : List UInt8} (hrest : AtBoundary rest) :
    iotxMcIsTopicMatchedLoop rest (curn :: name) = false := by
  rcases hrest with rfl | ⟨later, rfl⟩
  · rfl
  · have hplus : slash ≠ plus := by decide
    have hhash : slash ≠ hash := by decide
    simp [iotxMcIsTopicMatchedLoop, hcurn, hplus, hhash, Ne.symm hcurn]

theorem dropWhile_level {level rest : List UInt8} (hlevel : slash ∉ level)
    (hrest : AtBoundary rest) :
    (level ++ rest).dropWhile (· ≠ slash) = rest := by
  rw [List.dropWhile_append_of_pos]
  · rcases hrest with rfl | ⟨later, rfl⟩ <;> simp
  · intro char hchar
    simpa using fun heq : char = slash => hlevel (heq ▸ hchar)

/-- One level of the matcher's walk. -/
theorem matched_level {filter name restFilter restName : List UInt8}
    (hfilter : slash ∉ filter) (hname : slash ∉ name)
    (hrestFilter : AtBoundary restFilter) (hrestName : AtBoundary restName) :
    iotxMcIsTopicMatchedLoop (filter ++ restFilter) (name ++ restName) =
      (levelCovers filter name && iotxMcIsTopicMatchedLoop restFilter restName ||
        gluedCovers hash filter name && restFilter.isEmpty) := by
  induction filter generalizing name with
  | nil =>
      cases name with
      | nil => simp [levelCovers, gluedCovers, wildcardFree_nil]
      | cons curn name =>
          have hcurn : curn ≠ slash := fun heq => hname (by simp [heq])
          simp [levelCovers, gluedCovers, matched_boundary_cons hcurn _ hrestFilter]
  | cons curf filter ih =>
      simp only [List.mem_cons, not_or] at hfilter
      have hcurf : curf ≠ slash := Ne.symm hfilter.1
      cases name with
      | nil =>
          rw [List.nil_append, List.cons_append, matched_cons_boundary hcurf _ hrestName]
          simp [levelCovers, gluedCovers_nil]
      | cons curn name =>
          simp only [List.mem_cons, not_or] at hname
          have hcurn : curn ≠ slash := Ne.symm hname.1
          simp only [List.cons_append, iotxMcIsTopicMatchedLoop, hcurn, decide_false,
            Bool.false_and, Bool.false_eq_true, if_false]
          by_cases hplus : curf = plus
          · subst hplus
            -- the rest of the level is skipped, so the filter level has to end here
            rw [if_pos rfl, dropWhile_level hname.2 hrestName,
              levelCovers_cons_wildcard (Or.inl rfl), gluedCovers_cons_wildcard (Or.inl rfl)]
            cases filter with
            | nil => simp [plus_ne_hash]
            | cons nextf filter =>
                have hnextf : nextf ≠ slash := fun heq => hfilter.2 (by simp [heq])
                simp [plus_ne_hash, matched_cons_boundary hnextf _ hrestName]
          · by_cases hhash : curf = hash
            · subst hhash
              -- the rest of the name is skipped, so the filter has to end here
              rw [levelCovers_cons_wildcard (Or.inr rfl), gluedCovers_cons_wildcard (Or.inr rfl)]
              cases filter <;> cases restFilter <;> simp [hplus, iotxMcIsTopicMatchedLoop]
            · rw [levelCovers_cons_literal hplus hhash, gluedCovers_cons_literal hplus hhash]
              by_cases hsame : curf = curn
              · subst hsame
                simp [hplus, hhash, ih hfilter.2 hname.2]
              · simp [hplus, hhash, hsame]

/-- A topic begins with its first level, and the matcher goes on where it ends. -/
theorem topicLevels_cases (topic : List UInt8) :
    ∃ level rest, topic = level ++ rest ∧ slash ∉ level ∧
      (rest = [] ∧ topicLevels topic = [level] ∨
        ∃ later, rest = slash :: later ∧ topicLevels topic = level :: topicLevels later) := by
  rcases splitOn_cases slash topic with ⟨hfree, hsplit⟩ | ⟨first, later, hfree, rfl, hsplit⟩
  · exact ⟨topic, [], (List.append_nil topic).symm, hfree, Or.inl ⟨rfl, hsplit⟩⟩
  · exact ⟨first, slash :: later, rfl, hfree, Or.inr ⟨later, rfl, hsplit⟩⟩

theorem topicLevels_ne_nil (topic : List UInt8) : topicLevels topic ≠ [] :=
  List.splitOn_ne_nil slash topic

/-- Beyond the levels of the name, a filter must have none either. -/
theorem levelsCover_nil_right (filters : List (List UInt8)) :
    levelsCover filters [] = filters.isEmpty := by
  cases filters <;> rfl

/-- The matcher decides exactly the level-by-level relation, for every filter and
every name. -/
theorem matched_eq_levelsCover (filter name : List UInt8) :
    iotxMcIsTopicMatchedLoop filter name =
      levelsCover (topicLevels filter) (topicLevels name) := by
  induction hlength : filter.length using Nat.strongRecOn generalizing filter name with
  | ind size ih =>
      obtain ⟨level, rest, rfl, hlevel, hrest⟩ := topicLevels_cases filter
      obtain ⟨text, more, rfl, htext, hmore⟩ := topicLevels_cases name
      have hboundary : AtBoundary rest := by
        rcases hrest with ⟨hnil, _⟩ | ⟨later, hlater, _⟩
        · exact Or.inl hnil
        · exact Or.inr ⟨later, hlater⟩
      have hmoreBoundary : AtBoundary more := by
        rcases hmore with ⟨hnil, _⟩ | ⟨later, hlater, _⟩
        · exact Or.inl hnil
        · exact Or.inr ⟨later, hlater⟩
      rw [matched_level hlevel htext hboundary hmoreBoundary]
      rcases hrest with ⟨rfl, hfilters⟩ | ⟨filters, rfl, hfilters⟩ <;>
        rcases hmore with ⟨rfl, hnames⟩ | ⟨names, rfl, hnames⟩ <;>
        rw [hfilters, hnames]
      · simp [levelsCover, iotxMcIsTopicMatchedLoop]
      · simp [levelsCover, iotxMcIsTopicMatchedLoop, topicLevels_ne_nil names]
      · have hnonempty := topicLevels_ne_nil filters
        simp [levelsCover, iotxMcIsTopicMatchedLoop, levelsCover_nil_right,
          hnonempty]
      · have hshorter : filters.length < size := by
          rw [← hlength]
          simp only [List.length_append, List.length_cons]
          omega
        have hnonempty := topicLevels_ne_nil filters
        have hslash : slash ≠ plus ∧ slash ≠ hash := by decide
        simp [levelsCover, iotxMcIsTopicMatchedLoop, hslash, hnonempty,
          ih filters.length hshorter filters names rfl]

/-! ## What the validation guarantees -/

/-- A level that is a single character, possibly a wildcard, or has no wildcard. -/
def CheckedLevel (level : List UInt8) : Prop := level.length ≤ 1 ∨ WildcardFree level

theorem wildcardFree_of_checkRuleLoop {len : Nat} (hlen : len ≠ 1) {item : List UInt8}
    (haccepted : ¬ iotxMcCheckRuleLoop .topicFilterType len item < stateSuccess) :
    WildcardFree item := by
  induction item with
  | nil => exact wildcardFree_nil
  | cons char rest ih =>
      have herror : stateMqttUnexpTopicFormat < stateSuccess := by decide
      rw [iotxMcCheckRuleLoop] at haccepted
      split at haccepted
      · exact absurd herror haccepted
      · next hwildcard =>
          split at haccepted
          · exact absurd herror haccepted
          · rw [wildcardFree_cons]
            refine ⟨?_, ih haccepted⟩
            simpa [hlen] using hwildcard

/-- An item that passes the rule check is a checked level. -/
theorem checkedLevel_of_checkRule {item : List UInt8}
    (haccepted : ¬ iotxMcCheckRule (some item) .topicFilterType < stateSuccess) :
    CheckedLevel item := by
  by_cases hone : item.length = 1
  · exact Or.inl (by omega)
  · exact Or.inr (wildcardFree_of_checkRuleLoop hone haccepted)

/-- The loop over the tokens leaves no level of the string unchecked. -/
theorem checkedLevels_of_checkTopicLoop {fuel : Nat} {mask : Bool} {pos : List UInt8}
    (hfuel : pos.length < fuel)
    (haccepted : ¬ iotxMcCheckTopicLoop .topicFilterType fuel mask pos < stateSuccess) :
    ∀ level ∈ topicLevels pos, CheckedLevel level := by
  induction fuel generalizing mask pos with
  | zero => omega
  | succ fuel ih =>
      intro level hlevel
      have hcovered := infraStrtok_levels slash pos level hlevel
      rw [iotxMcCheckTopicLoop] at haccepted
      cases htoken : infraStrtok slash pos with
      | mk token rest =>
          rw [htoken] at haccepted hcovered
          cases token with
          | none =>
              rcases hcovered with hshort | habsurd | ⟨habsurd, _⟩
              · exact Or.inl hshort
              · exact absurd habsurd (by simp)
              · exact absurd habsurd (by simp)
          | some item =>
              have hrest : rest.length < pos.length := by
                have := length_infraStrtok_lt (show (infraStrtok slash pos).1 = some item by
                  rw [htoken])
                rwa [htoken] at this
              simp only at haccepted
              split at haccepted
              · exact absurd (by decide) haccepted
              · split at haccepted
                · next hrejected => exact absurd hrejected haccepted
                · next hrule =>
                    rcases hcovered with hshort | hitem | ⟨_, hlater⟩
                    · exact Or.inl hshort
                    · obtain rfl : item = level := by simpa using hitem
                      exact checkedLevel_of_checkRule hrule
                    · exact ih (by omega) haccepted level hlater

/-- All levels of the part of an accepted filter that is copied are checked. -/
theorem checkedLevels_take {topicFilter : CString} (haccepted : AcceptedFilter topicFilter) :
    ∀ level ∈ topicLevels (topicFilter.bytes.take (configMqttTopicMaxlen - 1)),
      CheckedLevel level := by
  rw [AcceptedFilter, iotxMcCheckTopic] at haccepted
  split at haccepted
  · exact absurd (by decide) haccepted
  · split at haccepted
    · exact absurd (by decide) haccepted
    · simp only at haccepted
      intro level hlevel
      have hcovered := infraStrtok_levels slash _ level hlevel
      split at haccepted
      · next hrejected => exact absurd hrejected haccepted
      · next hrule =>
          cases htoken : infraStrtok slash (topicFilter.bytes.take (configMqttTopicMaxlen - 1)) with
          | mk token rest =>
              rw [htoken] at haccepted hcovered hrule
              cases token with
              | none =>
                  have hnull : iotxMcCheckRule none .topicFilterType < stateSuccess := by decide
                  exact absurd hnull hrule
              | some item =>
                  have hrest := length_infraStrtok_lt (show (infraStrtok slash
                    (topicFilter.bytes.take (configMqttTopicMaxlen - 1))).1 = some item by
                      rw [htoken])
                  rw [htoken] at hrest
                  rcases hcovered with hshort | hitem | ⟨_, hlater⟩
                  · exact Or.inl hshort
                  · obtain rfl : item = level := by simpa using hitem
                    exact checkedLevel_of_checkRule hrule
                  · exact checkedLevels_of_checkTopicLoop hrest haccepted level hlater

theorem strlen_le_of_accepted {topicFilter : CString}
    (haccepted : AcceptedFilter topicFilter) :
    topicFilter.strlen ≤ configMqttTopicMaxlen := by
  rw [AcceptedFilter, iotxMcCheckTopic] at haccepted
  split at haccepted
  · exact absurd (by decide) haccepted
  · split at haccepted
    · exact absurd (by decide) haccepted
    · next hlength => exact Nat.le_of_not_lt hlength

/-- One more character changes no level but the last. -/
theorem mem_topicLevels_of_mem_dropLast {topic level : List UInt8} {char : UInt8}
    (hlevel : level ∈ (topicLevels (topic ++ [char])).dropLast) :
    level ∈ topicLevels topic := by
  induction hlength : topic.length using Nat.strongRecOn generalizing topic with
  | ind size ih =>
      obtain ⟨first, rest, rfl, hfirst, hrest⟩ := topicLevels_cases topic
      rcases hrest with ⟨rfl, hlevels⟩ | ⟨later, rfl, hlevels⟩
      · rw [hlevels, List.mem_singleton]
        by_cases hchar : char = slash
        · have hsplit : topicLevels (first ++ [] ++ [char]) = [first, []] := by
            rw [List.append_nil, hchar, topicLevels,
              List.splitOn_append_cons_self_of_not_mem hfirst, List.splitOn_nil]
          rw [hsplit] at hlevel
          simpa using hlevel
        · have hsplit : topicLevels (first ++ [] ++ [char]) = [first ++ [char]] := by
            rw [List.append_nil, topicLevels]
            exact List.splitOn_eq_singleton (by simp [hfirst, Ne.symm hchar])
          rw [hsplit] at hlevel
          simp at hlevel
      · have hsplit : topicLevels (first ++ slash :: later ++ [char]) =
            first :: topicLevels (later ++ [char]) := by
          rw [List.append_assoc, List.cons_append]
          exact List.splitOn_append_cons_self_of_not_mem hfirst _
        rw [hsplit, List.dropLast_cons_of_ne_nil (topicLevels_ne_nil _), List.mem_cons] at hlevel
        rw [hlevels, List.mem_cons]
        refine hlevel.imp id fun hlater => ih later.length ?_ hlater rfl
        rw [← hlength]
        simp only [List.length_append, List.length_cons]
        omega

/-- All levels of an accepted filter are checked, except the last level of a
filter of maximal length, whose last character is not copied. -/
theorem checkedLevels_of_accepted {topicFilter : CString}
    (haccepted : AcceptedFilter topicFilter) :
    (∀ level ∈ (topicLevels topicFilter.bytes).dropLast, CheckedLevel level) ∧
      (topicFilter.strlen ≠ configMqttTopicMaxlen →
        ∀ level ∈ topicLevels topicFilter.bytes, CheckedLevel level) := by
  have htake := checkedLevels_take haccepted
  have hlength := strlen_le_of_accepted haccepted
  by_cases hmax : topicFilter.strlen = configMqttTopicMaxlen
  · refine ⟨fun level hlevel => htake level ?_, fun hne => absurd hmax hne⟩
    have hnonempty : topicFilter.bytes ≠ [] := by
      intro hnil
      rw [CString.strlen, hnil] at hmax
      exact absurd hmax (by decide)
    have hsplit := List.dropLast_append_getLast hnonempty
    have hcopied : topicFilter.bytes.take (configMqttTopicMaxlen - 1) =
        topicFilter.bytes.dropLast := by
      rw [List.dropLast_eq_take, ← hmax]
      rfl
    rw [hcopied]
    rw [← hsplit] at hlevel
    exact mem_topicLevels_of_mem_dropLast hlevel
  · have hcopied : topicFilter.bytes.take (configMqttTopicMaxlen - 1) = topicFilter.bytes :=
      List.take_of_length_le (Nat.le_sub_one_of_lt (Nat.lt_of_le_of_ne hlength hmax))
    rw [hcopied] at htake
    exact ⟨fun level hlevel => htake level ((List.dropLast_subset _) hlevel), fun _ => htake⟩

end EnosDeviceSdk.Mqtt
