/-
# What the topic check sees of a topic

`iotx_mc_check_topic` copies the first 127 characters of a topic and walks the
tokens that `infra_strtok` finds in the copy. The walk is restated here on the levels
of the copy: empty levels are skipped, and a last level of one character directly
behind a token is never returned. What the tokens are is said by `seenLevels`, and
the check is a condition on these.

The rules for topics are stated on the topic itself. The check departs from them on
what it does not see: the level that stays hidden, the character that is not copied,
and a `#` with nothing but such levels behind it. It also refuses a copy without any
token, which the rules allow.
-/

import EnosDeviceSdk.Mqtt.Topic

namespace EnosDeviceSdk.Mqtt

open EnosDeviceSdk.Infra

/-! ## The rules -/

/-- A character that may stand in a topic. -/
def Printable (char : UInt8) : Prop := 32 ≤ char ∧ char ≤ 126

instance (char : UInt8) : Decidable (Printable char) := inferInstanceAs (Decidable (_ ∧ _))

/-- Where wildcards may stand: in a filter alone in their level and `#` in the last
level only, in a name nowhere. -/
def WildcardsPlaced (topic : List UInt8) : TopicType → Prop
  | .topicFilterType =>
      (∀ level ∈ topicLevels topic, plus ∈ level ∨ hash ∈ level → level.length = 1) ∧
        ∀ level ∈ (topicLevels topic).dropLast, hash ∉ level
  | .topicNameType => plus ∉ topic ∧ hash ∉ topic

/-- The rules for a topic. -/
structure ValidTopic (type : TopicType) (topic : List UInt8) : Prop where
  leading : topic.head? = some slash
  maxlen : topic.length ≤ configMqttTopicMaxlen
  printable : ∀ char ∈ topic, Printable char
  wildcards : WildcardsPlaced topic type

/-! ## What the tokenizer returns -/

/-- One level of at most one character is all that is left. -/
def LeftShort (levels : List (List UInt8)) : Prop :=
  levels.length = 1 ∧ levels.flatten.length ≤ 1

instance (levels : List (List UInt8)) : Decidable (LeftShort levels) :=
  inferInstanceAs (Decidable (_ ∧ _))

/-- The levels that the tokenizer returns. -/
def seenLevels : List (List UInt8) → List (List UInt8)
  | [] => []
  | level :: rest =>
      if level = [] then seenLevels rest
      else level :: if LeftShort rest then [] else seenLevels rest

/-- The characters of the level that the tokenizer leaves behind. -/
def hiddenChars : List (List UInt8) → List UInt8
  | [] => []
  | level :: rest =>
      if level = [] then hiddenChars rest
      else if LeftShort rest then rest.flatten else hiddenChars rest

/-- The levels that a call behind the first one still returns. -/
def laterLevels (levels : List (List UInt8)) : List (List UInt8) :=
  if LeftShort levels then [] else seenLevels levels

/-- The characters of a topic that are copied for the check. -/
def copiedChars (topic : List UInt8) : List UInt8 := topic.take (configMqttTopicMaxlen - 1)

/-- The levels of a topic that the check looks at. -/
def checkedTokens (topic : List UInt8) : List (List UInt8) :=
  seenLevels (topicLevels (copiedChars topic))

/-- The characters of a topic that the check does not look at, separators apart. -/
def unseenChars (topic : List UInt8) : List UInt8 :=
  hiddenChars (topicLevels (copiedChars topic)) ++ topic.drop (configMqttTopicMaxlen - 1)

/-- The rule that each token is checked against. -/
def TokenOk (type : TopicType) (token : List UInt8) : Prop :=
  ∀ char ∈ token, Printable char ∧
    (char = plus ∨ char = hash → type = .topicFilterType ∧ token.length = 1)

/-- All tokens obey the rule, and no `#` behind the first token has a token behind it. -/
def SeenOk (type : TopicType) (tokens : List (List UInt8)) : Prop :=
  (∀ token ∈ tokens, TokenOk type token) ∧ ∀ token ∈ tokens.tail.dropLast, hash ∉ token

/-- What is left to check where the tokens are in order: the characters that are not
seen, and in a filter the wildcards of the last level and the place of `#`. -/
def UnseenOk (topic : List UInt8) (type : TopicType) : Prop :=
  (∀ char ∈ unseenChars topic, Printable char) ∧
    match type with
    | .topicFilterType =>
        (∀ level ∈ (topicLevels topic).getLast?, plus ∈ level ∨ hash ∈ level →
            level.length = 1) ∧
          ∀ level ∈ (topicLevels topic).dropLast, hash ∉ level
    | .topicNameType => plus ∉ unseenChars topic ∧ hash ∉ unseenChars topic

/-- The check judges the topic rightly: it is refused by its head or its length; or
it has no token and does break a rule; or it has tokens, and where these are in order
the rest is too. -/
def JudgedRightly (type : TopicType) (topic : List UInt8) : Prop :=
  topic.head? = some slash → topic.length ≤ configMqttTopicMaxlen →
    if checkedTokens topic = [] then ¬ UnseenOk topic type
    else SeenOk type (checkedTokens topic) → UnseenOk topic type

/-! ## The rule check -/

theorem checkRuleLoop_success_iff (type : TopicType) (len : Nat) (item : List UInt8) :
    iotxMcCheckRuleLoop type len item = stateSuccess ↔
      ∀ char ∈ item, Printable char ∧
        (char = plus ∨ char = hash → type = .topicFilterType ∧ len = 1) := by
  have herror : stateMqttUnexpTopicFormat ≠ stateSuccess := by decide
  induction item with
  | nil => cases type <;> simp [iotxMcCheckRuleLoop]
  | cons char rest ih =>
      have hchar : (char < 32 ∨ char ≥ 127) ↔ ¬ Printable char := by
        simp only [Printable, UInt8.lt_iff_toNat_lt, UInt8.le_iff_toNat_le, ge_iff_le,
          UInt8.toNat_ofNat]
        omega
      rw [List.forall_mem_cons]
      apply Iff.trans ?_ (and_congr Iff.rfl ih)
      cases type with
      | topicNameType =>
          by_cases hwildcard : char = plus ∨ char = hash
          · simp [iotxMcCheckRuleLoop, hwildcard, herror]
          · by_cases hprintable : Printable char <;>
              simp [iotxMcCheckRuleLoop, hchar, hwildcard, hprintable, herror]
      | topicFilterType =>
          by_cases hwildcard : char = plus ∨ char = hash
          · by_cases hone : len = 1 <;> by_cases hprintable : Printable char <;>
              simp [iotxMcCheckRuleLoop, hchar, hwildcard, hone, hprintable, herror]
          · by_cases hprintable : Printable char <;>
              simp [iotxMcCheckRuleLoop, hchar, hwildcard, hprintable, herror]

/-- The rule check returns its success or a negative code. -/
theorem checkRuleLoop_results (type : TopicType) (len : Nat) (item : List UInt8) :
    iotxMcCheckRuleLoop type len item = stateSuccess ∨
      iotxMcCheckRuleLoop type len item < stateSuccess := by
  have herror : stateMqttUnexpTopicFormat < stateSuccess := by decide
  induction item with
  | nil => cases type <;> exact Or.inl rfl
  | cons char rest ih =>
      cases type <;> rw [iotxMcCheckRuleLoop] <;> split_ifs <;> simp [herror, ih]

theorem checkRule_lt_iff (type : TopicType) (token : List UInt8) :
    iotxMcCheckRule (some token) type < stateSuccess ↔ ¬ TokenOk type token := by
  rw [TokenOk, ← checkRuleLoop_success_iff type token.length token]
  rcases checkRuleLoop_results type token.length token with hsuccess | herror
  · simp [iotxMcCheckRule, hsuccess]
  · simp only [iotxMcCheckRule, herror, true_iff]
    exact Int.ne_of_lt herror

/-! ## The tokenizer on levels -/

theorem laterLevels_nil : laterLevels (topicLevels []) = [] := by
  rw [topicLevels, List.splitOn_nil]
  rfl

/-- The tokenizer's loop returns the first level that is seen and leaves the rest. -/
theorem infraStrtokLoop_seen {onlyDelim : Bool} {token pos : List UInt8}
    (hfree : slash ∉ token) (honly : onlyDelim = true ↔ token = [])
    (hsome : token ≠ [] ∨ pos ≠ []) :
    ((infraStrtokLoop slash onlyDelim token pos).1 = none ∧
        seenLevels (topicLevels (token ++ pos)) = []) ∨
      ∃ level, (infraStrtokLoop slash onlyDelim token pos).1 = some level ∧
        seenLevels (topicLevels (token ++ pos)) =
          level :: laterLevels (topicLevels (infraStrtokLoop slash onlyDelim token pos).2) := by
  induction pos generalizing onlyDelim token with
  | nil =>
      have htoken : token ≠ [] := hsome.resolve_right (by simp)
      refine Or.inr ⟨token, rfl, ?_⟩
      rw [List.append_nil, infraStrtokLoop, laterLevels_nil, topicLevels,
        List.splitOn_eq_singleton hfree]
      simp [seenLevels, htoken]
  | cons byte rest ih =>
      by_cases hbyte : byte = slash
      · subst hbyte
        have hlevels : topicLevels (token ++ slash :: rest) = token :: topicLevels rest :=
          List.splitOn_append_cons_self_of_not_mem hfree rest
        rw [hlevels]
        by_cases hrest : rest = []
        · subst hrest
          have hlast : topicLevels [] = [[]] := List.splitOn_nil slash
          by_cases htoken : token = []
          · rw [htoken, hlast]
            simp [infraStrtokLoop, honly.mpr htoken, seenLevels]
          · have honlyDelim : onlyDelim = false := by simpa [htoken] using honly
            refine Or.inr ⟨token, by simp [infraStrtokLoop, honlyDelim], ?_⟩
            simp [infraStrtokLoop, honlyDelim, hlast, laterLevels, seenLevels, htoken]
        · by_cases htoken : token = []
          · subst htoken
            have hskip := @ih onlyDelim [] (by simp) honly (Or.inr hrest)
            simpa [infraStrtokLoop, hrest, seenLevels] using hskip
          · refine Or.inr ⟨token, by simp [infraStrtokLoop, hrest, htoken], ?_⟩
            simp [infraStrtokLoop, hrest, htoken, seenLevels, laterLevels]
      · have hmore := @ih false (token ++ [byte]) (by simp [hfree, Ne.symm hbyte]) (by simp)
          (Or.inl (by simp))
        simpa [infraStrtokLoop, hbyte] using hmore

/-- What is short has no further token, and what is longer is not short. -/
theorem laterLevels_eq (pos : List UInt8) :
    laterLevels (topicLevels pos) =
      if pos.length ≤ 1 then [] else seenLevels (topicLevels pos) := by
  obtain ⟨level, rest, rfl, hlevel, hrest⟩ := topicLevels_cases pos
  rcases hrest with ⟨rfl, hlevels⟩ | ⟨later, rfl, hlevels⟩
  · rw [List.append_nil] at hlevels ⊢
    simp [hlevels, laterLevels, LeftShort]
  · have hnonempty := topicLevels_ne_nil later
    have hlong : ¬ LeftShort (level :: topicLevels later) := by
      simp [LeftShort, hnonempty]
    rw [hlevels, laterLevels, if_neg hlong]
    split
    · next hshort =>
        simp only [List.length_append, List.length_cons] at hshort
        have hnil : level = [] := List.length_eq_zero_iff.mp (by omega)
        have hend : later = [] := List.length_eq_zero_iff.mp (by omega)
        rw [hnil, hend, topicLevels, List.splitOn_nil]
        rfl
    · rfl

/-- On a string that starts with a separator the first call sees what any call sees. -/
theorem laterLevels_leading {pos : List UInt8} (hhead : pos.head? = some slash) :
    laterLevels (topicLevels pos) = seenLevels (topicLevels pos) := by
  obtain ⟨rest, rfl⟩ := List.head?_eq_some_iff.mp hhead
  have hlevels : topicLevels ([] ++ slash :: rest) = [] :: topicLevels rest :=
    List.splitOn_append_cons_self_of_not_mem (by simp) rest
  rw [List.nil_append] at hlevels
  have hlong : ¬ LeftShort ([] :: topicLevels rest) := by
    simp [LeftShort, topicLevels_ne_nil rest]
  rw [hlevels, laterLevels, if_neg hlong]

/-- A call of the tokenizer returns the first of the levels that are left to return. -/
theorem infraStrtok_seen (pos : List UInt8) :
    ((infraStrtok slash pos).1 = none ∧ laterLevels (topicLevels pos) = []) ∨
      ∃ level, (infraStrtok slash pos).1 = some level ∧
        laterLevels (topicLevels pos) =
          level :: laterLevels (topicLevels (infraStrtok slash pos).2) := by
  rw [laterLevels_eq pos, infraStrtok]
  by_cases hshort : pos.length ≤ 1
  · exact Or.inl ⟨by simp [hshort], if_pos hshort⟩
  · rw [if_neg hshort, if_neg hshort]
    have hpos : pos ≠ [] := by
      rintro rfl
      exact hshort (Nat.zero_le 1)
    exact infraStrtokLoop_seen (by simp) (by simp) (Or.inr hpos)

/-! ## The check on tokens -/

/-- The first character tells whether a token that obeys the rule has a `#`. -/
theorem hash_mem_iff {type : TopicType} {token : List UInt8} (hok : TokenOk type token) :
    hash ∈ token ↔ token.head? = some hash := by
  constructor
  · intro hmem
    have hone := ((hok hash hmem).2 (Or.inr rfl)).2
    obtain ⟨char, rfl⟩ := List.length_eq_one_iff.mp hone
    simpa [eq_comm] using hmem
  · exact List.mem_of_mem_head?

/-- The loop over the later tokens accepts them when each obeys the rule, and a `#`
has no token behind it. -/
theorem checkTopicLoop_success_iff (type : TopicType) {fuel : Nat} (mask : Bool)
    {pos : List UInt8} (hfuel : pos.length < fuel) :
    iotxMcCheckTopicLoop type fuel mask pos = stateSuccess ↔
      (mask = true → laterLevels (topicLevels pos) = []) ∧
        (∀ token ∈ laterLevels (topicLevels pos), TokenOk type token) ∧
          ∀ token ∈ (laterLevels (topicLevels pos)).dropLast, hash ∉ token := by
  induction fuel generalizing mask pos with
  | zero => omega
  | succ fuel ih =>
      rw [iotxMcCheckTopicLoop]
      have hshorter := @length_infraStrtok_lt slash pos
      rcases infraStrtok_seen pos with ⟨hnone, htokens⟩ | ⟨item, hitem, htokens⟩
      · cases hcall : infraStrtok slash pos with
        | mk token rest =>
            rw [hcall] at hnone
            obtain rfl : token = none := hnone
            simp [htokens]
      · cases hcall : infraStrtok slash pos with
        | mk token rest =>
            rw [hcall] at hitem htokens hshorter
            obtain rfl : token = some item := hitem
            have hloop := @ih (mask || item.head? = some hash) rest
              (by have := hshorter rfl; simp only at this; omega)
            rw [htokens]
            generalize laterLevels (topicLevels rest) = more at hloop
            cases mask with
            | true => simp [show stateMqttUnexpTopicFormat ≠ stateSuccess by decide]
            | false =>
                by_cases hok : TokenOk type item
                · have hrule := mt (checkRule_lt_iff type item).mp (not_not.mpr hok)
                  simp only [Bool.false_eq_true, if_false, hrule, hloop]
                  rw [List.forall_mem_cons]
                  simp only [hok, true_and, false_imp_iff, Bool.false_or, decide_eq_true_eq,
                    ← hash_mem_iff hok]
                  cases more with
                  | nil => simp
                  | cons next more =>
                      simp only [List.dropLast_cons_cons, List.forall_mem_cons]
                      simp
                      tauto
                · have hrule := (checkRule_lt_iff type item).mpr hok
                  simp only [Bool.false_eq_true, if_false, hrule, if_true,
                    Int.ne_of_lt hrule, false_iff]
                  exact fun hall => hok (hall.2.1 item List.mem_cons_self)

/-- The check accepts a topic by its head, its length and its tokens. -/
theorem checkTopic_success_iff (type : TopicType) (topicName : CString) :
    iotxMcCheckTopic topicName type = stateSuccess ↔
      topicName.bytes.head? = some slash ∧ topicName.strlen ≤ configMqttTopicMaxlen ∧
        checkedTokens topicName.bytes ≠ [] ∧
          SeenOk type (checkedTokens topicName.bytes) := by
  rw [iotxMcCheckTopic]
  by_cases hhead : topicName.bytes.head? = some slash
  · by_cases hlength : topicName.strlen > configMqttTopicMaxlen
    · have herror : stateMqttTopicBufTooShort ≠ stateSuccess := by decide
      simp [hhead, hlength, herror, Nat.not_le.mpr hlength]
    · rw [if_neg (not_not.mpr hhead), if_neg hlength]
      simp only [hhead, Nat.not_lt.mp hlength, true_and, checkedTokens]
      have hcopied : (copiedChars topicName.bytes).head? = some slash := by
        obtain ⟨rest, hbytes⟩ := List.head?_eq_some_iff.mp hhead
        simp [copiedChars, hbytes, configMqttTopicMaxlen]
      rw [← laterLevels_leading hcopied, copiedChars]
      generalize topicName.bytes.take (configMqttTopicMaxlen - 1) = copied
      have hshorter := @length_infraStrtok_lt slash copied
      rcases infraStrtok_seen copied with ⟨hnone, htokens⟩ | ⟨item, hitem, htokens⟩
      · cases hcall : infraStrtok slash copied with
        | mk token rest =>
            rw [hcall] at hnone
            obtain rfl : token = none := hnone
            simp [htokens, iotxMcCheckRule, show stateUserInputInvalid < stateSuccess by decide,
              show stateUserInputInvalid ≠ stateSuccess by decide]
      · cases hcall : infraStrtok slash copied with
        | mk token rest =>
            rw [hcall] at hitem htokens hshorter
            obtain rfl : token = some item := hitem
            rw [htokens, SeenOk, List.forall_mem_cons]
            have hloop := checkTopicLoop_success_iff type false (hshorter rfl)
            by_cases hok : TokenOk type item
            · have hrule := mt (checkRule_lt_iff type item).mp (not_not.mpr hok)
              simp [hok, hrule, hloop]
            · have hrule := (checkRule_lt_iff type item).mpr hok
              simp [hok, hrule, Int.ne_of_lt hrule]
  · have herror : stateMqttUnexpTopicFormat ≠ stateSuccess := by decide
    simp [hhead, herror]

/-! ## The levels that are not seen -/

theorem seenLevels_sublist (levels : List (List UInt8)) :
    (seenLevels levels).Sublist levels := by
  induction levels with
  | nil => exact List.Sublist.refl []
  | cons level rest ih =>
      rw [seenLevels]
      split
      · exact ih.cons level
      · split
        · exact (List.nil_sublist rest).cons_cons level
        · exact ih.cons_cons level

/-- Whatever has another level of a part behind it has one of the whole. -/
theorem mem_dropLast_of_sublist {part whole : List (List UInt8)} (hpart : part.Sublist whole) :
    ∀ level ∈ part.dropLast, level ∈ whole.dropLast := by
  induction hpart with
  | slnil => simp
  | cons skipped hrest ih =>
      intro level hlevel
      rw [List.dropLast_cons_of_ne_nil]
      · exact List.mem_cons_of_mem skipped (ih level hlevel)
      · rintro rfl
        simp [List.sublist_nil.mp hrest] at hlevel
  | @cons_cons part whole kept hrest ih =>
      intro level hlevel
      by_cases hpart : part = []
      · simp [hpart] at hlevel
      · have hwhole : whole ≠ [] := by
          rintro rfl
          exact hpart (List.sublist_nil.mp hrest)
        rw [List.dropLast_cons_of_ne_nil hpart, List.mem_cons] at hlevel
        rw [List.dropLast_cons_of_ne_nil hwhole, List.mem_cons]
        exact hlevel.imp id (ih level)

/-- A level is empty, a token, or the short level that stays hidden. -/
theorem level_cases {levels : List (List UInt8)} {level : List UInt8} (hlevel : level ∈ levels) :
    level = [] ∨ level ∈ seenLevels levels ∨
      level.length ≤ 1 ∧ level = hiddenChars levels := by
  induction levels with
  | nil => simp at hlevel
  | cons first rest ih =>
      rw [seenLevels, hiddenChars]
      rw [List.mem_cons] at hlevel
      by_cases hfirst : first = []
      · simp only [hfirst, if_true]
        rcases hlevel with rfl | hrest
        · exact Or.inl hfirst
        · exact ih hrest
      · simp only [hfirst, if_false]
        rcases hlevel with rfl | hrest
        · exact Or.inr (Or.inl List.mem_cons_self)
        · by_cases hshort : LeftShort rest
          · obtain ⟨last, rfl⟩ := List.length_eq_one_iff.mp hshort.1
            obtain rfl : level = last := by simpa using hrest
            refine Or.inr (Or.inr ?_)
            simpa [hshort] using hshort.2
          · simp only [hshort, if_false]
            exact (ih hrest).imp id (Or.imp (List.mem_cons_of_mem first) id)

theorem mem_of_mem_hiddenChars {levels : List (List UInt8)} {char : UInt8}
    (hchar : char ∈ hiddenChars levels) : ∃ level ∈ levels, char ∈ level := by
  induction levels with
  | nil => simp [hiddenChars] at hchar
  | cons first rest ih =>
      rw [hiddenChars] at hchar
      split_ifs at hchar with hfirst hshort
      · obtain ⟨level, hlevel, hmem⟩ := ih hchar
        exact ⟨level, List.mem_cons_of_mem first hlevel, hmem⟩
      · obtain ⟨level, hlevel, hmem⟩ := List.mem_flatten.mp hchar
        exact ⟨level, List.mem_cons_of_mem first hlevel, hmem⟩
      · obtain ⟨level, hlevel, hmem⟩ := ih hchar
        exact ⟨level, List.mem_cons_of_mem first hlevel, hmem⟩

/-- A character of a topic is a separator or stands in a level. -/
theorem mem_level_of_mem {topic : List UInt8} {char : UInt8} (hchar : char ∈ topic) :
    char = slash ∨ ∃ level ∈ topicLevels topic, char ∈ level := by
  induction hlength : topic.length using Nat.strongRecOn generalizing topic with
  | ind size ih =>
      obtain ⟨first, rest, rfl, hfirst, hrest⟩ := topicLevels_cases topic
      rcases hrest with ⟨rfl, hlevels⟩ | ⟨later, rfl, hlevels⟩
      · rw [hlevels]
        exact Or.inr ⟨first, List.mem_singleton_self first, by simpa using hchar⟩
      · rw [hlevels]
        rw [List.mem_append, List.mem_cons] at hchar
        rcases hchar with hmem | hslash | hmem
        · exact Or.inr ⟨first, List.mem_cons_self, hmem⟩
        · exact Or.inl hslash
        · have hshorter : later.length < size := by
            rw [← hlength]
            simp only [List.length_append, List.length_cons]
            omega
          refine (ih later.length hshorter hmem rfl).imp id ?_
          rintro ⟨level, hlevel, hin⟩
          exact ⟨level, List.mem_cons_of_mem first hlevel, hin⟩

/-- One more character continues the last level, or it ends it and starts an empty one. -/
theorem topicLevels_concat (topic : List UInt8) (char : UInt8) :
    ∃ init last, topicLevels topic = init ++ [last] ∧
      (topicLevels (topic ++ [char]) = init ++ [last, []] ∨
        topicLevels (topic ++ [char]) = init ++ [last ++ [char]]) := by
  induction hlength : topic.length using Nat.strongRecOn generalizing topic with
  | ind size ih =>
      obtain ⟨first, rest, rfl, hfirst, hrest⟩ := topicLevels_cases topic
      rcases hrest with ⟨rfl, hlevels⟩ | ⟨later, rfl, hlevels⟩
      · refine ⟨[], first, hlevels, ?_⟩
        rw [List.append_nil, topicLevels]
        by_cases hchar : char = slash
        · apply Or.inl
          rw [hchar, List.splitOn_append_cons_self_of_not_mem hfirst, List.splitOn_nil]
          rfl
        · exact Or.inr (List.splitOn_eq_singleton (by simp [hfirst, Ne.symm hchar]))
      · have hshorter : later.length < size := by
          rw [← hlength]
          simp only [List.length_append, List.length_cons]
          omega
        obtain ⟨init, last, hlater, hmore⟩ := ih later.length hshorter later rfl
        have hsplit : topicLevels (first ++ slash :: later ++ [char]) =
            first :: topicLevels (later ++ [char]) := by
          rw [List.append_assoc, List.cons_append]
          exact List.splitOn_append_cons_self_of_not_mem hfirst _
        refine ⟨first :: init, last, by rw [hlevels, hlater]; rfl, ?_⟩
        rw [hsplit]
        exact hmore.imp (fun heq => by rw [heq]; rfl) (fun heq => by rw [heq]; rfl)

/-- How the levels of the copy stand to those of the topic. -/
structure CopiedLevels (topic : List UInt8) : Prop where
  before : ∀ level ∈ (topicLevels (copiedChars topic)).dropLast,
    level ∈ (topicLevels topic).dropLast
  kept : ∀ level ∈ (topicLevels topic).dropLast, level ∈ topicLevels (copiedChars topic)
  continued : ∀ level ∈ topicLevels (copiedChars topic), ∃ whole ∈ topicLevels topic,
    level <+: whole

theorem copiedLevels {topic : List UInt8} (hmaxlen : topic.length ≤ configMqttTopicMaxlen) :
    CopiedLevels topic := by
  by_cases hall : topic.length ≤ configMqttTopicMaxlen - 1
  · have hcopied : copiedChars topic = topic := List.take_of_length_le hall
    constructor <;> rw [hcopied]
    · exact fun level hlevel => hlevel
    · exact fun level hlevel => List.dropLast_subset _ hlevel
    · exact fun level hlevel => ⟨level, hlevel, List.prefix_rfl⟩
  · have hnonempty : topic ≠ [] := by
      rintro rfl
      exact hall (Nat.zero_le _)
    have hcopied : copiedChars topic = topic.dropLast := by
      have hlength : topic.length = configMqttTopicMaxlen := by omega
      rw [List.dropLast_eq_take, hlength, copiedChars]
    have htopic := List.dropLast_concat_getLast hnonempty
    rw [← hcopied] at htopic
    obtain ⟨init, last, hlevels, hmore⟩ :=
      topicLevels_concat (copiedChars topic) (topic.getLast hnonempty)
    rw [htopic] at hmore
    have hwhole : ∃ later, topicLevels topic = init ++ later ∧ later ≠ [] ∧
        (∀ level ∈ later.dropLast, level = last) ∧ ∃ whole ∈ later, last <+: whole := by
      rcases hmore with hmore | hmore
      · exact ⟨[last, []], hmore, by simp, by simp, last, by simp, List.prefix_rfl⟩
      · exact ⟨_, hmore, by simp, by simp, _, List.mem_singleton_self _,
          List.prefix_append last _⟩
    obtain ⟨later, htail, hlater, hdropped, whole, hmem, hstart⟩ := hwhole
    constructor <;> rw [hlevels, htail]
    · intro level hlevel
      rw [List.dropLast_concat] at hlevel
      rw [List.dropLast_append_of_ne_nil hlater]
      exact List.mem_append_left _ hlevel
    · intro level hlevel
      rw [List.dropLast_append_of_ne_nil hlater, List.mem_append] at hlevel
      rw [List.mem_append, List.mem_singleton]
      exact hlevel.imp id (hdropped level)
    · intro level hlevel
      rw [List.mem_append, List.mem_singleton] at hlevel
      rcases hlevel with hinit | rfl
      · exact ⟨level, List.mem_append_left _ hinit, List.prefix_rfl⟩
      · exact ⟨whole, List.mem_append_right _ hmem, hstart⟩

/-- A character of the topic is a separator, or it stands in a token, or it is unseen. -/
theorem mem_topic_cases {topic : List UInt8} {char : UInt8} (hchar : char ∈ topic) :
    char = slash ∨ (∃ token ∈ checkedTokens topic, char ∈ token) ∨ char ∈ unseenChars topic := by
  rw [← List.take_append_drop (configMqttTopicMaxlen - 1) topic, List.mem_append] at hchar
  rcases hchar with hcopied | hlast
  · refine (mem_level_of_mem hcopied).imp id ?_
    rintro ⟨level, hlevel, hmem⟩
    rcases level_cases hlevel with rfl | hseen | ⟨_, hhidden⟩
    · exact absurd hmem (by simp)
    · exact Or.inl ⟨level, hseen, hmem⟩
    · exact Or.inr (List.mem_append_left _ (hhidden ▸ hmem))
  · exact Or.inr (Or.inr (List.mem_append_right _ hlast))

theorem mem_of_mem_unseenChars {topic : List UInt8} {char : UInt8}
    (hchar : char ∈ unseenChars topic) : char ∈ topic := by
  rcases List.mem_append.mp hchar with hhidden | hlast
  · obtain ⟨level, hlevel, hmem⟩ := mem_of_mem_hiddenChars hhidden
    exact List.mem_of_mem_take ((infix_of_mem_splitOn hlevel).subset hmem)
  · exact List.mem_of_mem_drop hlast

/-- A token stands at the start of a level of the topic. -/
theorem level_of_checkedToken {topic token : List UInt8}
    (hmaxlen : topic.length ≤ configMqttTopicMaxlen) (htoken : token ∈ checkedTokens topic) :
    ∃ level ∈ topicLevels topic, token <+: level ∧ ∀ char ∈ token, char ∈ topic := by
  have hcopied := (seenLevels_sublist _).subset htoken
  obtain ⟨level, hlevel, hstart⟩ := (copiedLevels hmaxlen).continued token hcopied
  exact ⟨level, hlevel, hstart, fun char hchar =>
    (infix_of_mem_splitOn hlevel).subset (hstart.subset hchar)⟩

/-- A token with a token behind it, the first one apart, is not in the last level. -/
theorem level_of_followedToken {topic token : List UInt8}
    (hmaxlen : topic.length ≤ configMqttTopicMaxlen)
    (htoken : token ∈ (checkedTokens topic).tail.dropLast) :
    token ∈ (topicLevels topic).dropLast := by
  apply (copiedLevels hmaxlen).before
  exact mem_dropLast_of_sublist ((List.tail_sublist _).trans (seenLevels_sublist _)) token htoken

/-! ## The check against the rules -/

/-- What a valid topic has in its tokens. -/
theorem ValidTopic.seenOk {type : TopicType} {topic : List UInt8}
    (hvalid : ValidTopic type topic) : SeenOk type (checkedTokens topic) := by
  constructor
  · intro token htoken char hchar
    obtain ⟨level, hlevel, hstart, htopic⟩ := level_of_checkedToken hvalid.maxlen htoken
    refine ⟨hvalid.printable char (htopic char hchar), fun hwildcard => ?_⟩
    have hplaced := hvalid.wildcards
    cases type with
    | topicNameType =>
        rcases hwildcard with rfl | rfl
        · exact absurd (htopic plus hchar) hplaced.1
        · exact absurd (htopic hash hchar) hplaced.2
    | topicFilterType =>
        refine ⟨rfl, ?_⟩
        have hin : plus ∈ level ∨ hash ∈ level := by
          rcases hwildcard with rfl | rfl
          · exact Or.inl (hstart.subset hchar)
          · exact Or.inr (hstart.subset hchar)
        have hone := hplaced.1 level hlevel hin
        have hle := hstart.length_le
        have hpos := List.length_pos_of_mem hchar
        omega
  · intro token htoken hhash
    have hlevel := level_of_followedToken hvalid.maxlen htoken
    have hplaced := hvalid.wildcards
    cases type with
    | topicNameType =>
        apply hplaced.2
        exact (infix_of_mem_splitOn (List.dropLast_subset _ hlevel)).subset hhash
    | topicFilterType => exact hplaced.2 token hlevel hhash

theorem ValidTopic.unseenOk {type : TopicType} {topic : List UInt8}
    (hvalid : ValidTopic type topic) : UnseenOk topic type := by
  refine ⟨fun char hchar => hvalid.printable char (mem_of_mem_unseenChars hchar), ?_⟩
  have hplaced := hvalid.wildcards
  cases type with
  | topicNameType =>
      exact ⟨mt mem_of_mem_unseenChars hplaced.1, mt mem_of_mem_unseenChars hplaced.2⟩
  | topicFilterType =>
      exact ⟨fun level hlevel => hplaced.1 level (List.mem_of_getLast? hlevel), hplaced.2⟩

/-- In a topic whose tokens are in order, only the rest is left to check. -/
theorem validTopic_of_ok {type : TopicType} {topic : List UInt8}
    (hleading : topic.head? = some slash) (hmaxlen : topic.length ≤ configMqttTopicMaxlen)
    (hseen : SeenOk type (checkedTokens topic)) (hunseen : UnseenOk topic type) :
    ValidTopic type topic where
  leading := hleading
  maxlen := hmaxlen
  printable char hchar := by
    rcases mem_topic_cases hchar with rfl | ⟨token, htoken, hmem⟩ | hmem
    · decide
    · exact (hseen.1 token htoken char hmem).1
    · exact hunseen.1 char hmem
  wildcards := by
    cases type with
    | topicNameType =>
        have habsent {char : UInt8} (hwildcard : char = plus ∨ char = hash)
            (hfree : char ∉ unseenChars topic) : char ∉ topic := by
          intro hchar
          rcases mem_topic_cases hchar with rfl | ⟨token, htoken, hmem⟩ | hmem
          · exact absurd hwildcard (by decide)
          · exact absurd ((hseen.1 token htoken char hmem).2 hwildcard).1 (by decide)
          · exact hfree hmem
        exact ⟨habsent (Or.inl rfl) hunseen.2.1, habsent (Or.inr rfl) hunseen.2.2⟩
    | topicFilterType =>
        refine ⟨fun level hlevel hwildcard => ?_, hunseen.2.2⟩
        have hlast := List.dropLast_concat_getLast (topicLevels_ne_nil topic)
        rw [← hlast, List.mem_append, List.mem_singleton] at hlevel
        rcases hlevel with hbefore | rfl
        · have hpos : 0 < level.length :=
            hwildcard.elim List.length_pos_of_mem List.length_pos_of_mem
          rcases level_cases ((copiedLevels hmaxlen).kept level hbefore) with
            rfl | htoken | ⟨hshort, _⟩
          · exact absurd hpos (Nat.lt_irrefl 0)
          · rcases hwildcard with hplus | hhash
            · exact ((hseen.1 level htoken plus hplus).2 (Or.inl rfl)).2
            · exact ((hseen.1 level htoken hash hhash).2 (Or.inr rfl)).2
          · omega
        · exact hunseen.2.1 _ (List.getLast?_eq_some_getLast _) hwildcard

/-- The check succeeds exactly on the valid topics, if and only if it judges what it
does not see rightly. -/
theorem checkTopic_valid_iff (type : TopicType) (topicName : CString) :
    (iotxMcCheckTopic topicName type = stateSuccess ↔ ValidTopic type topicName.bytes) ↔
      JudgedRightly type topicName.bytes := by
  rw [checkTopic_success_iff, JudgedRightly]
  have hvalid : ValidTopic type topicName.bytes ↔
      topicName.bytes.head? = some slash ∧ topicName.bytes.length ≤ configMqttTopicMaxlen ∧
        SeenOk type (checkedTokens topicName.bytes) ∧ UnseenOk topicName.bytes type := by
    constructor
    · intro hvalid
      exact ⟨hvalid.leading, hvalid.maxlen, hvalid.seenOk, hvalid.unseenOk⟩
    · rintro ⟨hleading, hmaxlen, hseen, hunseen⟩
      exact validTopic_of_ok hleading hmaxlen hseen hunseen
  rw [hvalid, CString.strlen]
  by_cases hnone : checkedTokens topicName.bytes = []
  · have hseen : SeenOk type [] := ⟨by simp, by simp⟩
    simp only [hnone, hseen, if_true, ne_eq, not_true_eq_false, false_and, and_false, true_and,
      false_iff]
    tauto
  · simp only [hnone, if_false]
    tauto

/-- `/` is a valid topic of either type, and `/a/+` no topic name; the one is refused and
the other accepted. -/
theorem checkTopic_slash_refused :
    (ValidTopic .topicFilterType [47] ∧
      iotxMcCheckTopic ⟨[47], by decide⟩ .topicFilterType ≠ stateSuccess) ∧
    (¬ ValidTopic .topicNameType [47, 97, 47, 43] ∧
      iotxMcCheckTopic ⟨[47, 97, 47, 43], by decide⟩ .topicNameType = stateSuccess) ∧
    (¬ ValidTopic .topicFilterType [47, 35, 47, 97, 98] ∧
      iotxMcCheckTopic ⟨[47, 35, 47, 97, 98], by decide⟩ .topicFilterType = stateSuccess) := by
  have hprintable : ∀ char ∈ [slash], Printable char := List.forall_mem_singleton.mpr (by decide)
  refine ⟨⟨⟨by decide, by decide, hprintable, ⟨by decide, by decide⟩⟩, by decide⟩, ⟨?_, by decide⟩,
    ?_, by decide⟩
  · exact fun hvalid => hvalid.wildcards.1 (by decide)
  · exact fun hvalid => hvalid.wildcards.2 [35] (by decide) (by decide)

end EnosDeviceSdk.Mqtt
