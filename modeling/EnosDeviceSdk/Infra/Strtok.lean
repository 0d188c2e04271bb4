/-
# The tokenizer `infra_strtok`

`infra_strtok` of `infra_string.c` keeps its cursor in a static variable, which
is passed and returned here as the rest of the string. Every delimiter in the
SDK has one character, so the delimiter is a byte.

A rest of at most one character ends the tokenization at once. A final level of
a single character is therefore lost unless a second delimiter stands in front
of it, and its content is not seen by whoever walks the tokens. What a caller
may conclude is stated level by level: a level of the string is empty, a
returned token, or left in the rest. The calls up to the first without a token
give the segments of the string but for such a last one.
-/

import Mathlib.Data.List.Basic

namespace EnosDeviceSdk.Infra

/-- The loop of `infra_strtok`: `token` is what lies between `target` and `pos`.
The result is the token, if one is returned, and the new cursor. -/
def infraStrtokLoop (delim : UInt8) :
    Bool → List UInt8 → List UInt8 → Option (List UInt8) × List UInt8
  | _, token, [] => (some token, [])
  | onlyDelim, token, byte :: rest =>
      if byte ≠ delim then infraStrtokLoop delim false (token ++ [byte]) rest
      else if rest = [] then (if onlyDelim then none else some token, [])
      else if token = [] then infraStrtokLoop delim onlyDelim [] rest
      else (some token, rest)

/-- `infra_strtok` on the string behind its cursor. -/
def infraStrtok (delim : UInt8) (pos : List UInt8) : Option (List UInt8) × List UInt8 :=
  if pos.length ≤ 1 then (none, pos) else infraStrtokLoop delim true [] pos

/-- A list is its first delimiter-free part, alone or followed by the delimiter
and a rest, and splits accordingly. -/
theorem splitOn_cases (delim : UInt8) (list : List UInt8) :
    (delim ∉ list ∧ list.splitOn delim = [list]) ∨
      ∃ first rest, delim ∉ first ∧ list = first ++ delim :: rest ∧
        list.splitOn delim = first :: rest.splitOn delim := by
  by_cases hdelim : delim ∈ list
  · obtain ⟨first, rest, rfl, hfirst⟩ := List.eq_append_cons_of_mem hdelim
    exact Or.inr ⟨first, rest, hfirst, rfl,
      List.splitOn_append_cons_self_of_not_mem hfirst rest⟩
  · exact Or.inl ⟨hdelim, List.splitOn_eq_singleton hdelim⟩

/-- A level is a contiguous part of the list it comes from. -/
theorem infix_of_mem_splitOn {delim : UInt8} {list level : List UInt8}
    (hlevel : level ∈ list.splitOn delim) : level <:+: list := by
  induction hlength : list.length using Nat.strongRecOn generalizing list with
  | ind size ih =>
      rcases splitOn_cases delim list with ⟨_, hsplit⟩ | ⟨first, rest, _, rfl, hsplit⟩
      · rw [hsplit, List.mem_singleton] at hlevel
        exact hlevel ▸ List.infix_rfl
      · rw [hsplit, List.mem_cons] at hlevel
        rcases hlevel with rfl | hrest
        · exact (List.prefix_append _ _).isInfix
        · have hshorter : rest.length < size := by
            rw [← hlength]
            simp only [List.length_append, List.length_cons]
            omega
          have hlater : rest <:+: first ++ delim :: rest :=
            ⟨first ++ [delim], [], by simp⟩
          exact (ih rest.length hshorter hrest rfl).trans hlater

/-- Every level of what the loop has in hand is empty, the token it returns, or a
level of the rest it leaves. -/
theorem infraStrtokLoop_levels (delim : UInt8) {onlyDelim : Bool} {token pos : List UInt8}
    (htoken : delim ∉ token) (honly : onlyDelim = true → token = []) :
    ∀ level ∈ (token ++ pos).splitOn delim,
      level = [] ∨ (infraStrtokLoop delim onlyDelim token pos).1 = some level ∨
        level ∈ (infraStrtokLoop delim onlyDelim token pos).2.splitOn delim := by
  induction pos generalizing onlyDelim token with
  | nil =>
      intro level hlevel
      rw [List.append_nil, List.splitOn_eq_singleton htoken, List.mem_singleton] at hlevel
      exact Or.inr (Or.inl (by rw [hlevel, infraStrtokLoop]))
  | cons byte rest ih =>
      intro level hlevel
      by_cases hbyte : byte = delim
      · subst hbyte
        rw [List.splitOn_append_cons_self_of_not_mem htoken, List.mem_cons] at hlevel
        by_cases hrest : rest = []
        · subst hrest
          rcases hlevel with rfl | hempty
          · cases honlyDelim : onlyDelim with
            | true => exact Or.inl (honly honlyDelim)
            | false => exact Or.inr (Or.inl (by simp [infraStrtokLoop]))
          · exact Or.inl (by simpa using hempty)
        · by_cases hnil : token = []
          · subst hnil
            rcases hlevel with rfl | hlater
            · exact Or.inl rfl
            · have hloop := @ih onlyDelim [] (by simp) (fun _ => rfl) level hlater
              simpa [infraStrtokLoop, hrest] using hloop
          · rcases hlevel with rfl | hlater
            · exact Or.inr (Or.inl (by simp [infraStrtokLoop, hrest, hnil]))
            · exact Or.inr (Or.inr (by simpa [infraStrtokLoop, hrest, hnil] using hlater))
      · have hloop := @ih false (token ++ [byte]) (by simp [htoken, Ne.symm hbyte]) (by simp)
          level (by simpa using hlevel)
        simpa [infraStrtokLoop, hbyte] using hloop

/-- The loop leaves less than it was given, or nothing. -/
theorem length_infraStrtokLoop_le (delim : UInt8) (onlyDelim : Bool)
    (token pos : List UInt8) :
    (infraStrtokLoop delim onlyDelim token pos).2.length ≤ pos.length - 1 := by
  induction pos generalizing onlyDelim token with
  | nil => simp [infraStrtokLoop]
  | cons byte rest ih =>
      rw [infraStrtokLoop]
      split
      · exact Nat.le_trans (ih false (token ++ [byte])) (by simp)
      · split
        · simp
        · split
          · exact Nat.le_trans (ih onlyDelim []) (by simp)
          · simp

/-- Where the loop returns no token it has used up the string. -/
theorem infraStrtokLoop_none {delim : UInt8} {onlyDelim : Bool} {token pos : List UInt8}
    (hnone : (infraStrtokLoop delim onlyDelim token pos).1 = none) :
    (infraStrtokLoop delim onlyDelim token pos).2 = [] := by
  induction pos generalizing onlyDelim token with
  | nil => rfl
  | cons byte rest ih =>
      by_cases hbyte : byte = delim
      · by_cases hrest : rest = []
        · simp [infraStrtokLoop, hbyte, hrest]
        · by_cases htoken : token = []
          · simp only [infraStrtokLoop, hbyte, hrest, htoken, ne_eq, not_true_eq_false,
              if_false, if_true] at hnone ⊢
            exact ih hnone
          · simp [infraStrtokLoop, hbyte, hrest, htoken] at hnone
      · simp only [infraStrtokLoop, hbyte, ne_eq, not_false_eq_true, if_true] at hnone ⊢
        exact ih hnone

/-- A returned token shortens the string. -/
theorem length_infraStrtok_lt {delim : UInt8} {pos token : List UInt8}
    (htoken : (infraStrtok delim pos).1 = some token) :
    (infraStrtok delim pos).2.length < pos.length := by
  rw [infraStrtok] at htoken ⊢
  split at htoken
  · exact absurd htoken (by simp)
  · next hlong =>
      rw [if_neg hlong]
      have := length_infraStrtokLoop_le delim true [] pos
      omega

/-- Every level of the string has at most one character, is the returned token, or
is a level of the rest. -/
theorem infraStrtok_levels (delim : UInt8) (pos : List UInt8) :
    ∀ level ∈ pos.splitOn delim,
      level.length ≤ 1 ∨ (infraStrtok delim pos).1 = some level ∨
        (infraStrtok delim pos).1.isSome ∧
          level ∈ (infraStrtok delim pos).2.splitOn delim := by
  intro level hlevel
  by_cases hshort : pos.length ≤ 1
  · exact Or.inl (Nat.le_trans (infix_of_mem_splitOn hlevel).length_le hshort)
  · have hloop := infraStrtokLoop_levels delim (by simp : delim ∉ ([] : List UInt8))
      (fun _ : true = true => rfl) level hlevel
    rw [infraStrtok, if_neg hshort]
    rcases hloop with rfl | htoken | hrest
    · exact Or.inl (Nat.zero_le 1)
    · exact Or.inr (Or.inl htoken)
    · cases hresult : (infraStrtokLoop delim true [] pos).1 with
      | some token => exact Or.inr (Or.inr ⟨rfl, hrest⟩)
      | none =>
          rw [infraStrtokLoop_none hresult, List.splitOn_nil, List.mem_singleton] at hrest
          exact Or.inl (by simp [hrest])

/-! ## The sequence of calls -/

/-- The tokens of `infra_strtok(string, delim)` and the calls with `NULL` behind it, up to the first
that returns none. -/
def strtokCalls (delim : UInt8) : Nat → List UInt8 → Option (List (List UInt8))
  | 0, _ => none
  | calls + 1, pos =>
      match infraStrtok delim pos with
      | (none, _) => some []
      | (some token, pos) => (strtokCalls delim calls pos).map (token :: ·)

/-- The segments of a string between its delimiters, without the empty ones. -/
def segments (delim : UInt8) (string : List UInt8) : List (List UInt8) :=
  (string.splitOn delim).filter (· ≠ [])

/-- After so many calls there are no more tokens, and they were the segments. -/
def Tokenizes (delim : UInt8) (string : List UInt8) : Prop :=
  ∃ calls, strtokCalls delim calls string = some (segments delim string)

/-- The last segment has one character, and it is the whole string or stands behind another segment
and a single delimiter. -/
def LosesLast (delim : UInt8) (string : List UInt8) : Prop :=
  ∃ last, last ≠ delim ∧ (string = [last] ∨
    ∃ front before, before ≠ delim ∧ string = front ++ [before, delim, last])

variable {delim : UInt8}

theorem segments_delim (rest : List UInt8) :
    segments delim (delim :: rest) = segments delim rest := by
  have hsplit : (delim :: rest).splitOn delim = [] :: rest.splitOn delim :=
    List.splitOn_append_cons_self_of_not_mem List.not_mem_nil rest
  rw [segments, hsplit]
  rfl

theorem segments_single {segment : List UInt8} (hsegment : delim ∉ segment)
    (hsome : segment ≠ []) : segments delim segment = [segment] := by
  rw [segments, List.splitOn_eq_singleton hsegment]
  exact List.filter_cons_of_pos (decide_eq_true hsome)

theorem segments_append {segment : List UInt8} (hsegment : delim ∉ segment)
    (hsome : segment ≠ []) (rest : List UInt8) :
    segments delim (segment ++ delim :: rest) = segment :: segments delim rest := by
  rw [segments, List.splitOn_append_cons_self_of_not_mem hsegment]
  exact List.filter_cons_of_pos (decide_eq_true hsome)

/-- Inside a token the loop goes on to the next delimiter, or to the end. -/
theorem infraStrtokLoop_segment {token segment : List UInt8} (htoken : token ≠ [])
    (hsegment : delim ∉ segment) :
    infraStrtokLoop delim false token segment = (some (token ++ segment), []) ∧
      ∀ rest, infraStrtokLoop delim false token (segment ++ delim :: rest) =
        (some (token ++ segment), rest) := by
  induction segment generalizing token with
  | nil =>
      rw [List.append_nil]
      refine ⟨rfl, fun rest => ?_⟩
      rw [List.nil_append, infraStrtokLoop, if_neg (not_not.mpr rfl), if_neg htoken]
      split
      · rename_i hend
        rw [hend]
        rfl
      · rfl
  | cons byte segment ih =>
      rw [List.mem_cons, not_or] at hsegment
      obtain ⟨hbyte, hothers⟩ := hsegment
      have hmore := @ih (token ++ [byte]) (by simp) hothers
      rw [List.append_assoc, List.singleton_append] at hmore
      refine ⟨?_, fun rest => ?_⟩
      · rw [infraStrtokLoop, if_pos (Ne.symm hbyte)]
        exact hmore.1
      · rw [List.cons_append, infraStrtokLoop, if_pos (Ne.symm hbyte)]
        exact hmore.2 rest

/-- The loop leaves out the delimiters in front, takes the first segment, and goes on behind the
delimiter that ends it. -/
theorem infraStrtokLoop_cases {pos : List UInt8} (hsome : pos ≠ []) :
    (infraStrtokLoop delim true [] pos = (none, []) ∧ segments delim pos = [] ∧
        ∀ byte ∈ pos, byte = delim) ∨
      ∃ lead segment, segment ≠ [] ∧ delim ∉ segment ∧ (∀ byte ∈ lead, byte = delim) ∧
        ((pos = lead ++ segment ∧ infraStrtokLoop delim true [] pos = (some segment, []) ∧
            segments delim pos = [segment]) ∨
          ∃ rest, pos = lead ++ segment ++ delim :: rest ∧
            infraStrtokLoop delim true [] pos = (some segment, rest) ∧
            segments delim pos = segment :: segments delim rest) := by
  induction pos with
  | nil => exact absurd rfl hsome
  | cons byte pos ih =>
      by_cases hbyte : byte = delim
      · subst hbyte
        by_cases hrest : pos = []
        · subst hrest
          refine Or.inl ⟨?_, segments_delim [], List.forall_mem_singleton.mpr rfl⟩
          rw [infraStrtokLoop, if_neg (not_not.mpr rfl), if_pos rfl, if_pos rfl]
        · have hskip : infraStrtokLoop byte true [] (byte :: pos) =
              infraStrtokLoop byte true [] pos := by
            rw [infraStrtokLoop, if_neg (not_not.mpr rfl), if_neg hrest, if_pos rfl]
          rw [hskip, segments_delim]
          rcases ih hrest with ⟨hloop, hnone, hall⟩ | ⟨lead, segment, hsegment, hfree, hlead, hend⟩
          · exact Or.inl ⟨hloop, hnone, List.forall_mem_cons.mpr ⟨rfl, hall⟩⟩
          · refine Or.inr ⟨byte :: lead, segment, hsegment, hfree,
              List.forall_mem_cons.mpr ⟨rfl, hlead⟩, ?_⟩
            rcases hend with ⟨rfl, hloop⟩ | ⟨rest, rfl, hloop⟩
            · exact Or.inl ⟨rfl, hloop⟩
            · exact Or.inr ⟨rest, rfl, hloop⟩
      · have hstart : infraStrtokLoop delim true [] (byte :: pos) =
            infraStrtokLoop delim false [byte] pos := by
          rw [infraStrtokLoop, if_pos hbyte]
          rfl
        rw [hstart]
        rcases splitOn_cases delim pos with ⟨hfree, -⟩ | ⟨first, rest, hfree, rfl, -⟩
        · have hsegment : delim ∉ byte :: pos := by
            rw [List.mem_cons, not_or]
            exact ⟨Ne.symm hbyte, hfree⟩
          exact Or.inr ⟨[], byte :: pos, List.cons_ne_nil _ _, hsegment, List.forall_mem_nil _,
            Or.inl ⟨rfl, (infraStrtokLoop_segment (List.cons_ne_nil _ _) hfree).1,
              segments_single hsegment (List.cons_ne_nil _ _)⟩⟩
        · have hsegment : delim ∉ byte :: first := by
            rw [List.mem_cons, not_or]
            exact ⟨Ne.symm hbyte, hfree⟩
          exact Or.inr ⟨[], byte :: first, List.cons_ne_nil _ _, hsegment, List.forall_mem_nil _,
            Or.inr ⟨rest, rfl, (infraStrtokLoop_segment (List.cons_ne_nil _ _) hfree).2 rest,
              segments_append hsegment (List.cons_ne_nil _ _) rest⟩⟩

/-- The last segment is seen from the end of the string. -/
theorem losesLast_iff_reverse {string : List UInt8} :
    LosesLast delim string ↔ ∃ last, last ≠ delim ∧ (string.reverse = [last] ∨
      ∃ before front, before ≠ delim ∧ string.reverse = last :: delim :: before :: front) := by
  constructor
  · rintro ⟨last, hlast, rfl | ⟨front, before, hbefore, rfl⟩⟩
    · exact ⟨last, hlast, Or.inl rfl⟩
    · exact ⟨last, hlast, Or.inr ⟨before, front.reverse, hbefore, by simp⟩⟩
  · rintro ⟨last, hlast, hsingle | ⟨before, front, hbefore, hsplit⟩⟩
    · refine ⟨last, hlast, Or.inl ?_⟩
      rw [← List.reverse_reverse string, hsingle]
      rfl
    · refine ⟨last, hlast, Or.inr ⟨front.reverse, before, hbefore, ?_⟩⟩
      rw [← List.reverse_reverse string, hsplit]
      simp

/-- A string with a segment and a delimiter in front loses its last segment if the rest does. -/
theorem losesLast_append {lead segment rest : List UInt8} (hsegment : segment ≠ [])
    (hfree : delim ∉ segment) :
    LosesLast delim (lead ++ segment ++ delim :: rest) ↔ LosesLast delim rest := by
  obtain ⟨front, last, rfl⟩ := (List.eq_nil_or_concat' segment).resolve_left hsegment
  have hlast : last ≠ delim := fun hsame => hfree (by simp [hsame])
  have hreverse : (lead ++ (front ++ [last]) ++ delim :: rest).reverse =
      rest.reverse ++ delim :: last :: (front.reverse ++ lead.reverse) := by
    simp
  rw [losesLast_iff_reverse, losesLast_iff_reverse, hreverse]
  rcases rest.reverse with _ | ⟨first, _ | ⟨second, more⟩⟩
  · simp
  · constructor
    · rintro ⟨other, hother, hsingle | ⟨before, more, -, hsplit⟩⟩
      · exact absurd hsingle (by simp)
      · obtain ⟨rfl, -⟩ := List.cons.inj hsplit
        exact ⟨first, hother, Or.inl rfl⟩
    · rintro ⟨other, hother, hsingle | ⟨before, more, -, hsplit⟩⟩
      · obtain ⟨rfl, -⟩ := List.cons.inj hsingle
        exact ⟨first, hother, Or.inr ⟨last, _, hlast, rfl⟩⟩
      · exact absurd hsplit (by simp)
  · cases more with
    | nil => simp
    | cons third more => simp

/-- A segment behind delimiters is not lost if it has two characters, or one delimiter in front. -/
theorem not_losesLast_single {lead segment : List UInt8} (hsegment : segment ≠ [])
    (hfree : delim ∉ segment) (hlead : ∀ byte ∈ lead, byte = delim)
    (hlong : 1 < (lead ++ segment).length) : ¬LosesLast delim (lead ++ segment) := by
  rintro ⟨last, hlast, hsingle | ⟨front, before, hbefore, hsplit⟩⟩
  · rw [hsingle] at hlong
    exact absurd hlong (Nat.lt_irrefl 1)
  · obtain ⟨inner, final, rfl⟩ := (List.eq_nil_or_concat' segment).resolve_left hsegment
    have hwhole : lead ++ inner ++ [final] = front ++ [before, delim] ++ [last] := by
      simpa using hsplit
    have hfront := (List.append_inj' hwhole rfl).1
    rcases List.eq_nil_or_concat' inner with rfl | ⟨more, other, rfl⟩
    · rw [List.append_nil] at hfront
      exact hbefore (hlead before (by rw [hfront]; simp))
    · have hother : lead ++ more ++ [other] = front ++ [before] ++ [delim] := by
        simpa using hfront
      have hsame := List.cons.inj (List.append_inj' hother rfl).2
      exact hfree (by rw [hsame.1]; simp)

/-- The calls come to an end, and give the segments, but for a last one that is lost. -/
theorem strtokCalls_ends (pos : List UInt8) :
    ∃ calls tokens, strtokCalls delim calls pos = some tokens ∧
      (LosesLast delim pos → ∃ last, segments delim pos = tokens ++ [last]) ∧
      (¬LosesLast delim pos → tokens = segments delim pos) := by
  induction hlength : pos.length using Nat.strongRecOn generalizing pos with
  | ind size ih =>
      by_cases hshort : pos.length ≤ 1
      · have hnone : infraStrtok delim pos = (none, pos) := by rw [infraStrtok, if_pos hshort]
        refine ⟨1, [], by rw [strtokCalls, hnone], ?_, ?_⟩
        · rintro ⟨last, hlast, rfl | ⟨front, before, -, rfl⟩⟩
          · refine ⟨[last], segments_single ?_ (List.cons_ne_nil _ _)⟩
            rw [List.mem_singleton]
            exact Ne.symm hlast
          · exact absurd hshort (by simp)
        · intro hkept
          cases pos with
          | nil => rfl
          | cons byte pos =>
              obtain rfl : pos = [] := by
                rw [List.length_cons] at hshort
                exact List.length_eq_zero_iff.mp (by omega)
              by_cases hbyte : byte = delim
              · rw [hbyte, segments_delim]
                rfl
              · exact absurd ⟨byte, hbyte, Or.inl rfl⟩ hkept
      · have hlong : infraStrtok delim pos = infraStrtokLoop delim true [] pos := by
          rw [infraStrtok, if_neg hshort]
        have hsome : pos ≠ [] := by
          rintro rfl
          exact hshort (Nat.zero_le 1)
        rcases @infraStrtokLoop_cases delim pos hsome with ⟨hloop, hnone, hall⟩ |
          ⟨lead, segment, hsegment, hfree, hlead, ⟨rfl, hloop, hone⟩ | ⟨rest, rfl, hloop, hmore⟩⟩
        · refine ⟨1, [], by rw [strtokCalls, hlong, hloop], ?_, fun _ => hnone.symm⟩
          rintro ⟨last, hlast, rfl | ⟨front, before, -, rfl⟩⟩
          · exact absurd (hall last (List.mem_singleton_self _)) hlast
          · exact absurd (hall last (by simp)) hlast
        · refine ⟨2, [segment], ?_, ?_, fun _ => hone.symm⟩
          · rw [strtokCalls, hlong, hloop]
            rfl
          · intro hloses
            exact absurd hloses
              (not_losesLast_single hsegment hfree hlead (Nat.lt_of_not_le hshort))
        · have hless : rest.length < size := by
            rw [← hlength, List.length_append, List.length_cons]
            omega
          obtain ⟨calls, tokens, hcalls, hlost, hkept⟩ := ih rest.length hless rest rfl
          refine ⟨calls + 1, segment :: tokens, ?_, ?_, ?_⟩
          · rw [strtokCalls, hlong, hloop]
            dsimp only
            rw [hcalls]
            rfl
          · intro hloses
            obtain ⟨last, hlast⟩ := hlost ((losesLast_append hsegment hfree).mp hloses)
            exact ⟨last, by rw [hmore, hlast]; rfl⟩
          · intro hnot
            rw [hmore, hkept fun hloses => hnot ((losesLast_append hsegment hfree).mpr hloses)]

/-- More calls do not change the tokens. -/
theorem strtokCalls_unique {first second : Nat} {pos : List UInt8}
    {tokens others : List (List UInt8)} (hfirst : strtokCalls delim first pos = some tokens)
    (hsecond : strtokCalls delim second pos = some others) : tokens = others := by
  induction first generalizing second pos tokens others with
  | zero => exact nomatch hfirst
  | succ first ih =>
      cases second with
      | zero => exact nomatch hsecond
      | succ second =>
          rw [strtokCalls] at hfirst hsecond
          cases hresult : infraStrtok delim pos with
          | mk token rest =>
              rw [hresult] at hfirst hsecond
              cases token with
              | none => exact Option.some.inj (hfirst.symm.trans hsecond)
              | some token =>
                  obtain ⟨later, hlater, rfl⟩ := Option.map_eq_some_iff.mp hfirst
                  obtain ⟨later', hlater', rfl⟩ := Option.map_eq_some_iff.mp hsecond
                  rw [ih hlater hlater']

/-- The calls give all segments, unless the last one has a single character and is the whole string
or stands behind another segment and one delimiter. -/
theorem tokenizes_iff (delim : UInt8) (string : List UInt8) :
    Tokenizes delim string ↔ ¬LosesLast delim string := by
  obtain ⟨calls, tokens, hcalls, hlost, hkept⟩ := @strtokCalls_ends delim string
  constructor
  · rintro ⟨others, hothers⟩ hloses
    obtain ⟨last, hlast⟩ := hlost hloses
    rw [strtokCalls_unique hothers hcalls, List.self_eq_append_right] at hlast
    exact List.cons_ne_nil _ _ hlast
  · intro hnot
    exact ⟨calls, by rw [hcalls, hkept hnot]⟩

/-- Of `a/b` the second token is not returned. -/
theorem not_tokenizes_short : ¬Tokenizes 47 [97, 47, 98] := by
  rintro ⟨calls, hcalls⟩
  have hreturned : strtokCalls 47 2 [97, 47, 98] = some [[97]] := by decide
  have hlast : segments 47 [98] = [[98]] := segments_single (by decide) (by decide)
  have hsegments : segments 47 ([97] ++ 47 :: [98]) = [97] :: segments 47 [98] :=
    segments_append (by decide) (by decide) [98]
  rw [hlast] at hsegments
  have hcalls := hcalls.trans (congrArg some hsegments)
  exact absurd (strtokCalls_unique hcalls hreturned) (by decide)

end EnosDeviceSdk.Infra
