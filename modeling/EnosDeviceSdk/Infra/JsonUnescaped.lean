/-
# Objects without escaped quotes

In a text in which no name and no string has an escaped quote, a quote always begins or ends a
string. Then the brackets of a nesting balance for the older parser too, as deep as it may be, and
an object with just spaces in front of it and without nulls is read as it should be.
-/

import EnosDeviceSdk.Infra.JsonMembers

namespace EnosDeviceSdk.Infra

/-- No name and no string in the tree has a quote in it. -/
inductive Doc.Unescaped : Doc → Prop
  | scalar {token : Token} (hstring : ∀ body, token = .string body → 34 ∉ body) :
      Unescaped (.scalar token)
  | nest {kind : Nest} {blank : List UInt8} {entries : List (Frame × Doc)}
      (hkeys : ∀ entry ∈ entries, 34 ∉ keyOf entry)
      (hvalues : ∀ entry ∈ entries, Unescaped entry.2) : Unescaped (.nest kind blank entries)

section Marks

variable {jsonMark : UInt8 × UInt8} {marks : Marks} {first second text : List UInt8}

/-- A text that closes goes on with another one. -/
theorem Closes.after
    (hfirst : ∀ front, front ++ [jsonMark.2] <+: first →
      front.foldl (Marks.step jsonMark) marks ≠ .none)
    (hsecond : Closes jsonMark (first.foldl (Marks.step jsonMark) marks) second) :
    Closes jsonMark marks (first ++ second) := by
  induction first generalizing marks with
  | nil => exact hsecond
  | cons byte first ih =>
      refine closes_cons.mpr ⟨?_, ih ?_ hsecond⟩
      · rintro ⟨rfl, hmarks⟩
        exact hfirst [] ⟨first, rfl⟩ hmarks
      · rintro front ⟨rest, rfl⟩
        exact hfirst (byte :: front) ⟨rest, rfl⟩

theorem Closes.append (hfirst : Closes jsonMark .none first)
    (hsecond : Closes jsonMark .none second) : Closes jsonMark .none (first ++ second) :=
  .after hfirst.2 (hfirst.1.symm ▸ hsecond)

theorem closes_nil : Closes jsonMark .none [] := by
  refine ⟨rfl, ?_⟩
  rintro front ⟨rest, hsplit⟩
  simp at hsplit

theorem closes_flatten {texts : List (List UInt8)}
    (htexts : ∀ text ∈ texts, Closes jsonMark .none text) :
    Closes jsonMark .none texts.flatten := by
  induction texts with
  | nil => exact closes_nil
  | cons text texts ih =>
      obtain ⟨htext, hothers⟩ := List.forall_mem_cons.mp htexts
      exact htext.append (ih hothers)

/-- Bytes that are neither quotes nor brackets of the kind change nothing. -/
theorem closes_of_plain
    (hplain : ∀ byte ∈ text, byte ≠ jsonMark.1 ∧ byte ≠ jsonMark.2 ∧ byte ≠ 34) :
    Closes jsonMark .none text := by
  induction text with
  | nil => exact closes_nil
  | cons byte text ih =>
      obtain ⟨⟨hopening, hclosing, hquote⟩, hothers⟩ := List.forall_mem_cons.mp hplain
      have hstep : Marks.none.step jsonMark byte = .none := by
        rw [Marks.step, if_neg hclosing, if_neg hopening, if_neg hquote]
      rw [closes_cons, hstep]
      exact ⟨fun hboth => hclosing hboth.1, ih hothers⟩

/-- The bracket of another level leaves the text as it is, one level deeper. -/
theorem foldl_deeper
    (hfronts : ∀ front, front ++ [jsonMark.2] <+: text →
      front.foldl (Marks.step jsonMark) marks ≠ .none) :
    text.foldl (Marks.step jsonMark) { marks with depth := marks.depth + 1 } =
      { text.foldl (Marks.step jsonMark) marks with
        depth := (text.foldl (Marks.step jsonMark) marks).depth + 1 } := by
  induction text generalizing marks with
  | nil => rfl
  | cons byte text ih =>
      have hhere : byte = jsonMark.2 → marks ≠ .none := by
        rintro rfl
        exact hfronts [] ⟨text, rfl⟩
      have hstep : Marks.step jsonMark { marks with depth := marks.depth + 1 } byte =
          { marks.step jsonMark byte with depth := (marks.step jsonMark byte).depth + 1 } := by
        obtain ⟨inString, depth⟩ := marks
        by_cases hclosing : byte = jsonMark.2
        · cases inString with
          | true => rw [Marks.step, Marks.step, if_pos hclosing, if_pos hclosing]; rfl
          | false =>
              have hdepth : depth ≠ 0 := by
                rintro rfl
                exact hhere hclosing rfl
              rw [Marks.step, Marks.step, if_pos hclosing, if_pos hclosing]
              simp only [Bool.false_eq_true, if_false, Marks.mk.injEq, true_and]
              omega
        · by_cases hopening : byte = jsonMark.1
          · rw [Marks.step, Marks.step, if_neg hclosing, if_neg hclosing, if_pos hopening,
              if_pos hopening]
            cases inString <;> rfl
          · rw [Marks.step, Marks.step, if_neg hclosing, if_neg hclosing, if_neg hopening,
              if_neg hopening]
            split <;> rfl
      rw [List.foldl_cons, List.foldl_cons, hstep]
      refine ih ?_
      rintro front ⟨rest, rfl⟩
      exact hfronts (byte :: front) ⟨rest, rfl⟩

/-- A string without quotes in it is passed over. -/
theorem closes_string {body : List UInt8} (hbody : 34 ∉ body) (hopening : jsonMark.1 ≠ 34)
    (hclosing : jsonMark.2 ≠ 34) : Closes jsonMark .none (34 :: (body ++ [34])) := by
  have hquote : ∀ marks : Marks,
      marks.step jsonMark 34 = { marks with inString := !marks.inString } :=
    fun marks => by rw [Marks.step, if_neg hclosing.symm, if_neg hopening.symm, if_pos rfl]
  have hinside : Closes jsonMark ⟨true, 0⟩ (body ++ [34]) := by
    induction body with
    | nil =>
        rw [List.nil_append, closes_cons, hquote]
        exact ⟨fun hboth => hclosing hboth.1.symm, closes_nil⟩
    | cons byte body ih =>
        rw [List.mem_cons, not_or] at hbody
        have hstep : Marks.step jsonMark ⟨true, 0⟩ byte = ⟨true, 0⟩ := by
          rw [Marks.step, if_neg (Ne.symm hbody.1)]
          split
          · rfl
          · split <;> rfl
        rw [List.cons_append, closes_cons, hstep]
        exact ⟨fun hboth => (nomatch hboth.2), ih hbody.2⟩
  rw [closes_cons, hquote]
  exact ⟨fun hboth => hclosing hboth.1.symm, hinside⟩

/-- Brackets of the kind around a text that closes. -/
theorem Closes.nest (htext : Closes jsonMark .none text) (hdiffer : jsonMark.1 ≠ jsonMark.2) :
    Closes jsonMark .none (jsonMark.1 :: (text ++ [jsonMark.2])) := by
  have hopened : Marks.none.step jsonMark jsonMark.1 = ⟨false, 1⟩ := by
    rw [Marks.step, if_neg hdiffer, if_pos rfl]
    rfl
  have hclosed : Marks.step jsonMark ⟨false, 1⟩ jsonMark.2 = .none := by
    rw [Marks.step, if_pos rfl]
    rfl
  have hinside := foldl_deeper htext.2
  rw [htext.1] at hinside
  rw [closes_cons, hopened]
  refine ⟨fun hboth => hdiffer hboth.1, Closes.after ?_ ?_⟩
  · intro front hfront
    have hpart : ∀ part, part ++ [jsonMark.2] <+: front →
        part.foldl (Marks.step jsonMark) .none ≠ .none := fun part hmore =>
      htext.2 part (hmore.trans ((List.prefix_append front _).trans hfront))
    have hdeeper := foldl_deeper hpart
    intro hnone
    rw [Marks.none] at hdeeper
    rw [hdeeper, Marks.none, Marks.mk.injEq] at hnone
    omega
  · rw [Marks.none] at hinside
    rw [hinside, closes_cons, hclosed]
    exact ⟨fun hboth => (nomatch hboth.2), closes_nil⟩

end Marks

/-! ## Trees -/

section Trees

variable (kind : Nest)

theorem closes_blank {text : List UInt8} (hblank : Blank text) :
    Closes kind.jsonType.jsonMark .none text := by
  apply closes_of_plain
  intro byte hbyte
  have hle := hblank byte hbyte
  refine ⟨?_, ?_, ?_⟩ <;>
    (rintro rfl
     cases kind <;> exact absurd hle (by decide))

theorem closes_key {body : List UInt8} (hbody : 34 ∉ body) :
    Closes kind.jsonType.jsonMark .none (34 :: (body ++ [34])) := by
  cases kind
  · exact closes_string hbody (by decide) (by decide)
  · exact closes_string hbody (by decide) (by decide)

theorem closes_token {token : Token} (htoken : token.Spelled)
    (hstring : ∀ body, token = .string body → 34 ∉ body) :
    Closes kind.jsonType.jsonMark .none token.render := by
  cases token with
  | null | true | false =>
      apply closes_of_plain
      cases kind <;> simp [Token.render, Nest.jsonType, JsonType.jsonMark]
  | number text =>
      apply closes_of_plain
      intro byte hbyte
      have hnumber := htoken.2 byte hbyte
      refine ⟨?_, ?_, ?_⟩ <;>
        (rintro rfl
         cases kind <;> exact absurd hnumber (by decide))
  | string body => exact closes_key kind (hstring body rfl)

theorem closes_lead {outer : Nest} {entry : Frame × Doc} (hfits : entry.1.Fits outer)
    (hkey : 34 ∉ keyOf entry) : Closes kind.jsonType.jsonMark .none entry.1.lead := by
  cases hlabel : entry.1.label with
  | none => simpa [Frame.lead, hlabel] using closes_blank kind hfits.before
  | some label =>
      have hkeyOf : keyOf entry = label.key := by rw [keyOf, hlabel]; rfl
      have hcolon : Closes kind.jsonType.jsonMark .none [58] := by
        apply closes_of_plain
        cases kind <;> simp [Nest.jsonType, JsonType.jsonMark]
      have hall := (closes_blank kind hfits.before).append
        ((closes_key kind (hkeyOf ▸ hkey)).append
          ((closes_blank kind (hfits.gap label hlabel)).append
            (hcolon.append (closes_blank kind (hfits.blank label hlabel)))))
      rw [lead_member hlabel]
      simpa using hall

theorem closes_entryText {outer : Nest} {entry : Frame × Doc} (hfits : entry.1.Fits outer)
    (hkey : 34 ∉ keyOf entry) (hvalue : Closes kind.jsonType.jsonMark .none entry.2.render) :
    Closes kind.jsonType.jsonMark .none (entryText entry) := by
  rw [entryText, Frame.wrap]
  exact ((closes_lead kind hfits hkey).append hvalue).append (closes_blank kind hfits.after)

theorem closes_bodyText {blank : List UInt8} {entries : List (Frame × Doc)} (hblank : Blank blank)
    (hentries : ∀ entry ∈ entries, Closes kind.jsonType.jsonMark .none (entryText entry)) :
    Closes kind.jsonType.jsonMark .none (bodyText blank entries) := by
  have hcomma : Closes kind.jsonType.jsonMark .none [44] := by
    apply closes_of_plain
    cases kind <;> simp [Nest.jsonType, JsonType.jsonMark]
  cases entries with
  | nil => exact closes_blank kind hblank
  | cons entry entries =>
      obtain ⟨hentry, hothers⟩ := List.forall_mem_cons.mp hentries
      refine hentry.append (closes_flatten ?_)
      intro text htext
      obtain ⟨inner, hinner, rfl⟩ := List.mem_map.mp htext
      obtain ⟨other, hother, rfl⟩ := List.mem_map.mp hinner
      exact hcomma.append (hothers other hother)

/-- The brackets of either kind balance in the text of a tree. -/
theorem Doc.Unescaped.closes {doc : Doc} (hunescaped : doc.Unescaped) (hdoc : doc.Spelled) :
    Closes kind.jsonType.jsonMark .none doc.render := by
  induction hunescaped with
  | scalar hstring =>
      cases hdoc with
      | scalar htoken => exact closes_token kind htoken hstring
  | @nest outer blank entries hkeys _ ih =>
      cases hdoc with
      | nest hblank hframes hvalues =>
          have hbody : Closes kind.jsonType.jsonMark .none (bodyText blank entries) :=
            closes_bodyText kind hblank fun entry hentry =>
              closes_entryText kind (hframes entry hentry) (hkeys entry hentry)
                (ih entry hentry (hvalues entry hentry))
          rw [render_nest, List.cons_append]
          by_cases hkind : outer = kind
          · subst hkind
            cases outer
            · exact hbody.nest (by decide)
            · exact hbody.nest (by decide)
          · have hother : ∀ byte, byte = outer.opening ∨ byte = outer.closing →
                Closes kind.jsonType.jsonMark .none [byte] := by
              intro byte hbyte
              apply closes_of_plain
              rw [List.forall_mem_singleton]
              cases outer <;> cases kind <;>
                first
                | exact absurd rfl hkind
                | (rcases hbyte with rfl | rfl <;> decide)
            exact (hother _ (Or.inl rfl)).append (hbody.append (hother _ (Or.inr rfl)))

/-- A value without escaped quotes is scanned rightly unless it is a null. -/
theorem Doc.Unescaped.scanned {doc : Doc} (hunescaped : doc.Unescaped) (hdoc : doc.Spelled)
    (hnull : doc ≠ .scalar .null) : Scanned doc := by
  cases hunescaped with
  | @scalar token hstring =>
      cases token with
      | null => exact absurd rfl hnull
      | true | false | number => trivial
      | string body => exact hstring body rfl
  | @nest kind blank entries hkeys hvalues =>
      cases hdoc with
      | nest hblank hframes hspelled =>
          exact closes_bodyText kind hblank fun entry hentry =>
            closes_entryText kind (hframes entry hentry) (hkeys entry hentry)
              ((hvalues entry hentry).closes kind (hspelled entry hentry))

end Trees

/-- In an object behind spaces, without escaped quotes and with no null among its members, all of
them are enumerated, and a name that is not empty is found unless there are empty values under
it. -/
theorem Doc.Unescaped.reads {text : CString} {lead blank : List UInt8}
    {entries : List (Frame × Doc)} {trail : List UInt8}
    (hobject : ObjectText text lead blank entries trail) (hlead : ∀ byte ∈ lead, byte = 32)
    (hunescaped : (Doc.nest .object blank entries).Unescaped)
    (hnulls : ∀ entry ∈ entries, entry.2 ≠ .scalar .null) :
    Enumerates text ((ownMembers (lead.length + 1) entries).map Prod.snd) ∧
      ∀ name : CString, (∀ entry ∈ entries, keyOf entry = name.bytes →
        name.bytes ≠ [] ∧ entry.2.contents ≠ []) →
          FindsByName text name (ownMembers (lead.length + 1) entries) := by
  have hvalues : ∀ entry ∈ entries, entry.2.Spelled := by
    cases hobject.object with
    | nest _ _ hvalues => exact hvalues
  have hall : Enumerates text ((ownMembers (lead.length + 1) entries).map Prod.snd) := by
    refine (enumerates_iff hobject).mpr (Or.inr ⟨hlead, fun entry hentry => ?_⟩)
    cases hunescaped with
    | nest hkeys hinner =>
        exact ⟨hkeys entry hentry,
          (hinner entry hentry).scanned (hvalues entry hentry) (hnulls entry hentry)⟩
  refine ⟨hall, fun name hname => (findsByName_iff hobject hall name).mpr ?_⟩
  intro entry hentry
  exact hname entry (List.mem_of_find?_eq_some hentry)
    (of_decide_eq_true (List.find?_some (p := fun entry => keyOf entry = name.bytes) hentry))

end EnosDeviceSdk.Infra
