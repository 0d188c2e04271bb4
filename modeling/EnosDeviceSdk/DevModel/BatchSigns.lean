/-
# A batch login is right for every way to sign

Whatever signs are, a request that is right shows the sign of each device between two quotes. Signs
that stand nowhere else can be chosen for any of the sources, so the sources that were signed are
those of the devices, and the keys and secrets in memory have nothing behind them. Then the only
thing that an entry can lack is its closing bracket, and the brackets of the request balance.
-/

import EnosDeviceSdk.DevModel.BatchEntries
import EnosDeviceSdk.Infra.JsonUnique

namespace EnosDeviceSdk.DevModel.BatchLogin

open EnosDeviceSdk.Infra EnosDeviceSdk.Library
open EnosDeviceSdk.DevModel.CommandChain EnosDeviceSdk.DevModel.Messages

/-! ## What a document shows -/

/-- The texts behind commas show what each of them shows. -/
theorem shows_laterText {entries : List (Frame × Doc)} {bodies : List (List UInt8)}
    (hshows : List.Forall₂ (fun entry body => Shows 34 [body] (entryText entry)) entries bodies) :
    Shows 34 bodies (laterText entries) := by
  induction hshows with
  | nil => exact .nil _
  | cons hfirst _ ih => exact (hfirst.behind [44]).append ih

theorem shows_nest {kind : Nest} {blank : List UInt8} {entries : List (Frame × Doc)}
    {bodies : List (List UInt8)}
    (hshows : List.Forall₂ (fun entry body => Shows 34 [body] (entryText entry)) entries bodies) :
    Shows 34 bodies (Doc.nest kind blank entries).render := by
  cases hshows with
  | nil => exact .nil _
  | cons hfirst hrest =>
      rw [render_nest_cons]
      exact (hfirst.append ((shows_laterText hrest).before [kind.closing])).behind [kind.opening]

theorem shows_entryText {entry : Frame × Doc} {bodies : List (List UInt8)}
    (hshows : Shows 34 bodies entry.2.render) : Shows 34 bodies (entryText entry) := by
  rw [entryText, Frame.wrap, List.append_assoc]
  exact (hshows.before entry.1.after).behind entry.1.lead

/-- An object shows what its members show. -/
theorem shows_field {doc value : Doc} {key : List UInt8} {bodies : List (List UInt8)}
    (hfield : doc.field key = some value) (hshows : Shows 34 bodies value.render) :
    Shows 34 bodies doc.render := by
  have hlater : ∀ {entries : List (Frame × Doc)} {entry : Frame × Doc}, entry ∈ entries →
      Shows 34 bodies entry.2.render → Shows 34 bodies (laterText entries) := by
    intro entries entry hmem hshows
    induction entries with
    | nil => cases hmem
    | cons first entries ih =>
        rcases List.mem_cons.mp hmem with rfl | hmem
        · exact ((shows_entryText hshows).behind [44]).before (laterText entries)
        · exact (ih hmem).behind (44 :: entryText first)
  cases doc with
  | scalar => simp [Doc.field] at hfield
  | nest kind blank entries =>
      cases kind with
      | array => simp [Doc.field] at hfield
      | object =>
          obtain ⟨entry, hfind, rfl⟩ := Option.map_eq_some_iff.mp hfield
          have hmem := List.mem_of_find?_eq_some hfind
          cases entries with
          | nil => cases hmem
          | cons first entries =>
              rw [render_nest_cons]
              refine Shows.behind ?_ [Nest.object.opening]
              rcases List.mem_cons.mp hmem with rfl | hmem
              · exact (shows_entryText hshows).before _
              · exact ((hlater hmem hshows).before [Nest.object.closing]).behind (entryText first)

/-! ## What the strings of a document are -/

/-- The string that a member has. -/
theorem string_of_field {doc : Doc} {key body : List UInt8}
    (hfield : (doc.field key).bind stringOf = some body) :
    doc.field key = some (.scalar (.string body)) := by
  obtain ⟨value, hvalue, hstring⟩ := Option.bind_eq_some_iff.mp hfield
  cases value with
  | nest => cases hstring
  | scalar token =>
      cases token with
      | string text =>
          obtain rfl := Option.some.inj hstring
          exact hvalue
      | null => cases hstring
      | true => cases hstring
      | false => cases hstring
      | number => cases hstring

theorem stringBody_of_field {doc : Doc} {key body : List UInt8} (hdoc : doc.Spelled)
    (hfield : (doc.field key).bind stringOf = some body) : StringBody body := by
  cases hdoc.field (string_of_field hfield) with
  | scalar htoken => exact htoken

/-- What is read of a list is read of each of its items. -/
theorem forall₂_of_mapM {α β : Type} {read : α → Option β} {items : List α} {values : List β}
    (hread : items.mapM read = some values) :
    List.Forall₂ (fun item value => read item = some value) items values := by
  induction items generalizing values with
  | nil =>
      obtain rfl := Option.some.inj hread
      exact .nil
  | cons item items ih =>
      simp only [List.mapM_cons, Option.bind_eq_bind, Option.pure_def, Option.bind_eq_some_iff,
        Option.some.injEq] at hread
      obtain ⟨value, hvalue, values, hvalues, rfl⟩ := hread
      exact .cons hvalue (ih hvalues)

/-- An entry shows its sign, and its keys can stand between quotes. -/
theorem of_entryOf {doc : Doc} {entry : LoginEntry} (hentry : entryOf doc = some entry) :
    Shows 34 [entry.sign] doc.render ∧
      (doc.Spelled → StringBody entry.productKey ∧ StringBody entry.deviceKey) := by
  simp only [entryOf, Option.bind_eq_bind, Option.bind_eq_some_iff, Option.pure_def,
    Option.some.injEq] at hentry
  obtain ⟨productKey, hproductKey, deviceKey, hdeviceKey, sign, hsign, rfl⟩ := hentry
  rw [← Option.bind_eq_some_iff] at hproductKey hdeviceKey hsign
  refine ⟨shows_field (string_of_field hsign) ?_, fun hdoc =>
    ⟨stringBody_of_field hdoc hproductKey, stringBody_of_field hdoc hdeviceKey⟩⟩
  exact .cons [] sign (.nil [])

/-- The array of the entries. -/
theorem of_entriesOf {doc : Doc} {entries : List LoginEntry}
    (hentries : entriesOf doc = some entries) :
    Shows 34 (entries.map LoginEntry.sign) doc.render ∧
      (doc.Spelled → ∀ entry ∈ entries,
        StringBody entry.productKey ∧ StringBody entry.deviceKey) := by
  cases doc with
  | scalar => cases hentries
  | nest kind blank items =>
      cases kind with
      | object => cases hentries
      | array =>
          have hall := forall₂_of_mapM hentries
          constructor
          · apply shows_nest
            rw [List.forall₂_map_right_iff]
            exact hall.imp fun item entry hentry => shows_entryText (of_entryOf hentry).1
          · intro hdoc
            cases hdoc with
            | nest _ hframes hvalues =>
                clear hentries hframes
                induction hall with
                | nil => exact List.forall_mem_nil _
                | cons hentry _ ih =>
                    rw [List.forall_mem_cons] at hvalues ⊢
                    exact ⟨(of_entryOf hentry).2 hvalues.1, ih hvalues.2⟩

/-- Parameters that log in show the signs, and their strings can stand between quotes. -/
theorem LogsIn.facts {params clientId timestamp : List UInt8} {entries : List LoginEntry}
    (hlogs : LogsIn params clientId timestamp entries) :
    Shows 34 (entries.map LoginEntry.sign) params ∧ Opens 0 params ∧ StringBody clientId ∧
      ∀ entry ∈ entries, StringBody entry.productKey ∧ StringBody entry.deviceKey := by
  obtain ⟨doc, hdoc, rfl, hclientId, -, hentries⟩ := hlogs
  obtain ⟨value, hvalue, hentries⟩ := Option.bind_eq_some_iff.mp hentries
  obtain ⟨hshows, hbodies⟩ := of_entriesOf hentries
  exact ⟨shows_field hvalue hshows, opens_render hdoc,
    stringBody_of_field hdoc.spelled hclientId, hbodies (hdoc.spelled.field hvalue)⟩

/-! ## What was signed -/

/-- A digest with the digits of a number. -/
def digestOf (index : Nat) : Vector UInt8 32 :=
  Vector.ofFn fun place => UInt8.ofNat (index / 256 ^ place.val)

theorem digestOf_injOn :
    Set.InjOn (fun index => infraHex2str (digestOf index).toList) (Finset.range (256 ^ 5)) := by
  intro first hfirst second hsecond hsame
  rw [Finset.coe_range, Set.mem_Iio] at hfirst hsecond
  have hdigests := Vector.toList_inj.mp (infraHex2str_injective hsame)
  have hdigits : ∀ place : Fin 32,
      first / 256 ^ place.val % 256 = second / 256 ^ place.val % 256 := by
    intro place
    have hbyte := congrArg (fun digest => digest[place.val].toNat) hdigests
    simpa [digestOf] using hbyte
  have hzeroth := hdigits ⟨0, by decide⟩
  have hfirstDigit := hdigits ⟨1, by decide⟩
  have hsecondDigit := hdigits ⟨2, by decide⟩
  have hthirdDigit := hdigits ⟨3, by decide⟩
  have hfourthDigit := hdigits ⟨4, by decide⟩
  dsimp only at hzeroth hfirstDigit hsecondDigit hthirdDigit hfourthDigit
  omega

/-- Some digest is not among so many pieces of text. -/
theorem exists_digest {used : List (List UInt8)} (hused : used.length < 256 ^ 5) :
    ∃ digest : Vector UInt8 32, infraHex2str digest.toList ∉ used := by
  obtain ⟨index, -, hfresh⟩ := exists_not_mem digestOf_injOn hused
  exact ⟨digestOf index, hfresh⟩

section Signs

variable {sha256 : List UInt8 → Vector UInt8 32} {clientId timestamp : List UInt8}

/-- What each entry of a list signs, and the pieces of the text between its sign and the next. -/
def signPlaces (clientId timestamp : List UInt8) :
    List DeviceKeys → List (List UInt8 × List (List UInt8))
  | [] => []
  | [keys] => [(signSource clientId timestamp keys, (entryClosing keys ++ [93, 125]).splitOn 34)]
  | keys :: next :: later =>
      (signSource clientId timestamp keys,
        (entryClosing keys ++ 44 :: entryFront next).splitOn 34) ::
        signPlaces clientId timestamp (next :: later)

theorem signPlaces_fst (entries : List DeviceKeys) :
    (signPlaces clientId timestamp entries).map Prod.fst =
      entries.map (signSource clientId timestamp) := by
  induction entries with
  | nil => rfl
  | cons keys rest ih =>
      cases rest with
      | nil => rfl
      | cons next later => exact congrArg (signSource clientId timestamp keys :: ·) ih

/-- The pieces of the parameters. -/
theorem splitOn_list (first : DeviceKeys) (rest : List DeviceKeys) (front : List UInt8) :
    (front ++ listText sha256 clientId timestamp (first :: rest) ++ [93, 125]).splitOn 34 =
      (front ++ entryFront first).splitOn 34 ++
        (signPlaces clientId timestamp (first :: rest)).flatMap fun place =>
          infraHex2str (sha256 place.1).toList :: place.2 := by
  have hquote : ∀ input : List UInt8, 34 ∉ infraHex2str input := fun input hquote =>
    absurd (infraHex2str_digits input 34 hquote) (by decide)
  induction rest generalizing first front with
  | nil =>
      have htext : front ++ listText sha256 clientId timestamp [first] ++ [93, 125] =
          (front ++ entryFront first) ++ 34 ::
            (infraHex2str (sha256 (signSource clientId timestamp first)).toList ++
              34 :: (entryClosing first ++ [93, 125])) := by
        simp [listText_singleton, writtenText, loginText, DeviceKeys.entry]
      rw [htext, List.splitOn_append_cons_self,
        List.splitOn_append_cons_self_of_not_mem (hquote _), signPlaces, List.flatMap_singleton]
  | cons next later ih =>
      have htext : front ++ listText sha256 clientId timestamp (first :: next :: later) ++
          [93, 125] = (front ++ entryFront first) ++ 34 ::
            (infraHex2str (sha256 (signSource clientId timestamp first)).toList ++
              34 :: (entryClosing first ++ [44] ++
                listText sha256 clientId timestamp (next :: later) ++ [93, 125])) := by
        simp [listText_cons_cons, writtenText, loginText, DeviceKeys.entry]
      rw [htext, List.splitOn_append_cons_self,
        List.splitOn_append_cons_self_of_not_mem (hquote _), ih, signPlaces, List.flatMap_cons]
      simp

theorem length_gaps_le (places : List (List UInt8 × List (List UInt8)))
    (mark : List UInt8 → List UInt8) :
    (places.flatMap Prod.snd).length ≤
      (places.flatMap fun place => mark place.1 :: place.2).length := by
  induction places with
  | nil => exact Nat.le_refl 0
  | cons place places ih =>
      rw [List.flatMap_cons, List.flatMap_cons, List.length_append, List.length_append,
        List.length_cons]
      omega

/-- If the parameters are right for every way to sign, the sources are those of the devices. -/
theorem signSource_eq {listed stored : List DeviceKeys} (hlength : listed.length = stored.length)
    (hshort : (paramsText clientId timestamp
      (listText sha256 clientId timestamp stored)).length < 2 ^ 32)
    (hlogs : ∀ sha256, LogsIn (paramsText clientId timestamp
      (listText sha256 clientId timestamp stored)) clientId timestamp
        (listed.map fun keys => keys.entry sha256 clientId timestamp)) :
    listed.map (signSource clientId timestamp) = stored.map (signSource clientId timestamp) := by
  cases stored with
  | nil =>
      rw [List.length_nil, List.length_eq_zero_iff] at hlength
      rw [hlength]
  | cons first rest =>
      have hpieces := fun sha256 =>
        @splitOn_list sha256 clientId timestamp first rest (paramsFront clientId timestamp)
      let head := (paramsFront clientId timestamp ++ entryFront first).splitOn 34
      let places := signPlaces clientId timestamp (first :: rest)
      -- The pieces around the signs are fewer than there are digests.
      have hused : (head ++ places.flatMap Prod.snd).length < 2 ^ 32 + 1 := by
        have hmost : (head ++ places.flatMap fun place =>
            infraHex2str (sha256 place.1).toList :: place.2).length ≤ 2 ^ 32 := by
          rw [← hpieces sha256]
          exact Nat.le_trans (length_splitOn_le _) hshort
        have hfewer := length_gaps_le places fun source => infraHex2str (sha256 source).toList
        rw [List.length_append] at hmost ⊢
        omega
      obtain ⟨marked, hmarked⟩ := exists_digest (Nat.lt_trans hused (by decide))
      obtain ⟨plain, hplain⟩ := @exists_digest
        (infraHex2str marked.toList :: (head ++ places.flatMap Prod.snd))
        (by rw [List.length_cons]; omega)
      rw [List.mem_append, not_or, List.mem_flatMap] at hmarked
      rw [List.mem_cons, List.mem_append, not_or, not_or, List.mem_flatMap] at hplain
      rw [← signPlaces_fst (first :: rest)]
      refine eq_of_marks (Ne.symm hplain.1) ⟨hmarked.1, hplain.2.1⟩
        (fun place hplace => ⟨fun hmem => hmarked.2 ⟨place, hplace, hmem⟩,
          fun hmem => hplain.2.2 ⟨place, hplace, hmem⟩⟩) ?_ ?_
      · have hsame := congrArg List.length (@signPlaces_fst clientId timestamp (first :: rest))
        rw [List.length_map, List.length_map] at hsame
        rw [List.length_map, hlength, hsame]
      · intro mark hmark
        let digest : List UInt8 → Vector UInt8 32 := fun source =>
          if mark source = infraHex2str marked.toList then marked else plain
        have hdigest : ∀ source, infraHex2str (digest source).toList = mark source := by
          intro source
          by_cases hsource : mark source = infraHex2str marked.toList
          · rw [show digest source = marked from if_pos hsource, hsource]
          · rw [show digest source = plain from if_neg hsource,
              (hmark source).resolve_left hsource]
        have hsub := (hlogs digest).facts.1.sublist ?_
        · rw [paramsText, hpieces digest, List.map_map] at hsub
          simpa [DeviceKeys.entry, hdigest, Function.comp_def] using hsub
        · rw [List.map_map]
          exact List.forall_mem_map.mpr fun keys _ hquote =>
            absurd (infraHex2str_digits _ 34 hquote) (by decide)

/-- What is behind the strings of a device would be signed as well. -/
theorem cleared_of_signSource {fresh : FreshCredential} {node : DmMgrDevNode}
    (hwithin : (keysOf node).Within)
    (hsame : signSource clientId timestamp (keysOf node) =
      signSource clientId timestamp (storedKeys (credentialOf fresh (keysOf node)))) :
    Cleared fresh (keysOf node) := by
  have hlengths := congrArg List.length hsame
  rw [storedKeys_credentialOf] at hlengths
  simp only [signSource, keysOf, List.length_append] at hlengths
  rw [← storedKeys_eq_iff hwithin, storedKeys_credentialOf]
  simp only [keysOf, DeviceKeys.mk.injEq, List.append_right_eq_self, ← List.length_eq_zero_iff]
  exact ⟨by omega, by omega, by omega⟩

/-! ## Brackets -/

/-- A member that is a string opens nothing. -/
theorem opens_memberText {key body : List UInt8} (hkey : StringBody key)
    (hbody : StringBody body) : Opens 0 (memberText (key, .scalar (.string body))) := by
  have hcolon : Opens 0 [58] := opens_of_plain (by simp)
  have hall := ((opens_string hkey).append hcolon).append (opens_string hbody)
  simpa [memberText, render_string] using hall

theorem opens_writtenText {keys : DeviceKeys} (hproductKey : StringBody keys.productKey)
    (hdeviceKey : StringBody keys.deviceKey) :
    Opens (1 - (entryClosing keys).length) (writtenText sha256 clientId timestamp keys) := by
  have hcomma : Opens 0 [44, 32] := opens_of_plain (by simp)
  have hfirst := @opens_memberText (ascii "productKey") _ (stringBody_of_plain (by decide))
    hproductKey
  have hsecond := @opens_memberText (ascii "deviceKey") _ (stringBody_of_plain (by decide))
    hdeviceKey
  have hthird := @opens_memberText (ascii "sign") (keys.entry sha256 clientId timestamp).sign
    (stringBody_of_plain (by decide)) (stringBody_hex _)
  have hclosing : Opens (-(entryClosing keys).length) (entryClosing keys) := by
    rw [entryClosing]
    split
    · exact opens_closing .object
    · exact opens_of_plain (List.forall_mem_nil _)
  have hall := ((((((opens_opening .object).append hfirst).append hcomma).append hsecond).append
    hcomma).append hthird).append hclosing
  have hproductText : ascii "\x7b\"productKey\":\"" =
      123 :: 34 :: (ascii "productKey" ++ [34, 58, 34]) := by decide
  have hdeviceText : ascii "\", \"deviceKey\":\"" =
      34 :: 44 :: 32 :: 34 :: (ascii "deviceKey" ++ [34, 58, 34]) := by decide
  have hsignText : ascii "\", \"sign\":" = 34 :: 44 :: 32 :: 34 :: (ascii "sign" ++ [34, 58]) := by
    decide
  have hcount : (1 + 0 + 0 + 0 + 0 + 0 + -(entryClosing keys).length : Int) =
      1 - (entryClosing keys).length := by omega
  rw [hcount] at hall
  rw [writtenText, loginText, entryFront, hproductText, hdeviceText, hsignText]
  simpa [memberText, render_string, Nest.opening] using hall

/-- A list opens a bracket for each entry that is cut. -/
theorem opens_listText {entries : List DeviceKeys}
    (hbodies : ∀ keys ∈ entries, StringBody keys.productKey ∧ StringBody keys.deviceKey) :
    Opens (entries.map fun keys => 1 - ((entryClosing keys).length : Int)).sum
      (listText sha256 clientId timestamp entries) := by
  have hcomma : Opens 0 [44] := opens_of_plain (by simp)
  induction entries with
  | nil => exact opens_of_plain (List.forall_mem_nil _)
  | cons first rest ih =>
      obtain ⟨hfirst, hrest⟩ := List.forall_mem_cons.mp hbodies
      have hwritten := @opens_writtenText sha256 clientId timestamp first hfirst.1 hfirst.2
      rw [List.map_cons, List.sum_cons]
      cases rest with
      | nil => simpa [listText_singleton] using hwritten
      | cons next later =>
          have hall := (hwritten.append hcomma).append (ih hrest)
          rw [Int.add_zero] at hall
          simpa [listText_cons_cons] using hall

theorem opens_paramsText {entries : List DeviceKeys} (hclientId : StringBody clientId)
    (htimestamp : StringBody timestamp)
    (hbodies : ∀ keys ∈ entries, StringBody keys.productKey ∧ StringBody keys.deviceKey) :
    Opens (entries.map fun keys => 1 - ((entryClosing keys).length : Int)).sum
      (paramsText clientId timestamp (listText sha256 clientId timestamp entries)) := by
  have hcomma : Opens 0 [44, 32] := opens_of_plain (by simp)
  have hcolon : Opens 0 [58] := opens_of_plain (by simp)
  have hfirst := @opens_memberText (ascii "clientId") _ (stringBody_of_plain (by decide))
    hclientId
  have hsecond := @opens_memberText (ascii "signMethod") dmMsgSignMethodSha256.bytes
    (stringBody_of_plain (by decide)) (stringBody_of_plain (by decide))
  have hthird := @opens_memberText (ascii "timestamp") _ (stringBody_of_plain (by decide))
    htimestamp
  have hname := @opens_string (ascii "subDevices") (stringBody_of_plain (by decide))
  have hfront := (((((((opens_opening .object).append hfirst).append hcomma).append
    hsecond).append hcomma).append hthird).append hcomma).append hname
  have hlist := ((hcolon.append (opens_opening .array)).append
    (@opens_listText sha256 clientId timestamp _ hbodies)).append
      ((opens_closing .array).append (opens_closing .object))
  have hall := hfront.append hlist
  have hclientText : ascii "\x7b\"clientId\":\"" =
      123 :: 34 :: (ascii "clientId" ++ [34, 58, 34]) := by decide
  have hmethodText : ascii "\", \"signMethod\":\"" =
      34 :: 44 :: 32 :: 34 :: (ascii "signMethod" ++ [34, 58, 34]) := by decide
  have htimeText : ascii "\", \"timestamp\":\"" =
      34 :: 44 :: 32 :: 34 :: (ascii "timestamp" ++ [34, 58, 34]) := by decide
  have hlistText : ascii "\", \"subDevices\":[" =
      34 :: 44 :: 32 :: 34 :: (ascii "subDevices" ++ [34, 58, 91]) := by decide
  rw [paramsText, paramsFront, hclientText, hmethodText, htimeText, hlistText]
  simp only [Int.add_zero, Int.zero_add] at hall
  rw [show ∀ count : Int, 1 + (1 + count + (-1 + -1)) = count by intro count; omega] at hall
  simpa [memberText, render_string, Nest.opening, Nest.closing] using hall

/-- If the brackets balance, no entry is cut. -/
theorem room_of_opens {entries : List DeviceKeys} (hclientId : StringBody clientId)
    (htimestamp : StringBody timestamp)
    (hbodies : ∀ keys ∈ entries, StringBody keys.productKey ∧ StringBody keys.deviceKey)
    (hopens : Opens 0
      (paramsText clientId timestamp (listText sha256 clientId timestamp entries))) :
    ∀ keys ∈ entries, keys.productKey.length + keys.deviceKey.length ≤ 83 := by
  have hsum := (opens_paramsText hclientId htimestamp hbodies).unique hopens
  clear hbodies hopens
  have hnonneg : ∀ rest : List DeviceKeys,
      0 ≤ (rest.map fun keys => 1 - ((entryClosing keys).length : Int)).sum := by
    intro rest
    induction rest with
    | nil => exact Int.le_refl 0
    | cons keys rest ih =>
        have hclosing := length_entryClosing_le keys
        rw [List.map_cons, List.sum_cons]
        omega
  induction entries with
  | nil => exact List.forall_mem_nil _
  | cons keys rest ih =>
      have hclosing := length_entryClosing_le keys
      have hrest := hnonneg rest
      rw [List.map_cons, List.sum_cons] at hsum
      refine List.forall_mem_cons.mpr ⟨?_, ih (by omega)⟩
      by_contra hlong
      rw [entryClosing, if_neg hlong, List.length_nil] at hsum
      omega

end Signs

/-! ## Which requests are right -/

section Request

variable {sha256 : List UInt8 → Vector UInt8 32} {ctx : DmMgrCtx} {productKey deviceKey : CString}
  {devid : Int} {subDevids : List Listed} {uptime : Nat} {msgid : Int} {memory : BatchMemory}

/-- The time can stand between quotes. -/
theorem stringBody_timestampText (uptime : Nat) : StringBody (timestampText uptime) := by
  apply stringBody_of_plain
  rw [List.all_eq_true]
  intro byte hbyte
  have hprinted : byte ∈ intDecimal uptime := by
    have htext := List.mem_of_mem_take hbyte
    simpa [formatText, FormatPart.print] using htext
  rw [decide_eq_true_eq]
  rcases intDecimal_bytes uptime byte hprinted with rfl | hdigit
  · decide
  · constructor <;>
      (rintro rfl
       exact absurd hdigit (by decide))

/-- The keys that are in memory behind the loop over the list. -/
def storedOf (ctx : DmMgrCtx) (subDevids : List Listed) : List DeviceKeys :=
  subDevids.map fun listed => storedKeys (credentialOf listed.fresh (listedKeys ctx listed))

theorem listedKeys_of_known (hknown : Known ctx subDevids) {listed : Listed}
    (hlisted : listed ∈ subDevids) :
    ∃ node, listedKeys ctx listed = keysOf node ∧ (keysOf node).Within := by
  obtain ⟨node, hnode, hwithin⟩ := hknown listed hlisted
  exact ⟨node, by rw [listedKeys, hnode], hwithin⟩

/-- In cleared memory they are those of the devices. -/
theorem storedOf_eq (hknown : Known ctx subDevids)
    (hcleared : ∀ listed ∈ subDevids, Cleared listed.fresh (listedKeys ctx listed)) :
    storedOf ctx subDevids = subDevids.map (listedKeys ctx) := by
  apply List.map_congr_left
  intro listed hlisted
  obtain ⟨node, hkeys, hwithin⟩ := listedKeys_of_known hknown hlisted
  have hclear := hcleared listed hlisted
  rw [hkeys] at hclear ⊢
  exact (storedKeys_eq_iff hwithin).mpr hclear

/-- A known gateway sends the parameters of the credentials, if the loop accepts them, there is
memory and no length overflows. -/
theorem combineLoginBatch_eq_ok_iff (hdevid : 0 ≤ devid)
    (hgateway : (dmMgrSearchDevByDevid ctx devid).isSome)
    (hproductKey : productKey.strlen ≤ iotxProductKeyLen)
    (hdeviceKey : deviceKey.strlen ≤ iotxDeviceKeyLen) (hknown : Known ctx subDevids)
    (hsome : subDevids ≠ []) {params : List UInt8} :
    (∃ request, dmMgrUpstreamCombineLoginBatch sha256 ctx productKey deviceKey devid subDevids
        uptime msgid memory = .ok request ∧ request.params = params) ↔
      (∀ credential ∈ credentialsOf ctx subDevids, Accepted credential) ∧
        memory = ⟨true, true, true⟩ ∧ subDevids.length * 192 + 1 < 2 ^ 31 ∧
        80 + productKey.strlen + (timestampText uptime).length +
          (listText sha256 productKey.bytes (timestampText uptime)
            (storedOf ctx subDevids)).length < 2 ^ 31 ∧
        params = paramsText productKey.bytes (timestampText uptime)
          (listText sha256 productKey.bytes (timestampText uptime) (storedOf ctx subDevids)) := by
  obtain ⟨credentials, subDevices, paramsOk⟩ := memory
  have hvalid : ¬(devid < 0 ∨ (dmMgrSearchDevByDevid ctx devid).isNone) := by
    rw [not_or, Int.not_lt, Option.isNone_iff_eq_none, ← ne_eq, Option.ne_none_iff_isSome]
    exact ⟨hdevid, hgateway⟩
  rw [dmMgrUpstreamCombineLoginBatch]
  dsimp only
  rw [if_neg hvalid]
  cases credentials with
  | false =>
      rw [copyCredentials_stray hknown hsome]
      constructor
      · rintro ⟨request, hrequest, -⟩
        cases hrequest
      · rintro ⟨-, hmemory, -⟩
        cases hmemory
  | true =>
      have hcredentials : credentialsOf ctx subDevids ≠ [] := by
        rwa [credentialsOf, ne_eq, List.map_eq_nil_iff]
      have hstored : (credentialsOf ctx subDevids).map (fun credential =>
          storedKeys credential.1) = storedOf ctx subDevids := by
        rw [credentialsOf, List.map_map]
        rfl
      have hlength : (credentialsOf ctx subDevids).length = subDevids.length := by
        rw [credentialsOf, List.length_map]
      have hparams := fun params => @dmMsgCombineLoginBatch_eq_ok_iff sha256 productKey deviceKey
        (credentialsOf ctx subDevids) uptime ⟨true, subDevices, paramsOk⟩ params hproductKey
        hdeviceKey hcredentials _ rfl
      rw [hstored, hlength] at hparams
      rw [copyCredentials_known hknown, Outcome.ok_bind]
      constructor
      · rintro ⟨request, hrequest, rfl⟩
        obtain ⟨built, hbuilt, hsent⟩ := Outcome.bind_eq_ok_iff.mp hrequest
        obtain ⟨haccepted, ⟨hsub, hmemory⟩, hlist, hshort, rfl⟩ := (hparams built).mp hbuilt
        dsimp only at hsub hmemory
        refine ⟨haccepted, by rw [hsub, hmemory], hlist, hshort, ?_⟩
        rw [← Outcome.ok.inj hsent]
      · rintro ⟨haccepted, hmemory, hlist, hshort, rfl⟩
        injection hmemory with _ hsub hmemory
        have hbuilt := (hparams _).mpr ⟨haccepted, ⟨hsub, hmemory⟩, hlist, hshort, rfl⟩
        rw [hbuilt, Outcome.ok_bind]
        exact ⟨_, rfl, rfl⟩

/-- A request that is right for every way to sign has what it needs. -/
theorem loginFits_of_buildsBatch (hdevid : 0 ≤ devid)
    (hgateway : (dmMgrSearchDevByDevid ctx devid).isSome)
    (hproductKey : productKey.strlen ≤ iotxProductKeyLen)
    (hdeviceKey : deviceKey.strlen ≤ iotxDeviceKeyLen) (hsome : subDevids ≠ [])
    (hknown : Known ctx subDevids)
    (hbuilds : BuildsBatch ctx productKey deviceKey devid subDevids uptime msgid memory) :
    LoginFits ctx productKey subDevids uptime memory := by
  have hsent := fun sha256 => @combineLoginBatch_eq_ok_iff sha256 ctx productKey deviceKey devid
    subDevids uptime msgid memory hdevid hgateway hproductKey hdeviceKey hknown hsome
  obtain ⟨request, hrequest, -⟩ := hbuilds fun _ => digestOf 0
  obtain ⟨haccepted, hmemory, hlist, hshort, -⟩ := (hsent _).mp ⟨request, hrequest, rfl⟩
  have hentries : ∀ sha256 : List UInt8 → Vector UInt8 32,
      (subDevids.map fun listed => (listedKeys ctx listed).entry sha256 productKey.bytes
        (timestampText uptime)) = (subDevids.map (listedKeys ctx)).map fun keys =>
          keys.entry sha256 productKey.bytes (timestampText uptime) := by
    intro sha256
    rw [List.map_map]
    rfl
  have hlogs : ∀ sha256 : List UInt8 → Vector UInt8 32,
      LogsIn (paramsText productKey.bytes (timestampText uptime) (listText sha256 productKey.bytes
        (timestampText uptime) (storedOf ctx subDevids))) productKey.bytes (timestampText uptime)
          ((subDevids.map (listedKeys ctx)).map fun keys =>
            keys.entry sha256 productKey.bytes (timestampText uptime)) := by
    intro sha256
    obtain ⟨request, hrequest, hlogs⟩ := hbuilds sha256
    obtain ⟨-, -, -, -, hparams⟩ := (hsent sha256).mp ⟨request, hrequest, rfl⟩
    rwa [hparams, hentries] at hlogs
  -- The sources that were signed are those of the devices.
  have hlengths : (subDevids.map (listedKeys ctx)).length = (storedOf ctx subDevids).length := by
    rw [storedOf, List.length_map, List.length_map]
  have hparamsLength := length_paramsText productKey.bytes (timestampText uptime)
    (listText (fun _ => digestOf 0) productKey.bytes (timestampText uptime)
      (storedOf ctx subDevids))
  rw [← CString.strlen] at hparamsLength
  have hsources := @signSource_eq (fun _ => digestOf 0) _ _ _ _ hlengths (by omega) hlogs
  have hcleared : ∀ listed ∈ subDevids, Cleared listed.fresh (listedKeys ctx listed) := by
    rw [storedOf, List.map_map, List.map_map] at hsources
    intro listed hlisted
    have hsource := List.map_inj_left.mp hsources listed hlisted
    obtain ⟨node, hkeys, hwithin⟩ := listedKeys_of_known hknown hlisted
    dsimp only [Function.comp_apply] at hsource
    rw [hkeys] at hsource ⊢
    exact cleared_of_signSource hwithin hsource
  have hstored := storedOf_eq hknown hcleared
  rw [hstored] at hlogs hshort
  obtain ⟨-, hopens, hclientId, hbodies⟩ := (hlogs fun _ => digestOf 0).facts
  rw [List.forall_mem_map] at hbodies
  have hroom := room_of_opens hclientId (stringBody_timestampText uptime) hbodies hopens
  have hlength := @length_listText_of_room (fun _ => digestOf 0) productKey.bytes
    (timestampText uptime) _ hroom (by rwa [ne_eq, List.map_eq_nil_iff])
  rw [List.map_map, Function.comp_def] at hlength
  exact
    { enough := hmemory
      clientId := hclientId
      entries := fun listed hlisted =>
        { signOk := (haccepted _ (List.mem_map_of_mem hlisted)).2
          cleared := hcleared listed hlisted
          productKey := (hbodies _ (List.mem_map_of_mem hlisted)).1
          deviceKey := (hbodies _ (List.mem_map_of_mem hlisted)).2
          room := hroom _ (List.mem_map_of_mem hlisted) }
      list := hlist
      params := by omega }

/-- For known devices with keys within their limits, the request of a batch login is right just if
there is memory, which has a NUL behind each string, and all entries fit. -/
theorem buildsBatch_iff (hdevid : 0 ≤ devid) (hgateway : (dmMgrSearchDevByDevid ctx devid).isSome)
    (hproductKey : productKey.strlen ≤ iotxProductKeyLen)
    (hdeviceKey : deviceKey.strlen ≤ iotxDeviceKeyLen) (hsome : subDevids ≠ [])
    (hknown : Known ctx subDevids) :
    BuildsBatch ctx productKey deviceKey devid subDevids uptime msgid memory ↔
      LoginFits ctx productKey subDevids uptime memory := by
  refine ⟨loginFits_of_buildsBatch hdevid hgateway hproductKey hdeviceKey hsome hknown, ?_⟩
  intro hfits sha256
  have hstored := storedOf_eq hknown fun listed hlisted => (hfits.entries listed hlisted).cleared
  have hroom : ∀ keys ∈ subDevids.map (listedKeys ctx),
      keys.productKey.length + keys.deviceKey.length ≤ 83 :=
    List.forall_mem_map.mpr fun listed hlisted => (hfits.entries listed hlisted).room
  have haccepted : ∀ credential ∈ credentialsOf ctx subDevids, Accepted credential := by
    refine List.forall_mem_map.mpr fun listed hlisted =>
      ⟨?_, (hfits.entries listed hlisted).signOk⟩
    obtain ⟨node, hkeys, hwithin⟩ := listedKeys_of_known hknown hlisted
    have hclear := (hfits.entries listed hlisted).cleared
    rw [hkeys] at hclear
    rw [hkeys, (storedKeys_eq_iff hwithin).mpr hclear]
    exact hwithin
  have hlength := @length_listText_of_room sha256 productKey.bytes (timestampText uptime) _ hroom
    (by rwa [ne_eq, List.map_eq_nil_iff])
  rw [List.map_map, Function.comp_def] at hlength
  have hparams := hfits.params
  have hshort : 80 + productKey.strlen + (timestampText uptime).length +
      (listText sha256 productKey.bytes (timestampText uptime)
        (storedOf ctx subDevids)).length < 2 ^ 31 := by
    rw [hstored]
    omega
  obtain ⟨request, hrequest, hparams⟩ := (@combineLoginBatch_eq_ok_iff sha256 ctx productKey
    deviceKey devid subDevids uptime msgid memory hdevid hgateway hproductKey hdeviceKey hknown
    hsome _).mpr ⟨haccepted, hfits.enough, hfits.list, hshort, rfl⟩
  refine ⟨request, hrequest, ?_⟩
  have hlogs := @logsIn_paramsText sha256 productKey.bytes (timestampText uptime) _ hfits.clientId
    (stringBody_timestampText uptime) (List.forall_mem_map.mpr fun listed hlisted =>
      ⟨(hfits.entries listed hlisted).productKey, (hfits.entries listed hlisted).deviceKey,
        (hfits.entries listed hlisted).room⟩)
  rw [List.map_map] at hlogs
  rw [hparams, hstored]
  exact hlogs

end Request

/-- A device with one letter for each key. -/
def lettersDevice (devid : Int) (letter : UInt8) : DmMgrDevNode where
  devid := devid
  devType := 2
  productKey := padded 21 [112]
  productSecret := List.replicate 65 0
  deviceKey := padded 65 [letter]
  deviceSecret := padded 65 [115]
  status := .enable
  devStatus := .attached

/-- Two such devices. -/
def lettersCtx : DmMgrCtx := ⟨3, [lettersDevice 1 100, lettersDevice 2 101]⟩

/-- A place of the list for one of them, in memory that is full of one byte. -/
def lettersListed (fill : UInt8) (devid : Int) : Listed where
  devid := devid
  fresh :=
    { productKey := List.replicate 21 fill
      deviceKey := List.replicate 65 fill
      deviceSecret := List.replicate 65 fill
      productKey_length := List.length_replicate
      deviceKey_length := List.length_replicate
      deviceSecret_length := List.length_replicate }
  signOk := true

/-- Over cleared memory the request for the two devices, the second one first, is right. Over other
memory it is not. -/
theorem buildsBatch_letters :
    BuildsBatch lettersCtx (.ofArray [112]) (.ofArray [100]) 1
        [lettersListed 0 2, lettersListed 0 1] 7 5 ⟨true, true, true⟩ ∧
      ¬BuildsBatch lettersCtx (.ofArray [112]) (.ofArray [100]) 1
        [lettersListed 97 2, lettersListed 97 1] 7 5 ⟨true, true, true⟩ := by
  have hknown : ∀ fill, Known lettersCtx [lettersListed fill 2, lettersListed fill 1] := fun fill =>
    List.forall_mem_cons.mpr ⟨⟨lettersDevice 2 101, rfl, by decide, by decide, by decide⟩,
      List.forall_mem_singleton.mpr ⟨lettersDevice 1 100, rfl, by decide, by decide, by decide⟩⟩
  constructor
  · refine (buildsBatch_iff (by decide) (by decide) (by decide) (by decide) (List.cons_ne_nil _ _)
      (hknown 0)).mpr ?_
    exact
      { enough := rfl
        clientId := stringBody_of_plain (by decide)
        entries := List.forall_mem_cons.mpr
          ⟨{ signOk := rfl
             cleared := ⟨by decide, by decide, by decide⟩
             productKey := stringBody_of_plain (by decide)
             deviceKey := stringBody_of_plain (by decide)
             room := by decide },
            List.forall_mem_singleton.mpr
              { signOk := rfl
                cleared := ⟨by decide, by decide, by decide⟩
                productKey := stringBody_of_plain (by decide)
                deviceKey := stringBody_of_plain (by decide)
                room := by decide }⟩
        list := by decide
        params := by decide }
  · intro hbuilds
    have hfits := (buildsBatch_iff (by decide) (by decide) (by decide) (by decide)
      (List.cons_ne_nil _ _) (hknown 97)).mp hbuilds
    have hcleared := (hfits.entries _ List.mem_cons_self).cleared.productKey
    revert hcleared
    decide

end EnosDeviceSdk.DevModel.BatchLogin
