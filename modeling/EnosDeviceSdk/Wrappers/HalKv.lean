/-
# The key-value store of the Linux wrapper

`HAL_KV_linux.c` keeps its items in a file of 384 rows with two slots each. A key hashes to
a row, and every operation reads the row, scans its slots up to the first free one and
writes the row back. A key is stored in an array of 128 characters, so it is cut after 127,
but it is compared in full.

The store is meant to be a map from keys to values. Its rows are those of the library; the
section on runs says when it is that map.
-/

import EnosDeviceSdk.Infra.Memory
import EnosDeviceSdk.Library.Decimal
import EnosDeviceSdk.Library.ProbeRow
import EnosDeviceSdk.Library.Run

namespace EnosDeviceSdk.Wrappers.HalKv

open EnosDeviceSdk.Infra EnosDeviceSdk.Library

/-! ## The file -/

/-- `TABLE_COL_SIZE`, the number of rows -/
def tableColSize : Nat := 384

/-- `TABLE_ROW_SIZE`, the number of slots in a row -/
def tableRowSize : Nat := 2

/-- `ITEM_MAX_KEY_LEN` -/
def itemMaxKeyLen : Nat := 128

/-- `ITEM_MAX_VAL_LEN` -/
def itemMaxValLen : Nat := 512

/-- `kv_item_t`. Its last key character is a NUL that nothing overwrites. A slot is free
where `value_len` is 0. -/
structure KvItem where
  key : List UInt8
  value : List UInt8
  valueLen : Nat
  key_terminated : key.drop (itemMaxKeyLen - 1) = [0]
  deriving DecidableEq

/-- An item of zeros. -/
def KvItem.zero : KvItem where
  key := List.replicate itemMaxKeyLen 0
  value := List.replicate itemMaxValLen 0
  valueLen := 0
  key_terminated := by decide

/-- The file, as the items at each location. -/
abbrev KvFile := Nat → List KvItem

/-- `create_hash_file` -/
def createHashFile : KvFile := fun _ => List.replicate tableRowSize .zero

/-- `write_kv_item` -/
def writeKvItem (file : KvFile) (data : List KvItem) (location : Nat) : KvFile :=
  fun other => if other = location then data else file other

/-- `hash_gen`. Characters are signed on this platform. -/
def hashGen (key : List UInt8) : Nat :=
  (key.foldl (fun (hash : UInt32) (byte : UInt8) =>
    (hash <<< 5) + hash + byte.toInt8.toInt32.toUInt32) 0).toNat % tableColSize

/-! ## The operations -/

/-- The characters that `strncpy` writes: the start of the string, filled up with zeros. -/
def strncpyBytes (string : CString) (count : Nat) : List UInt8 :=
  padded count (string.bytes.take count)

theorem length_strncpyBytes (string : CString) (count : Nat) :
    (strncpyBytes string count).length = count := by
  rw [strncpyBytes, padded, List.length_append, List.length_replicate, List.length_take]
  omega

/-- A slot after `hash_table_put` has put a value there under the same key. -/
def KvItem.update (p : KvItem) (value : List UInt8) : KvItem :=
  { p with value := padded itemMaxValLen value, valueLen := value.length }

/-- A free slot after `hash_table_put` has added a key there. -/
def KvItem.add (p : KvItem) (key : CString) (value : List UInt8) : KvItem where
  key := strncpyBytes key (itemMaxKeyLen - 1) ++ p.key.drop (itemMaxKeyLen - 1)
  value := value ++ p.value.drop value.length
  valueLen := value.length
  key_terminated := by
    rw [List.drop_left' (length_strncpyBytes key (itemMaxKeyLen - 1)), p.key_terminated]

/-- The scan of `hash_table_put` and what it writes; `none` where the row is full. -/
def putRow (key : CString) (value : List UInt8) : List KvItem → Option (List KvItem)
  | [] => none
  | p :: rest =>
      if p.valueLen = 0 then some (p.add key value :: rest)
      else if arrayText p.key = key.bytes then some (p.update value :: rest)
      else (putRow key value rest).map (p :: ·)

/-- `hash_table_put`. The row may be read and written; its buffer may lack memory. -/
def hashTablePut (file : KvFile) (key : CString) (value : List UInt8) (mallocOk : Bool) :
    Int × KvFile :=
  if value = [] then (-1, file)
  else if !mallocOk then (-1, file)
  else
    let i := hashGen key.bytes
    match putRow key (value.take itemMaxValLen) (file i) with
    | none => (-1, file)
    | some kv => (0, writeKvItem file kv i)

/-- The scan of `hash_table_get`. -/
def getRow (key : CString) : List KvItem → Option KvItem
  | [] => none
  | p :: rest =>
      if p.valueLen = 0 then none
      else if key.bytes = arrayText p.key then some p
      else getRow key rest

/-- `hash_table_get` with a buffer of the given length: the bytes that it copies, or a
failure. -/
def hashTableGet (file : KvFile) (key : CString) (len : Nat) (mallocOk : Bool) :
    Option (List UInt8) :=
  if len = 0 then none
  else if !mallocOk then none
  else
    (getRow key (file (hashGen key.bytes))).map fun p =>
      p.value.take (if p.valueLen < len then p.valueLen else len)

/-- The scan of `hash_table_rm`, which goes on behind a slot that it has freed. -/
def rmRow (key : CString) : List KvItem → List KvItem
  | [] => []
  | p :: rest =>
      if p.valueLen = 0 then p :: rest
      else (if key.bytes = arrayText p.key then .zero else p) :: rmRow key rest

/-- `hash_table_rm` -/
def hashTableRm (file : KvFile) (key : CString) (mallocOk : Bool) : Int × KvFile :=
  if !mallocOk then (-1, file)
  else
    let i := hashGen key.bytes % tableColSize
    (0, writeKvItem file (rmRow key (file i)) i)

/-- `HAL_Kv_Set` -/
def halKvSet (file : KvFile) (key : CString) (value : List UInt8) (mallocOk : Bool) :
    Int × KvFile := hashTablePut file key value mallocOk

/-- `HAL_Kv_Get` -/
def halKvGet (file : KvFile) (key : CString) (bufferLen : Nat) (mallocOk : Bool) :
    Option (List UInt8) := hashTableGet file key bufferLen mallocOk

/-- `HAL_Kv_Del` -/
def halKvDel (file : KvFile) (key : CString) (mallocOk : Bool) : Int × KvFile :=
  hashTableRm file key mallocOk

/-! ## The rows behind the items -/

/-- What a slot holds: nothing, or a value under a name. -/
def KvItem.entry (p : KvItem) : Option (List UInt8 × List UInt8) :=
  if p.valueLen = 0 then none else some (arrayText p.key, p.value.take p.valueLen)

/-- The row that the items of a location stand for. -/
def rowAt (file : KvFile) (location : Nat) : List (Option (List UInt8 × List UInt8)) :=
  (file location).map KvItem.entry

theorem KvItem.entry_zero : KvItem.zero.entry = none := rfl

theorem KvItem.entry_update (p : KvItem) {value : List UInt8} (hvalue : value ≠ []) :
    (p.update value).entry = some (arrayText p.key, value) := by
  have hlength : value.length ≠ 0 := by simpa using hvalue
  rw [KvItem.entry, KvItem.update, if_neg hlength, padded, List.take_left]

/-- The name that a key is stored under. -/
def storedName (key : CString) : List UInt8 := key.bytes.take (itemMaxKeyLen - 1)

/-- Behind the copied characters the array goes on with zeros. -/
theorem KvItem.arrayText_add (p : KvItem) (key : CString) (value : List UInt8) :
    arrayText (p.add key value).key = storedName key := by
  have hnoNul : 0 ∉ storedName key := fun hmem => key.noNul (List.mem_of_mem_take hmem)
  have hshort : (storedName key).length ≤ itemMaxKeyLen - 1 := by
    rw [storedName, List.length_take]
    omega
  have hzeros : itemMaxKeyLen - (storedName key).length =
      itemMaxKeyLen - 1 - (storedName key).length + 1 := by
    have hpositive : itemMaxKeyLen = itemMaxKeyLen - 1 + 1 := rfl
    omega
  have hkey : (p.add key value).key = padded itemMaxKeyLen (storedName key) := by
    change strncpyBytes key (itemMaxKeyLen - 1) ++ p.key.drop (itemMaxKeyLen - 1) = _
    rw [p.key_terminated, strncpyBytes, ← storedName, padded, padded, hzeros,
      List.replicate_succ', List.append_assoc]
  rw [hkey, arrayText_padded hnoNul]

theorem KvItem.entry_add (p : KvItem) (key : CString) {value : List UInt8} (hvalue : value ≠ []) :
    (p.add key value).entry = some (storedName key, value) := by
  have hlength : value.length ≠ 0 := by simpa using hvalue
  rw [KvItem.entry, p.arrayText_add key value, KvItem.add, if_neg hlength, List.take_left]

/-- A stored name has at most 127 characters. -/
theorem KvItem.length_name (p : KvItem) : (arrayText p.key).length < itemMaxKeyLen := by
  have hlast := congrArg List.length p.key_terminated
  rw [List.length_drop, List.length_singleton] at hlast
  have hprefix : arrayText p.key <+: p.key := List.takeWhile_prefix _
  by_contra hlong
  have hpositive : itemMaxKeyLen = itemMaxKeyLen - 1 + 1 := rfl
  have hwhole : arrayText p.key = p.key := hprefix.eq_of_length_le (by omega)
  have hzero : 0 ∈ p.key := by
    apply List.mem_of_mem_drop
    rw [p.key_terminated]
    exact List.mem_singleton_self 0
  rw [← hwhole] at hzero
  exact zero_not_mem_arrayText p.key hzero

theorem map_entry_putRow (key : CString) {value : List UInt8} (hvalue : value ≠ [])
    (row : List KvItem) :
    (putRow key value row).map (·.map KvItem.entry) =
      ProbeRow.insert key.bytes (storedName key) value (row.map KvItem.entry) := by
  induction row with
  | nil => rfl
  | cons p rest ih =>
      rw [putRow, List.map_cons]
      by_cases hfree : p.valueLen = 0
      · have hentry : p.entry = none := if_pos hfree
        rw [if_pos hfree, hentry, ProbeRow.insert, Option.map_some, List.map_cons,
          p.entry_add key hvalue]
      · have hentry : p.entry = some (arrayText p.key, p.value.take p.valueLen) := if_neg hfree
        rw [if_neg hfree, hentry, ProbeRow.insert]
        by_cases hsame : arrayText p.key = key.bytes
        · rw [if_pos hsame, if_pos hsame, Option.map_some, List.map_cons, p.entry_update hvalue]
        · rw [if_neg hsame, if_neg hsame, ← ih, Option.map_map, Option.map_map, ← hentry]
          rfl

theorem getRow_eq_lookup (key : CString) (row : List KvItem) :
    (getRow key row).map (fun p => p.value.take p.valueLen) =
      ProbeRow.lookup key.bytes (row.map KvItem.entry) := by
  induction row with
  | nil => rfl
  | cons p rest ih =>
      rw [getRow, List.map_cons]
      by_cases hfree : p.valueLen = 0
      · have hentry : p.entry = none := if_pos hfree
        rw [if_pos hfree, hentry]
        rfl
      · have hentry : p.entry = some (arrayText p.key, p.value.take p.valueLen) := if_neg hfree
        rw [if_neg hfree, hentry, ProbeRow.lookup]
        by_cases hsame : key.bytes = arrayText p.key
        · rw [if_pos hsame, if_pos hsame.symm, Option.map_some]
        · rw [if_neg hsame, if_neg (Ne.symm hsame), ih]

theorem map_entry_rmRow (key : CString) (row : List KvItem) :
    (rmRow key row).map KvItem.entry =
      ProbeRow.remove key.bytes (row.map KvItem.entry) := by
  induction row with
  | nil => rfl
  | cons p rest ih =>
      rw [rmRow, List.map_cons]
      by_cases hfree : p.valueLen = 0
      · have hentry : p.entry = none := if_pos hfree
        rw [if_pos hfree, List.map_cons, hentry]
        rfl
      · have hentry : p.entry = some (arrayText p.key, p.value.take p.valueLen) := if_neg hfree
        rw [if_neg hfree, List.map_cons, ih, hentry, ProbeRow.remove]
        by_cases hsame : key.bytes = arrayText p.key
        · rw [if_pos hsame, if_pos hsame.symm, KvItem.entry_zero]
        · rw [if_neg hsame, if_neg (Ne.symm hsame), hentry]

theorem entry_eq_some {p : KvItem} {name value : List UInt8}
    (hentry : p.entry = some (name, value)) : name = arrayText p.key := by
  rw [KvItem.entry] at hentry
  split at hentry
  · cases hentry
  · exact (Prod.mk.inj (Option.some.inj hentry)).1.symm

/-- A name in a row is a C string. -/
theorem zero_not_mem_name {row : List KvItem} {name value : List UInt8}
    (hmem : some (name, value) ∈ row.map KvItem.entry) : 0 ∉ name := by
  obtain ⟨p, _, hentry⟩ := List.mem_map.mp hmem
  rw [entry_eq_some hentry]
  exact zero_not_mem_arrayText p.key

/-- No row has a key of 128 characters or more. -/
theorem lookup_of_long {key : List UInt8} (hlong : itemMaxKeyLen ≤ key.length)
    (row : List KvItem) : ProbeRow.lookup key (row.map KvItem.entry) = none := by
  induction row with
  | nil => rfl
  | cons p rest ih =>
      rw [List.map_cons]
      cases hentry : p.entry with
      | none => rfl
      | some slot =>
          obtain ⟨name, value⟩ := slot
          have hname := p.length_name
          rw [← entry_eq_some hentry] at hname
          have hne : name ≠ key := by
            rintro rfl
            omega
          rw [ProbeRow.lookup, if_neg hne]
          exact ih

/-! ## The map that the store is meant to be -/

/-- A value that may be stored: 1 to 512 bytes. -/
structure KvValue where
  bytes : List UInt8
  nonempty : bytes ≠ []
  fits : bytes.length ≤ itemMaxValLen

/-- A map from keys to values. -/
abbrev KvMap := CString → Option (List UInt8)

/-- The file, and the map that the successful calls so far make up. -/
structure Store where
  file : KvFile
  map : KvMap

/-- A new store. -/
def Store.initial : Store := ⟨createHashFile, fun _ => none⟩

/-- A call. -/
inductive KvCall
  | set (key : CString) (value : KvValue) (mallocOk : Bool)
  | get (key : CString) (bufferLen : Nat) (mallocOk : Bool)
  | del (key : CString) (mallocOk : Bool)

/-- The map with another value, or none, for a key. -/
def KvMap.put (map : KvMap) (key : CString) (value : Option (List UInt8)) : KvMap :=
  fun other => if other = key then value else map other

/-- The store after a call. A call that fails is none of the map's. -/
def step (s : Store) : KvCall → Store
  | .set key value mallocOk =>
      let (rc, file) := halKvSet s.file key value.bytes mallocOk
      ⟨file, if rc = 0 then s.map.put key (some value.bytes) else s.map⟩
  | .get _ _ _ => s
  | .del key mallocOk =>
      let (rc, file) := halKvDel s.file key mallocOk
      ⟨file, if rc = 0 then s.map.put key none else s.map⟩

/-- `HAL_Kv_Get` answers as the map does: with the value, cut to the caller's buffer, or
with a failure. -/
def Refines (s : Store) : Prop :=
  ∀ key bufferLen, 0 < bufferLen →
    halKvGet s.file key bufferLen true = (s.map key).map (·.take bufferLen)

/-- A key is set only if it has at most 127 characters, unless its row is full, and deleted
only if its slot is the last one of its row that is taken. -/
def KeepsMap (s : Store) : KvCall → Prop
  | .set key _ mallocOk =>
      mallocOk = true → key.strlen < itemMaxKeyLen ∨
        ∀ item ∈ s.file (hashGen key.bytes), item.valueLen ≠ 0
  | .get _ _ _ => True
  | .del key mallocOk =>
      mallocOk = true → ProbeRow.LastOfRow key.bytes (rowAt s.file (hashGen key.bytes))

/-- The invariant of runs that meet the condition: the rows are compact, a name lies in the
row of its hash, and the map is what the scans find. -/
structure Tidy (s : Store) : Prop where
  compact : ∀ location, ProbeRow.Compact (rowAt s.file location)
  placed : ∀ location name value, some (name, value) ∈ rowAt s.file location →
    hashGen name = location
  agrees : ∀ key, s.map key = ProbeRow.lookup key.bytes (rowAt s.file (hashGen key.bytes))

/-- What `HAL_Kv_Get` answers, in terms of the row. -/
theorem halKvGet_eq (file : KvFile) (key : CString) {bufferLen : Nat} (hbuffer : 0 < bufferLen) :
    halKvGet file key bufferLen true =
      (ProbeRow.lookup key.bytes (rowAt file (hashGen key.bytes))).map (·.take bufferLen) := by
  rw [halKvGet, hashTableGet, if_neg (Nat.pos_iff_ne_zero.mp hbuffer), if_neg (by simp), rowAt,
    ← getRow_eq_lookup, Option.map_map]
  congr 1
  funext p
  rw [Function.comp, List.take_take]
  congr 1
  split <;> omega

theorem Tidy.refines {s : Store} (hs : Tidy s) : Refines s := by
  intro key bufferLen hbuffer
  rw [halKvGet_eq s.file key hbuffer, hs.agrees key]

/-- A store refines the map only if every scan finds what the map has. -/
theorem Refines.lookup_isSome {s : Store} (hs : Refines s) (key : CString) :
    (ProbeRow.lookup key.bytes (rowAt s.file (hashGen key.bytes))).isSome =
      (s.map key).isSome := by
  have hanswer := congrArg Option.isSome (hs key 1 Nat.one_pos)
  rwa [halKvGet_eq s.file key Nat.one_pos, Option.isSome_map, Option.isSome_map] at hanswer

/-! ## One call -/

theorem rowAt_writeKvItem (file : KvFile) (data : List KvItem) (location other : Nat) :
    rowAt (writeKvItem file data location) other =
      if other = location then data.map KvItem.entry else rowAt file other := by
  rw [rowAt, writeKvItem]
  by_cases hother : other = location
  · rw [if_pos hother, if_pos hother]
  · rw [if_neg hother, if_neg hother, rowAt]

theorem hashGen_mod (key : List UInt8) : hashGen key % tableColSize = hashGen key :=
  Nat.mod_mod _ _

theorem storedName_of_short {key : CString} (hshort : key.strlen < itemMaxKeyLen) :
    storedName key = key.bytes := by
  apply List.take_of_length_le
  rw [← CString.strlen]
  omega

theorem storedName_ne_of_long {key : CString} (hlong : ¬ key.strlen < itemMaxKeyLen) :
    storedName key ≠ key.bytes := by
  intro hsame
  have hlength := congrArg List.length hsame
  have hpositive : itemMaxKeyLen = itemMaxKeyLen - 1 + 1 := rfl
  rw [storedName, List.length_take, ← CString.strlen] at hlength
  omega

/-- `HAL_Kv_Set` puts the whole value into the row of the key, or fails where that is full. -/
theorem halKvSet_eq (file : KvFile) (key : CString) (value : KvValue) :
    halKvSet file key value.bytes true =
      match putRow key value.bytes (file (hashGen key.bytes)) with
      | none => (-1, file)
      | some kv => (0, writeKvItem file kv (hashGen key.bytes)) := by
  rw [halKvSet, hashTablePut, if_neg value.nonempty, if_neg (by simp),
    List.take_of_length_le value.fits]

/-- What a scan finds under a key after another row replaced the one at the location. -/
theorem lookup_writeKvItem {file : KvFile} {data : List KvItem} {key : CString}
    {row : List (Option (List UInt8 × List UInt8))} (hrow : data.map KvItem.entry = row)
    (other : CString) :
    ProbeRow.lookup other.bytes
        (rowAt (writeKvItem file data (hashGen key.bytes)) (hashGen other.bytes)) =
      if hashGen other.bytes = hashGen key.bytes then ProbeRow.lookup other.bytes row
      else ProbeRow.lookup other.bytes (rowAt file (hashGen other.bytes)) := by
  rw [rowAt_writeKvItem, hrow]
  by_cases hsame : hashGen other.bytes = hashGen key.bytes
  · rw [if_pos hsame, if_pos hsame]
  · rw [if_neg hsame, if_neg hsame]

/-- The invariant survives a row that differs from the one before in one key only. -/
theorem Tidy.write {s : Store} (hs : Tidy s) {key : CString} {value : Option (List UInt8)}
    {data : List KvItem} {row : List (Option (List UInt8 × List UInt8))}
    (hrow : data.map KvItem.entry = row) (hcompact : ProbeRow.Compact row)
    (hplaced : ∀ name held, some (name, held) ∈ row → name = key.bytes ∨
      ∃ before, some (name, before) ∈ rowAt s.file (hashGen key.bytes))
    (hlookup : ∀ other, ProbeRow.lookup other row = if other = key.bytes then value
      else ProbeRow.lookup other (rowAt s.file (hashGen key.bytes))) :
    Tidy ⟨writeKvItem s.file data (hashGen key.bytes), s.map.put key value⟩ := by
  constructor
  · intro location
    rw [rowAt_writeKvItem, hrow]
    split
    · exact hcompact
    · exact hs.compact location
  · intro location name held hmem
    rw [rowAt_writeKvItem, hrow] at hmem
    split at hmem
    · next hlocation =>
        rw [hlocation]
        rcases hplaced name held hmem with rfl | ⟨before, hbefore⟩
        · rfl
        · exact hs.placed _ name before hbefore
    · exact hs.placed location name held hmem
  · intro other
    change s.map.put key value other = _
    rw [lookup_writeKvItem hrow, KvMap.put, hs.agrees other]
    by_cases hother : other = key
    · rw [if_pos hother, hother, if_pos rfl, hlookup, if_pos rfl]
    · have hbytes : other.bytes ≠ key.bytes := fun hsame => hother (CString.ext hsame)
      rw [if_neg hother, hlookup, if_neg hbytes]
      split
      · next hsame => rw [hsame]
      · rfl

theorem Tidy.set {s : Store} (hs : Tidy s) {key : CString} {value : KvValue} {mallocOk : Bool}
    (hcall : KeepsMap s (.set key value mallocOk)) : Tidy (step s (.set key value mallocOk)) := by
  cases mallocOk with
  | false =>
      rw [step, halKvSet, hashTablePut, if_neg value.nonempty]
      exact hs
  | true =>
      rw [step, halKvSet_eq]
      have hput := map_entry_putRow key value.nonempty (s.file (hashGen key.bytes))
      cases hrow : putRow key value.bytes (s.file (hashGen key.bytes)) with
      | none => exact hs
      | some kv =>
          rw [hrow, Option.map_some] at hput
          by_cases hshort : key.strlen < itemMaxKeyLen
          · rw [storedName_of_short hshort] at hput
            apply hs.write rfl
            · exact (hs.compact _).insert hput.symm
            · intro name held hmem
              exact ProbeRow.mem_insert hput.symm hmem
            · exact ProbeRow.lookup_insert (hs.compact _) hput.symm
          · -- The row is full, and it does not hold the key.
            have hfull := (hcall rfl).resolve_left hshort
            have hslots : ∀ slot ∈ (s.file (hashGen key.bytes)).map KvItem.entry,
                slot ≠ none := by
              intro slot hslot
              obtain ⟨item, hitem, rfl⟩ := List.mem_map.mp hslot
              rw [KvItem.entry, if_neg (hfull item hitem)]
              exact Option.some_ne_none _
            rw [ProbeRow.insert_eq_none_of_full hslots
              (lookup_of_long (Nat.le_of_not_lt hshort) _)] at hput
            cases hput

theorem Tidy.del {s : Store} (hs : Tidy s) {key : CString} {mallocOk : Bool}
    (hcall : KeepsMap s (.del key mallocOk)) : Tidy (step s (.del key mallocOk)) := by
  cases mallocOk with
  | false => exact hs
  | true =>
      rw [step, halKvDel, hashTableRm, if_neg (by simp), hashGen_mod]
      apply hs.write (map_entry_rmRow key _)
      · exact (hs.compact _).remove (hcall rfl)
      · intro name held hmem
        exact Or.inr ⟨held, ProbeRow.mem_of_mem_remove hmem⟩
      · exact ProbeRow.lookup_remove (hs.compact _) (hcall rfl)

/-- A call that meets the condition keeps the invariant. -/
theorem Tidy.kept {s : Store} {call : KvCall} (hs : Tidy s) (hcall : KeepsMap s call) :
    Tidy (step s call) := by
  cases call with
  | set key value mallocOk => exact hs.set hcall
  | get key bufferLen mallocOk => exact hs
  | del key mallocOk => exact hs.del hcall

/-- A key of 128 characters or more that is set is not found afterwards. -/
theorem Tidy.not_refines_set {s : Store} (hs : Tidy s) {key : CString} {value : KvValue}
    {mallocOk : Bool} (hcall : ¬ KeepsMap s (.set key value mallocOk)) :
    ¬ Refines (step s (.set key value mallocOk)) := by
  rw [KeepsMap, not_forall] at hcall
  obtain ⟨rfl, hlost⟩ := hcall
  obtain ⟨hlong, hfull⟩ := not_or.mp hlost
  obtain ⟨item, hitem⟩ := not_forall.mp hfull
  obtain ⟨hmem, hfree⟩ := Classical.not_imp.mp hitem
  have hslot : none ∈ (s.file (hashGen key.bytes)).map KvItem.entry := by
    have hentry : item.entry = none := if_pos (Decidable.not_not.mp hfree)
    exact List.mem_map.mpr ⟨item, hmem, hentry⟩
  obtain ⟨after, hafter⟩ :=
    @ProbeRow.insert_isSome_of_free _ _ _ key.bytes (storedName key) value.bytes _ hslot
  have hput := map_entry_putRow key value.nonempty (s.file (hashGen key.bytes))
  rw [hafter] at hput
  obtain ⟨kv, hkv, hrow⟩ := Option.map_eq_some_iff.mp hput
  have hmissing := ProbeRow.lookup_insert_renamed (hs.compact _)
    (lookup_of_long (Nat.le_of_not_lt hlong) _) (storedName_ne_of_long hlong) hafter
  rw [step, halKvSet_eq, hkv]
  intro hrefines
  have hfound := hrefines.lookup_isSome key
  rw [lookup_writeKvItem hrow, if_pos rfl, hmissing] at hfound
  simp [KvMap.put] at hfound

/-- An entry behind the one that is deleted is not found afterwards. -/
theorem Tidy.not_refines_del {s : Store} (hs : Tidy s) {key : CString} {mallocOk : Bool}
    (hcall : ¬ KeepsMap s (.del key mallocOk)) : ¬ Refines (step s (.del key mallocOk)) := by
  rw [KeepsMap, Classical.not_imp] at hcall
  obtain ⟨rfl, hfollowed⟩ := hcall
  obtain ⟨name, held, hname, hmem, hheld, hgone⟩ :=
    ProbeRow.exists_lost (hs.compact _) hfollowed
  have hplace := hs.placed _ name held hmem
  let lost : CString := ⟨name, zero_not_mem_name hmem⟩
  have hlost : lost ≠ key := fun hsame => hname (congrArg CString.bytes hsame)
  rw [step, halKvDel, hashTableRm, if_neg (by simp), hashGen_mod]
  intro hrefines
  have hfound := hrefines.lookup_isSome lost
  rw [lookup_writeKvItem (map_entry_rmRow key _), if_pos hplace, ← rowAt, hgone] at hfound
  have hkept : s.map lost = some held := by
    rw [hs.agrees lost, hplace]
    exact hheld
  simp [KvMap.put, hlost, hkept] at hfound

/-- A call that does not meet the condition breaks the map at once. -/
theorem Tidy.not_refines {s : Store} {call : KvCall} (hs : Tidy s)
    (hcall : ¬ KeepsMap s call) : ¬ Refines (step s call) := by
  cases call with
  | set key value mallocOk => exact hs.not_refines_set hcall
  | get key bufferLen mallocOk => exact absurd trivial hcall
  | del key mallocOk => exact hs.not_refines_del hcall

/-! ## Runs -/

theorem tidy_initial : Tidy Store.initial := by
  have hfree : ∀ location, ∀ slot ∈ rowAt Store.initial.file location, slot = none := by
    intro location slot hslot
    obtain ⟨item, hitem, rfl⟩ := List.mem_map.mp hslot
    rw [List.eq_of_mem_replicate hitem, KvItem.entry_zero]
  refine ⟨fun location => ProbeRow.compact_of_free (hfree location), ?_, ?_⟩
  · intro location name value hmem
    cases hfree location _ hmem
  · intro key
    exact (ProbeRow.lookup_of_free (hfree _) key.bytes).symm

/-- The store answers as the map does throughout a run exactly when every call of the run
meets the condition. -/
theorem refines_always_iff (calls : List KvCall) :
    Always step Refines Store.initial calls ↔ StepsMeet step KeepsMap Store.initial calls := by
  apply @always_iff_of_breaks _ _ step Tidy
  · exact fun s hs => hs.refines
  · exact fun s call hs hcall => hs.kept hcall
  · exact fun s call hs hcall => hs.not_refines hcall
  · exact tidy_initial

theorem noNul_a : (0 : UInt8) ∉ ascii "a" := by decide

/-- Two keys of one row: deleting the first loses the second. -/
def collidingCalls : List KvCall :=
  [.set ⟨ascii "a", noNul_a⟩ ⟨[1], by decide, by decide⟩ true,
    .set ⟨ascii "hy", by decide⟩ ⟨[2], by decide, by decide⟩ true,
    .del ⟨ascii "a", noNul_a⟩ true]

theorem not_refines_colliding : ¬ Always step Refines Store.initial collidingCalls := by
  intro hall
  have hend := hall.finish
  have hget := hend ⟨ascii "hy", by decide⟩ 1 (by decide)
  revert hget
  decide

end EnosDeviceSdk.Wrappers.HalKv
