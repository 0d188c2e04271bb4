/-
# The memory statistics

With the statistics switched on, every buffer that the SDK allocates gets a record, and the records
are counted, in all and for the module that asked for the buffer. The table of the modules grows as
names come up. Printing the statistics clears the table.

The counters go up before it is known whether there is memory for the record, and nobody takes them
back. A record stays without a module when there is no memory for the module, and uncounted when
there is none for the call that is noted down. And printing leaves every record that there is with a
module that is gone.
-/

import Mathlib.Data.List.Nodup
import Mathlib.Algebra.BigOperators.Group.List.Basic
import Mathlib.Data.Int.Order.Basic
import EnosDeviceSdk.Library.Run
import EnosDeviceSdk.Infra.Printf

namespace EnosDeviceSdk.Infra

open EnosDeviceSdk.Library

universe u

/-! ## The state -/

/-- The counters of `mem_statis_t`, which are there once more for all modules together. -/
structure MemStatis where
  bytesTotalAllocated : Int
  bytesTotalFreed : Int
  bytesTotalInUse : Int
  bytesMaxAllocated : Int
  bytesMaxInUse : Int
  iterationsAllocated : Int
  iterationsFreed : Int
  iterationsInUse : Int
  iterationsMaxInUse : Int
  deriving DecidableEq

/-- Counters that were set to zero. -/
def MemStatis.zero : MemStatis := ⟨0, 0, 0, 0, 0, 0, 0, 0, 0⟩

/-- What a buffer of this size adds to the counters. -/
def MemStatis.countMalloc (statis : MemStatis) (size : Int) : MemStatis :=
  { statis with
    iterationsAllocated := statis.iterationsAllocated + 1
    bytesTotalAllocated := statis.bytesTotalAllocated + size
    bytesTotalInUse := statis.bytesTotalInUse + size
    bytesMaxInUse := max statis.bytesMaxInUse (statis.bytesTotalInUse + size)
    bytesMaxAllocated := max statis.bytesMaxAllocated size
    iterationsInUse := statis.iterationsInUse + 1
    iterationsMaxInUse := max statis.iterationsMaxInUse (statis.iterationsInUse + 1) }

/-- What the buffer takes away again. -/
def MemStatis.countFree (statis : MemStatis) (size : Int) : MemStatis :=
  { statis with
    iterationsFreed := statis.iterationsFreed + 1
    iterationsInUse := statis.iterationsInUse - 1
    bytesTotalFreed := statis.bytesTotalFreed + size
    bytesTotalInUse := statis.bytesTotalInUse - size }

/-- `calling_stack_t`, a call that named no module. The name of the function is a copy, if there was
memory for one. -/
structure CallingStack (ι : Type u) where
  address : ι
  funcName : Option (ι × CString)
  line : Int

/-- `module_mem_t` -/
structure ModuleMem (ι : Type u) where
  address : ι
  moduleName : CString
  callingStack : List (CallingStack ι)
  memStatis : MemStatis

/-- `OS_malloc_record`, without the backtrace. -/
structure MallocRecord (ι : Type u) where
  address : ι
  buf : ι
  buflen : Int
  func : CString
  line : Int
  memTable : Option ι

/-- The statistics. The moment tells the calls of the allocator apart. -/
structure MemStats (ι : Type u) where
  memStatis : MemStatis
  memRecs : List (MallocRecord ι)
  memModuleStatis : List (ModuleMem ι)
  moment : Nat

variable {ι : Type u}

/-- Before the first call. -/
def MemStats.start : MemStats ι := ⟨.zero, [], [], 0⟩

/-- The blocks of a call that was noted down. -/
def CallingStack.blocks (call : CallingStack ι) : List ι :=
  call.address :: (call.funcName.map Prod.fst).toList

/-- The blocks that the statistics hold, and the buffers. -/
def MemStats.blocks (stats : MemStats ι) : List ι :=
  stats.memModuleStatis.map ModuleMem.address ++
    (stats.memModuleStatis.flatMap fun module =>
      module.callingStack.flatMap CallingStack.blocks) ++
    stats.memRecs.flatMap fun record => [record.address, record.buf]

/-- `HAL_Malloc`, asked for one of the blocks that a call needs while it holds others already. -/
def MemStats.halMalloc (stats : MemStats ι) (allocator : HeapAllocator ι) (index : Nat)
    (held : List ι) : Option ι :=
  allocator.malloc (5 * stats.moment + index) (held ++ stats.blocks)

/-! ## Allocating -/

/-- The name that stands for calls that name no module. -/
def unknownModule : CString := .ofArray (ascii "unknown")

/-- The name as it is stored, in an array of 32 bytes. -/
def storedName (moduleName : CString) : CString := .ofArray (moduleName.bytes.take 31)

/-- `_create_mem_table`, in the block that it was given. -/
def createMemTable (moduleName : CString) (address : ι) : ModuleMem ι :=
  ⟨address, storedName moduleName, [], .zero⟩

/-- `_find_mem_table` -/
def findMemTable (stats : MemStats ι) (moduleName : CString) : Option (ModuleMem ι) :=
  stats.memModuleStatis.find? fun module => module.moduleName = moduleName

/-- The module for a call, which is created if there is none of the name yet. The name is given with
a magic number or not at all, and as a pointer it may be null. -/
def moduleFor (allocator : HeapAllocator ι) (stats : MemStats ι) (held : List ι)
    (moduleName : Option (Option CString)) : Option (ModuleMem ι × MemStats ι) :=
  match moduleName.getD (some unknownModule) with
  | none => none
  | some moduleName =>
      match findMemTable stats moduleName with
      | some module => some (module, stats)
      | none =>
          (stats.halMalloc allocator 2 held).map fun address =>
            let module := createMemTable moduleName address
            (module, { stats with memModuleStatis := stats.memModuleStatis ++ [module] })

/-- Whether the call is noted down already. A name for which there was no memory is compared like
the others, which goes astray. -/
def isRepeat (func : CString) (line : Int) : List (CallingStack ι) → Option Bool
  | [] => some false
  | call :: rest =>
      match call.funcName with
      | none => none
      | some (_, funcName) =>
          if funcName = func ∧ call.line = line then some true else isRepeat func line rest

/-- `LITE_strdup` -/
def liteStrdup (allocator : HeapAllocator ι) (stats : MemStats ι) (held : List ι)
    (src : CString) : Option (ι × CString) :=
  if src.strlen + 1 > 1024 then none
  else (stats.halMalloc allocator 4 held).map fun block => (block, src)

variable [DecidableEq ι]

/-- A write to the fields of the module at an address. -/
def MemStats.update (stats : MemStats ι) (address : ι) (write : ModuleMem ι → ModuleMem ι) :
    MemStats ι :=
  { stats with
    memModuleStatis := stats.memModuleStatis.map fun module =>
      if module.address = address then write module else module }

/-- A record goes to the end of the list. -/
def MemStats.addRecord (stats : MemStats ι) (record : MallocRecord ι) : MemStats ι :=
  { stats with memRecs := stats.memRecs ++ [record] }

/-- A call is noted down first in its module. -/
def ModuleMem.noteCall (module : ModuleMem ι) (call : CallingStack ι) : ModuleMem ι :=
  { module with callingStack := call :: module.callingStack }

def ModuleMem.countMalloc (module : ModuleMem ι) (size : Int) : ModuleMem ι :=
  { module with memStatis := module.memStatis.countMalloc size }

def ModuleMem.countFree (module : ModuleMem ι) (size : Int) : ModuleMem ι :=
  { module with memStatis := module.memStatis.countFree size }

/-- `_count_malloc_internal` for the record that was linked in, or nothing where it goes astray. -/
def countMallocInternal (allocator : HeapAllocator ι) (stats : MemStats ι) (held : List ι)
    (record : MallocRecord ι) (moduleName : Option (Option CString)) : Option (MemStats ι) :=
  match moduleFor allocator stats held moduleName with
  | none => some (stats.addRecord record)
  | some (module, grown) =>
      let linked := grown.addRecord { record with memTable := some module.address }
      if module.moduleName = unknownModule then
        match isRepeat record.func record.line module.callingStack with
        | none => none
        | some true => some (linked.update module.address (·.countMalloc record.buflen))
        | some false =>
            match grown.halMalloc allocator 3 held with
            | none => some linked
            | some entry =>
                let call : CallingStack ι :=
                  ⟨entry, liteStrdup allocator grown (entry :: held) record.func, record.line⟩
                some ((linked.update module.address (·.noteCall call)).update module.address
                  (·.countMalloc record.buflen))
      else some (linked.update module.address (·.countMalloc record.buflen))

/-- `LITE_malloc_internal` -/
def liteMallocInternal (allocator : HeapAllocator ι) (stats : MemStats ι) (func : CString)
    (line size : Int) (moduleName : Option (Option CString)) : Option (MemStats ι) :=
  if size ≤ 0 then some stats
  else
    match stats.halMalloc allocator 0 [] with
    | none => some stats
    | some buf =>
        let stats := { stats with memStatis := stats.memStatis.countMalloc size }
        match stats.halMalloc allocator 1 [buf] with
        | none => some stats
        | some address =>
            let record : MallocRecord ι := ⟨address, buf, size, func, line, none⟩
            countMallocInternal allocator stats [address, buf] record moduleName

/-! ## Freeing and printing -/

/-- `_count_free_internal`, or nothing where the module of the record is gone. -/
def countFreeInternal (stats : MemStats ι) (record : MallocRecord ι) : Option (MemStats ι) :=
  match record.memTable with
  | none => some stats
  | some address =>
      if address ∈ stats.memModuleStatis.map ModuleMem.address then
        some (stats.update address (·.countFree record.buflen))
      else none

/-- `LITE_free` -/
def liteFree (stats : MemStats ι) (ptr : Option ι) : Option (MemStats ι) :=
  match ptr with
  | none => some stats
  | some ptr =>
      match stats.memRecs.find? fun record => record.buf = ptr with
      | none => some stats
      | some record =>
          (countFreeInternal
            { stats with memStatis := stats.memStatis.countFree record.buflen } record).map
            fun stats =>
              { stats with memRecs := stats.memRecs.eraseP fun record => record.buf = ptr }

/-- `LITE_dump_malloc_free_stats`: what is left when everything is printed. The modules are sorted
before that, and freed after it. -/
def liteDumpMallocFreeStats (stats : MemStats ι) (level loglevel : Int) : MemStats ι :=
  if level > loglevel then stats else { stats with memModuleStatis := [] }

/-- The calls of the statistics, with what they are given. -/
inductive MemCall (ι : Type u)
  | malloc (func : CString) (line size : Int) (moduleName : Option (Option CString))
  | free (ptr : Option ι)
  | dump (level loglevel : Int)

/-- What a call makes of the statistics. -/
def memCall (allocator : HeapAllocator ι) (stats : MemStats ι) : MemCall ι → Option (MemStats ι)
  | .malloc func line size moduleName =>
      liteMallocInternal allocator stats func line size moduleName
  | .free ptr => liteFree stats ptr
  | .dump level loglevel => some (liteDumpMallocFreeStats stats level loglevel)

/-- The moment passes. -/
def MemStats.later (stats : MemStats ι) : MemStats ι := { stats with moment := stats.moment + 1 }

/-- One call. Nothing is left of the state of a program that went astray. -/
def memStep (allocator : HeapAllocator ι) (state : Option (MemStats ι)) (call : MemCall ι) :
    Option (MemStats ι) :=
  state.bind fun stats => (memCall allocator stats call).map MemStats.later

/-! ## The accounts -/

/-- The bytes of some records. -/
def totalBuflen (records : List (MallocRecord ι)) : Int := (records.map (·.buflen)).sum

/-- The bytes of the records that refer to the module at an address. -/
def moduleBuflen (records : List (MallocRecord ι)) (address : ι) : Int :=
  totalBuflen (records.filter fun record => record.memTable = some address)

/-- The counters are those of the records, every record refers to a module of the table, and the
counter of a module is that of its records. -/
structure Accounts (stats : MemStats ι) : Prop where
  bytes : stats.memStatis.bytesTotalInUse = totalBuflen stats.memRecs
  iterations : stats.memStatis.iterationsInUse = stats.memRecs.length
  tables : ∀ record ∈ stats.memRecs, ∃ module ∈ stats.memModuleStatis,
    record.memTable = some module.address
  modules : ∀ module ∈ stats.memModuleStatis,
    module.memStatis.bytesTotalInUse = moduleBuflen stats.memRecs module.address

/-- The accounts are kept in a state that the program did not go astray in. -/
def AccountsKept (state : Option (MemStats ι)) : Prop :=
  ∀ stats, state = some stats → Accounts stats

/-- There is memory for all that an allocated buffer needs: for the record, for the module, and for
the call if it is to be noted down. -/
def MemoryForAll (allocator : HeapAllocator ι) (stats : MemStats ι) (func : CString)
    (line : Int) (moduleName : Option (Option CString)) (buf : ι) : Prop :=
  ∃ address module grown, stats.halMalloc allocator 1 [buf] = some address ∧
    moduleFor allocator stats [address, buf] moduleName = some (module, grown) ∧
    (module.moduleName = unknownModule → isRepeat func line module.callingStack = some false →
      (grown.halMalloc allocator 3 [address, buf]).isSome)

/-- The condition on a call: a buffer that can be allocated is allocated with all that it needs, and
the statistics are printed only while there are no records. -/
def Accountable (allocator : HeapAllocator ι) (state : Option (MemStats ι))
    (call : MemCall ι) : Prop :=
  ∀ stats, state = some stats →
    match call with
    | .malloc func line size moduleName => 0 < size →
        ∀ buf, stats.halMalloc allocator 0 [] = some buf →
          MemoryForAll allocator stats func line moduleName buf
    | .free _ => True
    | .dump level loglevel => level ≤ loglevel → stats.memRecs = []

/-! ## Sums over the records -/

section Sums

variable {records : List (MallocRecord ι)} {record : MallocRecord ι} {address : ι}

omit [DecidableEq ι] in
theorem totalBuflen_append (first second : List (MallocRecord ι)) :
    totalBuflen (first ++ second) = totalBuflen first + totalBuflen second := by
  rw [totalBuflen, List.map_append, List.sum_append]
  rfl

omit [DecidableEq ι] in
theorem totalBuflen_cons : totalBuflen (record :: records) = record.buflen + totalBuflen records :=
  List.sum_cons

theorem moduleBuflen_append (first second : List (MallocRecord ι)) (address : ι) :
    moduleBuflen (first ++ second) address =
      moduleBuflen first address + moduleBuflen second address := by
  rw [moduleBuflen, List.filter_append, totalBuflen_append]
  rfl

theorem moduleBuflen_cons_own (hown : record.memTable = some address) :
    moduleBuflen (record :: records) address = record.buflen + moduleBuflen records address := by
  rw [moduleBuflen, List.filter_cons, if_pos (decide_eq_true hown), totalBuflen_cons]
  rfl

theorem moduleBuflen_cons_other (hother : record.memTable ≠ some address) :
    moduleBuflen (record :: records) address = moduleBuflen records address := by
  rw [moduleBuflen, List.filter_cons, if_neg (by simpa using hother)]
  rfl

/-- No record refers to a module that is not there. -/
theorem moduleBuflen_eq_zero (hnone : ∀ record ∈ records, record.memTable ≠ some address) :
    moduleBuflen records address = 0 := by
  have hempty : (records.filter fun record => record.memTable = some address) = [] :=
    List.filter_eq_nil_iff.mpr fun record hrecord => by simpa using hnone record hrecord
  rw [moduleBuflen, hempty]
  rfl

end Sums

/-! ## What a call keeps -/

/-- The accounts are kept, and no two modules lie at one address. -/
structure Sound (stats : MemStats ι) : Prop where
  accounts : Accounts stats
  distinct : (stats.memModuleStatis.map ModuleMem.address).Nodup

section Steps

variable {stats : MemStats ι} {allocator : HeapAllocator ι}

omit [DecidableEq ι] in
/-- The module for a call is in the table, which has at most grown by a new module at its end. -/
theorem moduleFor_spec {held : List ι} {moduleName : Option (Option CString)}
    {module : ModuleMem ι} {grown : MemStats ι}
    (hmodule : moduleFor allocator stats held moduleName = some (module, grown)) :
    (module ∈ stats.memModuleStatis ∧ grown = stats) ∨
      ∃ address name, address ∉ stats.memModuleStatis.map ModuleMem.address ∧
        module = createMemTable name address ∧
        grown = { stats with memModuleStatis := stats.memModuleStatis ++ [module] } := by
  rw [moduleFor] at hmodule
  cases hname : moduleName.getD (some unknownModule) with
  | none =>
      rw [hname] at hmodule
      exact (nomatch hmodule)
  | some name =>
      rw [hname] at hmodule
      dsimp only at hmodule
      cases hfind : findMemTable stats name with
      | some found =>
          rw [hfind] at hmodule
          obtain ⟨rfl, rfl⟩ : found = module ∧ stats = grown := by simpa using hmodule
          exact .inl ⟨List.mem_of_find?_eq_some hfind, rfl⟩
      | none =>
          rw [hfind] at hmodule
          obtain ⟨address, haddress, hcreated⟩ := Option.map_eq_some_iff.mp hmodule
          obtain ⟨rfl, rfl⟩ : createMemTable name address = module ∧
              { stats with
                memModuleStatis := stats.memModuleStatis ++ [createMemTable name address] } =
                grown := by simpa using hcreated
          refine .inr ⟨address, name, ?_, rfl, rfl⟩
          intro hmem
          refine allocator.fresh _ _ _ haddress (List.mem_append_right held ?_)
          exact List.mem_append_left _ (List.mem_append_left _ hmem)

omit [DecidableEq ι] in
/-- The counters for all modules have no part in finding one. -/
theorem moduleFor_counted (statis : MemStatis) (held : List ι)
    (moduleName : Option (Option CString)) :
    moduleFor allocator { stats with memStatis := statis } held moduleName =
      (moduleFor allocator stats held moduleName).map fun found =>
        (found.1, { found.2 with memStatis := statis }) := by
  rw [moduleFor, moduleFor]
  cases moduleName.getD (some unknownModule) with
  | none => rfl
  | some name =>
      have hfind : findMemTable { stats with memStatis := statis } name =
          findMemTable stats name := rfl
      dsimp only
      rw [hfind]
      cases findMemTable stats name with
      | some found => rfl
      | none =>
          rw [Option.map_map]
          rfl

/-- A new module keeps the accounts. -/
theorem Sound.withModule (hsound : Sound stats) {held : List ι}
    {moduleName : Option (Option CString)} {module : ModuleMem ι} {grown : MemStats ι}
    (hmodule : moduleFor allocator stats held moduleName = some (module, grown)) :
    Sound grown ∧ module ∈ grown.memModuleStatis ∧ grown.memRecs = stats.memRecs ∧
      grown.memStatis = stats.memStatis := by
  rcases moduleFor_spec hmodule with ⟨hmem, rfl⟩ | ⟨address, name, hnew, rfl, rfl⟩
  · exact ⟨hsound, hmem, rfl, rfl⟩
  · have haccounts := hsound.accounts
    have hunused : moduleBuflen stats.memRecs address = 0 := by
      refine moduleBuflen_eq_zero fun record hrecord hrefers => hnew ?_
      obtain ⟨module, hmodule, htable⟩ := haccounts.tables record hrecord
      rw [htable, Option.some.injEq] at hrefers
      exact hrefers ▸ List.mem_map_of_mem hmodule
    refine ⟨⟨⟨haccounts.bytes, haccounts.iterations, ?_, ?_⟩, ?_⟩,
      List.mem_append_right _ List.mem_cons_self, rfl, rfl⟩
    · intro record hrecord
      obtain ⟨module, hmodule, htable⟩ := haccounts.tables record hrecord
      exact ⟨module, List.mem_append_left _ hmodule, htable⟩
    · intro module hmodule
      rcases List.mem_append.mp hmodule with hold | hcreated
      · exact haccounts.modules module hold
      · rw [List.mem_singleton.mp hcreated]
        exact hunused.symm
    · rw [List.map_append]
      refine List.nodup_append.mpr ⟨hsound.distinct, List.nodup_singleton _, ?_⟩
      intro old hold other hother hsame
      have hother' : other = address := List.mem_singleton.mp hother
      exact hnew (hother' ▸ hsame ▸ hold)

/-- What a write to a module does to the table. -/
theorem mem_update {address : ι} {write : ModuleMem ι → ModuleMem ι} {module : ModuleMem ι} :
    module ∈ (stats.update address write).memModuleStatis ↔
      ∃ old ∈ stats.memModuleStatis,
        (if old.address = address then write old else old) = module :=
  List.mem_map

/-- A write that keeps the address of the module keeps the addresses of the table. -/
theorem map_address_update {address : ι} {write : ModuleMem ι → ModuleMem ι}
    (hkeeps : ∀ module, (write module).address = module.address) :
    (stats.update address write).memModuleStatis.map ModuleMem.address =
      stats.memModuleStatis.map ModuleMem.address := by
  rw [MemStats.update, List.map_map]
  refine List.map_congr_left fun module _ => ?_
  rw [Function.comp_apply]
  split
  · exact hkeeps module
  · rfl

/-- Two writes to a module are one. -/
theorem update_update {address : ι} {first second : ModuleMem ι → ModuleMem ι}
    (hkeeps : ∀ module, (first module).address = module.address) :
    (stats.update address first).update address second =
      stats.update address (second ∘ first) := by
  rw [MemStats.update, MemStats.update, MemStats.update, List.map_map]
  refine congrArg (MemStats.mk _ _ · _) (List.map_congr_left fun module _ => ?_)
  rw [Function.comp_apply]
  by_cases hsame : module.address = address
  · rw [if_pos hsame, if_pos ((hkeeps module).trans hsame), if_pos hsame]
    rfl
  · rw [if_neg hsame, if_neg hsame, if_neg hsame]

/-- A module that a record refers to is still there after such a write. -/
theorem refers_update {address : ι} {write : ModuleMem ι → ModuleMem ι}
    (hkeeps : ∀ module, (write module).address = module.address) (table : Option ι) :
    (∃ module ∈ (stats.update address write).memModuleStatis, table = some module.address) ↔
      ∃ module ∈ stats.memModuleStatis, table = some module.address := by
  have haddresses := congrArg (fun addresses : List ι => ∃ other ∈ addresses, table = some other)
    (@map_address_update _ _ stats address write hkeeps)
  simpa using haddresses

/-- A record for a module of the table, counted there and in all, keeps the accounts. -/
theorem Sound.linked (hsound : Sound stats) {module : ModuleMem ι}
    (hmodule : module ∈ stats.memModuleStatis) {record : MallocRecord ι}
    (htable : record.memTable = some module.address) {write : ModuleMem ι → ModuleMem ι}
    (hkeeps : ∀ module, (write module).address = module.address)
    (hcounts : ∀ module, (write module).memStatis.bytesTotalInUse =
      module.memStatis.bytesTotalInUse + record.buflen) :
    Sound (({ stats with
      memStatis := stats.memStatis.countMalloc record.buflen }.addRecord record).update
        module.address write) := by
  have haccounts := hsound.accounts
  refine ⟨⟨?_, ?_, ?_, ?_⟩, ?_⟩
  · have htotal : totalBuflen (stats.memRecs ++ [record]) =
        totalBuflen stats.memRecs + record.buflen := by
      rw [totalBuflen_append, totalBuflen_cons]
      exact congrArg (totalBuflen stats.memRecs + ·) (Int.add_zero _)
    exact (congrArg (· + record.buflen) haccounts.bytes).trans htotal.symm
  · have hlength : ((stats.memRecs ++ [record]).length : Int) = stats.memRecs.length + 1 := by
      rw [List.length_append, List.length_singleton, Int.natCast_add]
      rfl
    exact (congrArg (· + 1) haccounts.iterations).trans hlength.symm
  · intro earlier hearlier
    rw [refers_update hkeeps]
    rcases List.mem_append.mp hearlier with hold | hnew
    · exact haccounts.tables earlier hold
    · rw [List.mem_singleton.mp hnew]
      exact ⟨module, hmodule, htable⟩
  · intro changed hchanged
    obtain ⟨old, hold, rfl⟩ := mem_update.mp hchanged
    have hbytes := haccounts.modules old hold
    have hsum : moduleBuflen (stats.memRecs ++ [record]) old.address =
        moduleBuflen stats.memRecs old.address + moduleBuflen [record] old.address :=
      moduleBuflen_append _ _ _
    by_cases hown : old.address = module.address
    · have hrecord : moduleBuflen [record] old.address = record.buflen := by
        rw [moduleBuflen_cons_own (hown ▸ htable)]
        exact Int.add_zero _
      rw [if_pos hown, hcounts, hkeeps, hbytes, ← hrecord]
      exact hsum.symm
    · have hrecord : moduleBuflen [record] old.address = 0 := by
        refine moduleBuflen_eq_zero fun other hother hrefers => hown ?_
        rw [List.mem_singleton.mp hother, htable, Option.some.injEq] at hrefers
        exact hrefers.symm
      rw [if_neg hown, hbytes, ← Int.add_zero (moduleBuflen stats.memRecs old.address), ← hrecord]
      exact hsum.symm
  · rw [map_address_update hkeeps]
    exact hsound.distinct

/-- A record that is counted in its module goes there with one write, which may note down the call
besides. -/
theorem countMallocInternal_linked {held : List ι} {record : MallocRecord ι}
    {moduleName : Option (Option CString)} {module : ModuleMem ι} {grown after : MemStats ι}
    (hmodule : moduleFor allocator stats held moduleName = some (module, grown))
    (hentry : module.moduleName = unknownModule →
      isRepeat record.func record.line module.callingStack = some false →
      (grown.halMalloc allocator 3 held).isSome)
    (hafter : countMallocInternal allocator stats held record moduleName = some after) :
    ∃ write : ModuleMem ι → ModuleMem ι, (∀ module, (write module).address = module.address) ∧
      (∀ module, (write module).memStatis.bytesTotalInUse =
        module.memStatis.bytesTotalInUse + record.buflen) ∧
      after = (grown.addRecord { record with memTable := some module.address }).update
        module.address write := by
  rw [countMallocInternal, hmodule] at hafter
  dsimp only at hafter
  by_cases hunknown : module.moduleName = unknownModule
  · rw [if_pos hunknown] at hafter
    cases hrepeat : isRepeat record.func record.line module.callingStack with
    | none =>
        rw [hrepeat] at hafter
        exact (nomatch hafter)
    | some known =>
        rw [hrepeat] at hafter
        cases known with
        | true =>
            exact ⟨(·.countMalloc record.buflen), fun _ => rfl, fun _ => rfl,
              (Option.some.inj hafter).symm⟩
        | false =>
            obtain ⟨entry, hgrant⟩ := Option.isSome_iff_exists.mp (hentry hunknown hrepeat)
            rw [hgrant] at hafter
            have hwrites := (Option.some.inj hafter).symm
            rw [update_update (fun module => (rfl : (module.noteCall _).address = module.address))]
              at hwrites
            refine ⟨_, ?_, ?_, hwrites⟩
            · exact fun _ => rfl
            · exact fun _ => rfl
  · rw [if_neg hunknown] at hafter
    exact ⟨(·.countMalloc record.buflen), fun _ => rfl, fun _ => rfl,
      (Option.some.inj hafter).symm⟩

/-- Allocating keeps the accounts, if there is memory for all that the buffer needs. -/
theorem Sound.malloc (hsound : Sound stats) {func : CString} {line size : Int}
    {moduleName : Option (Option CString)} {after : MemStats ι}
    (hmemory : 0 < size → ∀ buf, stats.halMalloc allocator 0 [] = some buf →
      MemoryForAll allocator stats func line moduleName buf)
    (hafter : liteMallocInternal allocator stats func line size moduleName = some after) :
    Sound after := by
  rw [liteMallocInternal] at hafter
  by_cases hsize : size ≤ 0
  · rw [if_pos hsize] at hafter
    exact Option.some.inj hafter ▸ hsound
  · rw [if_neg hsize] at hafter
    cases hbuf : stats.halMalloc allocator 0 [] with
    | none =>
        rw [hbuf] at hafter
        exact Option.some.inj hafter ▸ hsound
    | some buf =>
        obtain ⟨address, module, grown, hrecord, hmodule, hentry⟩ :=
          hmemory (Int.not_le.mp hsize) buf hbuf
        rw [hbuf] at hafter
        have hrecord' : ({ stats with memStatis := stats.memStatis.countMalloc size } :
            MemStats ι).halMalloc allocator 1 [buf] = some address := hrecord
        dsimp only at hafter
        rw [hrecord'] at hafter
        dsimp only at hafter
        obtain ⟨hgrown, hmem, -, hstatis⟩ := hsound.withModule hmodule
        have hcounted := @moduleFor_counted _ stats allocator (stats.memStatis.countMalloc size)
          [address, buf] moduleName
        rw [hmodule] at hcounted
        obtain ⟨write, hkeeps, hcounts, rfl⟩ :=
          countMallocInternal_linked hcounted hentry hafter
        have htable : (⟨address, buf, size, func, line, some module.address⟩ :
            MallocRecord ι).memTable = some module.address := rfl
        rw [← hstatis]
        exact hgrown.linked hmem htable hkeeps hcounts

/-- Without memory for all that it needs, a buffer breaks the accounts. -/
theorem Sound.malloc_breaks (hsound : Sound stats) {func : CString} {line size : Int}
    {moduleName : Option (Option CString)} {buf : ι} (hsize : 0 < size)
    (hbuf : stats.halMalloc allocator 0 [] = some buf)
    (hmissing : ¬ MemoryForAll allocator stats func line moduleName buf) :
    ∃ after, liteMallocInternal allocator stats func line size moduleName = some after ∧
      ¬ Accounts after := by
  rw [liteMallocInternal, if_neg (Int.not_le.mpr hsize), hbuf]
  dsimp only
  cases hrecord : ({ stats with memStatis := stats.memStatis.countMalloc size } :
      MemStats ι).halMalloc allocator 1 [buf] with
  | none =>
      -- the counters are up, and there is no record
      refine ⟨_, rfl, fun hafter => ?_⟩
      have hbytes : stats.memStatis.bytesTotalInUse + size = totalBuflen stats.memRecs :=
        hafter.bytes
      rw [hsound.accounts.bytes] at hbytes
      omega
  | some address =>
      dsimp only
      rw [countMallocInternal, moduleFor_counted]
      cases hmodule : moduleFor allocator stats [address, buf] moduleName with
      | none =>
          -- the record has no module
          refine ⟨_, rfl, fun hafter => ?_⟩
          obtain ⟨module, -, htable⟩ :=
            hafter.tables _ (List.mem_append_right _ List.mem_cons_self)
          exact (nomatch htable)
      | some found =>
          obtain ⟨module, grown⟩ := found
          rw [Option.map_some]
          dsimp only
          have hneeds : ¬ (module.moduleName = unknownModule →
              isRepeat func line module.callingStack = some false →
              (grown.halMalloc allocator 3 [address, buf]).isSome) :=
            fun hentry => hmissing ⟨address, module, grown, hrecord, hmodule, hentry⟩
          obtain ⟨hunknown, hrepeat, hentry⟩ : module.moduleName = unknownModule ∧
              isRepeat func line module.callingStack = some false ∧
              grown.halMalloc allocator 3 [address, buf] = none := by
            simpa using hneeds
          have hentry' : ({ grown with memStatis := stats.memStatis.countMalloc size } :
              MemStats ι).halMalloc allocator 3 [address, buf] = none := hentry
          rw [if_pos hunknown, hrepeat]
          dsimp only
          rw [hentry']
          -- the module counts what it had before, and has one record more
          refine ⟨_, rfl, fun hafter => ?_⟩
          obtain ⟨hgrown, hmem, hrecords, -⟩ := hsound.withModule hmodule
          have hbefore := hgrown.accounts.modules module hmem
          have hbytes := hafter.modules module hmem
          have hsum : module.memStatis.bytesTotalInUse =
              moduleBuflen grown.memRecs module.address + (size + 0) := by
            rw [hbytes]
            refine (moduleBuflen_append _ _ _).trans ?_
            rw [moduleBuflen_cons_own rfl]
            rfl
          omega

/-- Freeing keeps the accounts. -/
theorem Sound.free (hsound : Sound stats) {ptr : Option ι} {after : MemStats ι}
    (hafter : liteFree stats ptr = some after) : Sound after := by
  cases ptr with
  | none => exact Option.some.inj hafter ▸ hsound
  | some ptr =>
      rw [liteFree] at hafter
      cases hfind : stats.memRecs.find? fun record => record.buf = ptr with
      | none =>
          rw [hfind] at hafter
          exact Option.some.inj hafter ▸ hsound
      | some record =>
          rw [hfind] at hafter
          have haccounts := hsound.accounts
          obtain ⟨module, hmodule, htable⟩ :=
            haccounts.tables record (List.mem_of_find?_eq_some hfind)
          obtain ⟨hptr, before, rest, hrecords, hbefore⟩ :=
            List.find?_eq_some_iff_append.mp hfind
          have hhead : ((record :: rest).eraseP fun record => record.buf = ptr) = rest :=
            List.eraseP_cons_of_pos hptr
          have herased : (stats.memRecs.eraseP fun record => record.buf = ptr) =
              before ++ rest := by
            rw [hrecords, List.eraseP_append_right _ (by simpa using hbefore), hhead]
          have htotal : totalBuflen stats.memRecs =
              totalBuflen (before ++ rest) + record.buflen := by
            rw [hrecords, totalBuflen_append, totalBuflen_append, totalBuflen_cons]
            omega
          have hlength : (stats.memRecs.length : Int) = (before ++ rest).length + 1 := by
            rw [hrecords, List.length_append, List.length_append, List.length_cons]
            omega
          dsimp only at hafter
          rw [countFreeInternal, htable] at hafter
          dsimp only at hafter
          rw [if_pos (List.mem_map_of_mem hmodule)] at hafter
          have hfreed : after =
              { ({ stats with memStatis := stats.memStatis.countFree record.buflen } :
                  MemStats ι).update module.address (·.countFree record.buflen) with
                memRecs := before ++ rest } := by
            rw [← herased]
            exact (Option.some.inj hafter).symm
          subst hfreed
          have hkeeps (module : ModuleMem ι) :
              (module.countFree record.buflen).address = module.address := rfl
          refine ⟨⟨?_, ?_, ?_, ?_⟩, ?_⟩
          · have hbytes := haccounts.bytes
            have hcounter : stats.memStatis.bytesTotalInUse - record.buflen =
                totalBuflen (before ++ rest) := by omega
            exact hcounter
          · have hiterations := haccounts.iterations
            have hcounter : stats.memStatis.iterationsInUse - 1 = (before ++ rest).length := by
              omega
            exact hcounter
          · intro other hother
            have hold : other ∈ stats.memRecs := by
              rw [hrecords]
              rcases List.mem_append.mp hother with hin | hin
              · exact List.mem_append_left _ hin
              · exact List.mem_append_right _ (List.mem_cons_of_mem _ hin)
            exact (@refers_update _ _ stats module.address _ hkeeps other.memTable).mpr
              (haccounts.tables other hold)
          · intro changed hchanged
            obtain ⟨old, hold, rfl⟩ := mem_update.mp hchanged
            have hbytes := haccounts.modules old hold
            rw [hrecords, moduleBuflen_append] at hbytes
            have hsum : moduleBuflen (before ++ rest) old.address =
                moduleBuflen before old.address + moduleBuflen rest old.address :=
              moduleBuflen_append _ _ _
            by_cases hown : old.address = module.address
            · rw [moduleBuflen_cons_own (hown ▸ htable)] at hbytes
              have hcounter : old.memStatis.bytesTotalInUse - record.buflen =
                  moduleBuflen (before ++ rest) old.address := by omega
              rw [if_pos hown]
              exact hcounter
            · rw [moduleBuflen_cons_other (by
                rw [htable]
                exact fun hsame => hown (Option.some.inj hsame).symm), ← hsum] at hbytes
              rw [if_neg hown]
              exact hbytes
          · exact (@map_address_update _ _ stats module.address _ hkeeps) ▸ hsound.distinct

/-- Printing keeps the accounts if there are no records. -/
theorem Sound.dump (hsound : Sound stats) {level loglevel : Int}
    (hempty : level ≤ loglevel → stats.memRecs = []) :
    Sound (liteDumpMallocFreeStats stats level loglevel) := by
  rw [liteDumpMallocFreeStats]
  by_cases hlevel : level > loglevel
  · rw [if_pos hlevel]
    exact hsound
  · rw [if_neg hlevel]
    have hnone := hempty (Int.not_lt.mp hlevel)
    refine ⟨⟨hsound.accounts.bytes, hsound.accounts.iterations, ?_, ?_⟩, List.nodup_nil⟩
    · intro record hrecord
      exact absurd (hnone ▸ hrecord : record ∈ []) List.not_mem_nil
    · exact fun module hmodule => absurd hmodule List.not_mem_nil

/-- Printing while there are records leaves them without modules. -/
theorem dump_breaks {level loglevel : Int} (hlevel : level ≤ loglevel)
    (hrecords : stats.memRecs ≠ []) :
    ¬ Accounts (liteDumpMallocFreeStats stats level loglevel) := by
  rw [liteDumpMallocFreeStats, if_neg (Int.not_lt.mpr hlevel)]
  intro hafter
  obtain ⟨record, hrecord⟩ := List.exists_mem_of_ne_nil _ hrecords
  obtain ⟨module, hmodule, -⟩ := hafter.tables record hrecord
  exact absurd hmodule List.not_mem_nil

end Steps

/-! ## Runs -/

/-- The accounts are sound in a state that the program did not go astray in. -/
def SoundState (state : Option (MemStats ι)) : Prop :=
  ∀ stats, state = some stats → Sound stats

theorem soundState_start : SoundState (some (MemStats.start : MemStats ι)) := by
  intro stats hstats
  obtain rfl := Option.some.inj hstats
  refine ⟨⟨rfl, rfl, ?_, ?_⟩, List.nodup_nil⟩
  · exact fun record hrecord => absurd hrecord List.not_mem_nil
  · exact fun module hmodule => absurd hmodule List.not_mem_nil

/-- The moment has no part in the accounts. -/
theorem Accounts.of_later {stats : MemStats ι} (haccounts : Accounts stats.later) :
    Accounts stats :=
  ⟨haccounts.bytes, haccounts.iterations, haccounts.tables, haccounts.modules⟩

theorem Sound.later {stats : MemStats ι} (hsound : Sound stats) : Sound stats.later :=
  ⟨⟨hsound.accounts.bytes, hsound.accounts.iterations, hsound.accounts.tables,
    hsound.accounts.modules⟩, hsound.distinct⟩

/-- A call that meets the condition keeps the accounts sound. -/
theorem soundState_memStep {allocator : HeapAllocator ι} {state : Option (MemStats ι)}
    {call : MemCall ι} (hsound : SoundState state) (hcall : Accountable allocator state call) :
    SoundState (memStep allocator state call) := by
  intro after hafter
  obtain ⟨stats, hstats, hstep⟩ := Option.bind_eq_some_iff.mp hafter
  obtain ⟨reached, hreached, rfl⟩ := Option.map_eq_some_iff.mp hstep
  refine Sound.later ?_
  have hbefore := hsound stats hstats
  have hcondition := hcall stats hstats
  cases call with
  | malloc func line size moduleName => exact hbefore.malloc hcondition hreached
  | free ptr => exact hbefore.free hreached
  | dump level loglevel => exact Option.some.inj hreached ▸ hbefore.dump hcondition

/-- A call that does not meet the condition breaks the accounts. -/
theorem accountsKept_memStep_breaks {allocator : HeapAllocator ι} {state : Option (MemStats ι)}
    {call : MemCall ι} (hsound : SoundState state) (hcall : ¬ Accountable allocator state call) :
    ¬ AccountsKept (memStep allocator state call) := by
  intro hkept
  apply hcall
  intro stats hstats
  subst hstats
  have hbefore := hsound stats rfl
  cases call with
  | malloc func line size moduleName =>
      intro hsize buf hbuf
      by_contra hmissing
      obtain ⟨after, hafter, hbroken⟩ := hbefore.malloc_breaks hsize hbuf hmissing
      refine hbroken (Accounts.of_later (hkept after.later ?_))
      rw [memStep, Option.bind_some, memCall, hafter, Option.map_some]
  | free ptr => trivial
  | dump level loglevel =>
      intro hlevel
      by_contra hrecords
      exact dump_breaks hlevel hrecords (Accounts.of_later (hkept _ rfl))

/-- The accounts are kept throughout a run exactly if every buffer that can be allocated is
allocated with all that it needs, and the statistics are printed only while there are no records. -/
theorem accountsKept_always_iff (allocator : HeapAllocator ι) (calls : List (MemCall ι)) :
    Always (memStep allocator) AccountsKept (some MemStats.start) calls ↔
      StepsMeet (memStep allocator) (Accountable allocator) (some MemStats.start) calls := by
  refine always_iff_of_breaks ?_ ?_ ?_ soundState_start calls
  · exact fun state hsound stats hstats => (hsound stats hstats).accounts
  · exact fun state call hsound hcall => soundState_memStep hsound hcall
  · exact fun state call hsound hcall => accountsKept_memStep_breaks hsound hcall

/-- A buffer is allocated and the statistics are printed: the record refers to a module that is
gone. -/
theorem not_accountsKept_dump :
    ¬ Always (memStep countingAllocator) AccountsKept (some MemStats.start)
      [.malloc (.ofArray (ascii "f")) 1 8 (some (some (.ofArray (ascii "dm")))), .dump 5 5] := by
  intro halways
  have hfinish := halways.finish
  have hreached := hfinish _ rfl
  obtain ⟨module, hmodule, -⟩ := hreached.tables _ List.mem_cons_self
  exact absurd hmodule List.not_mem_nil

end EnosDeviceSdk.Infra
