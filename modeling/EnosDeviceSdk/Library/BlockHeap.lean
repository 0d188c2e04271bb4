/-
# A heap of byte blocks

The blocks that are allocated, each with its bytes. An allocator hands out a block that is not in
use, with any bytes in it, or refuses. A block that is not in use is neither read nor written nor
given back, and a block is read and written inside its bytes only: everything else is astray.

The newest block stands in front, so the heap behind it is what the heap was before.
-/

import EnosDeviceSdk.Library.Reading

namespace EnosDeviceSdk.Library

/-- An allocator. What it answers may depend on the moment, on the blocks in use and on the
size. -/
structure BlockAllocator (ι : Type) where
  malloc : Nat → List ι → Nat → Option (ι × List UInt8)
  fresh : ∀ moment inUse size block bytes, malloc moment inUse size = some (block, bytes) →
    block ∉ inUse
  sized : ∀ moment inUse size block bytes, malloc moment inUse size = some (block, bytes) →
    bytes.length = size

/-- The blocks in use, how often the allocator was asked, and how often it refused. -/
structure BlockHeap (ι : Type) where
  blocks : List (ι × List UInt8)
  moment : Nat
  refused : Nat

namespace BlockHeap

variable {ι : Type} [DecidableEq ι]

/-- The names of the blocks in use. -/
def inUse (heap : BlockHeap ι) : List ι := heap.blocks.map Prod.fst

/-- A block is asked for. -/
def allocate (A : BlockAllocator ι) (heap : BlockHeap ι) (size : Nat) :
    Option ι × BlockHeap ι :=
  match A.malloc heap.moment heap.inUse size with
  | none => (none, ⟨heap.blocks, heap.moment + 1, heap.refused + 1⟩)
  | some (block, bytes) =>
      (some block, ⟨(block, bytes) :: heap.blocks, heap.moment + 1, heap.refused⟩)

/-- A block is given back. -/
def free (heap : BlockHeap ι) (block : ι) : Outcome (BlockHeap ι) :=
  if block ∈ heap.inUse then .ok { heap with blocks := heap.blocks.eraseP (·.1 = block) }
  else .stray

/-- The bytes of a block. -/
def contents (heap : BlockHeap ι) (block : ι) : Outcome (List UInt8) :=
  match heap.blocks.find? (·.1 = block) with
  | some (_, bytes) => .ok bytes
  | none => .stray

/-- So many bytes from a place in a block on. -/
def load (heap : BlockHeap ι) (block : ι) (place count : Nat) : Outcome (List UInt8) := do
  let bytes ← heap.contents block
  if place + count ≤ bytes.length then return (bytes.drop place).take count else .stray

/-- The blocks with other bytes in one of them. -/
def replaceIn (block : ι) (bytes : List UInt8) : List (ι × List UInt8) → List (ι × List UInt8)
  | [] => []
  | entry :: rest =>
      if entry.1 = block then (block, bytes) :: rest else entry :: replaceIn block bytes rest

/-- Bytes are written from a place in a block on. -/
def store (heap : BlockHeap ι) (block : ι) (place : Nat) (new : List UInt8) :
    Outcome (BlockHeap ι) := do
  let bytes ← heap.contents block
  if place + new.length ≤ bytes.length then
    return { heap with
      blocks := replaceIn block (bytes.take place ++ new ++ bytes.drop (place + new.length))
        heap.blocks }
  else .stray

variable {heap : BlockHeap ι} {block : ι} {bytes : List UInt8} {base : List (ι × List UInt8)}

omit [DecidableEq ι] in
theorem inUse_of_blocks (hblocks : heap.blocks = (block, bytes) :: base) :
    heap.inUse = block :: base.map Prod.fst := by
  rw [inUse, hblocks, List.map_cons]

/-- The newest block is the one in front. -/
theorem contents_front (hblocks : heap.blocks = (block, bytes) :: base) :
    heap.contents block = .ok bytes := by
  simp [contents, hblocks]

theorem contents_second {other : ι} {old : List UInt8} (hother : other ≠ block)
    (hblocks : heap.blocks = (other, old) :: (block, bytes) :: base) :
    heap.contents block = .ok bytes := by
  simp [contents, hblocks, hother]

theorem load_eq {place count : Nat} (hbytes : heap.contents block = .ok bytes)
    (hinside : place + count ≤ bytes.length) :
    heap.load block place count = .ok ((bytes.drop place).take count) := by
  rw [load, hbytes, Outcome.ok_bind, if_pos hinside]
  rfl

/-- What is written over as many bytes takes their place. -/
theorem store_front {front old back new : List UInt8}
    (hblocks : heap.blocks = (block, front ++ old ++ back) :: base)
    (hlength : new.length = old.length) :
    heap.store block front.length new =
      .ok { heap with blocks := (block, front ++ new ++ back) :: base } := by
  have hinside : front.length + new.length ≤ (front ++ old ++ back).length := by
    simp only [List.length_append]
    omega
  have htake : (front ++ old ++ back).take front.length = front := by
    rw [List.append_assoc, List.take_left]
  have hdrop : (front ++ old ++ back).drop (front.length + new.length) = back := by
    rw [hlength, ← List.length_append, List.drop_left]
  rw [store, contents_front hblocks, Outcome.ok_bind, if_pos hinside, htake, hdrop, hblocks,
    replaceIn, if_pos rfl]
  rfl

theorem free_front (hblocks : heap.blocks = (block, bytes) :: base) :
    heap.free block = .ok { heap with blocks := base } := by
  simp [free, inUse_of_blocks hblocks, hblocks]

theorem free_second {other : ι} {old : List UInt8} (hother : other ≠ block)
    (hblocks : heap.blocks = (other, old) :: (block, bytes) :: base) :
    heap.free block = .ok { heap with blocks := (other, old) :: base } := by
  simp [free, inUse_of_blocks hblocks, hblocks, hother]

omit [DecidableEq ι] in
/-- A request that is granted puts a block of the size in front of the others, and it is none of
them. One that is refused is counted, and leaves them as they are. -/
theorem allocate_cases (A : BlockAllocator ι) (heap : BlockHeap ι) (size : Nat) :
    heap.allocate A size = (none, ⟨heap.blocks, heap.moment + 1, heap.refused + 1⟩) ∨
      ∃ block bytes, block ∉ heap.inUse ∧ bytes.length = size ∧
        heap.allocate A size =
          (some block, ⟨(block, bytes) :: heap.blocks, heap.moment + 1, heap.refused⟩) := by
  cases hmalloc : A.malloc heap.moment heap.inUse size with
  | none =>
      left
      rw [allocate, hmalloc]
  | some granted =>
      obtain ⟨block, bytes⟩ := granted
      refine .inr ⟨block, bytes, A.fresh _ _ _ _ _ hmalloc, A.sized _ _ _ _ _ hmalloc, ?_⟩
      rw [allocate, hmalloc]

end BlockHeap

/-- An allocator that numbers its blocks and always has room. -/
def BlockAllocator.unbounded : BlockAllocator Nat where
  malloc _ inUse size := some (inUse.max?.getD 0 + 1, List.replicate size 0)
  fresh _ inUse _ _ _ hmalloc := by
    obtain ⟨rfl, -⟩ := Prod.mk.inj (Option.some.inj hmalloc)
    exact fun hmem => absurd (List.le_max?_getD_of_mem hmem) (Nat.not_succ_le_self _)
  sized _ _ _ _ _ hmalloc := by
    obtain ⟨-, rfl⟩ := Prod.mk.inj (Option.some.inj hmalloc)
    exact List.length_replicate

end EnosDeviceSdk.Library
