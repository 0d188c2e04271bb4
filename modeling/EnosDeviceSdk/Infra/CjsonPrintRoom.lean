/-
# The room in the print buffer

Between two functions of the printer the buffer holds a text, and there is at least one more byte
behind it. A function asks for room, writes into it piece by piece, and moves the offset or leaves
that to whoever called it. The blocks that were in use before stay behind the buffer's.

A function gives up only when an allocation is refused, which the heap counts, or the text gets
longer than a size may be. That it is easy to print is a statement of the caller's that rules out
the latter.
-/

import EnosDeviceSdk.Infra.CjsonPrint

namespace EnosDeviceSdk.Infra.Printer

open EnosDeviceSdk.Library

variable {ι : Type} {A : BlockAllocator ι}

/-- The heap as it was before, the way of printing, and the nesting. -/
structure Setting (ι : Type) where
  base : BlockHeap ι
  format : Bool
  depth : Nat

/-- The setting inside of a nesting. -/
def Setting.deeper (S : Setting ι) : Setting ι := { S with depth := S.depth + 1 }

/-- The buffer is the newest block, these are its bytes, and no request has been refused. -/
structure PrintBuffer.Owns (p : PrintBuffer ι) (base : BlockHeap ι) (block : ι)
    (bytes : List UInt8) : Prop where
  buffer : p.buffer = some block
  blocks : p.heap.blocks = (block, bytes) :: base.blocks
  granted : p.heap.refused = base.refused
  length : p.length = bytes.length
  small : bytes.length ≤ intMaxSize
  noalloc : p.noalloc = false

/-- The buffer holds the text, with room for a byte behind it. -/
structure Holds (S : Setting ι) (text : List UInt8) (p : PrintBuffer ι) : Prop where
  owns : ∃ block behind, behind ≠ [] ∧ p.Owns S.base block (text ++ behind)
  offset : p.offset = text.length
  format : p.format = S.format
  depth : p.depth = S.depth

/-- Behind the text some bytes were written, and there is room for so many more and one. -/
structure Room (S : Setting ι) (text done : List UInt8) (room : Nat) (block : ι)
    (p : PrintBuffer ι) : Prop where
  owns : ∃ behind, room < behind.length ∧ p.Owns S.base block (text ++ done ++ behind)
  offset : p.offset = text.length
  format : p.format = S.format
  depth : p.depth = S.depth

/-- Behind the text stands another one with a terminator. The offset is somewhere in it. -/
structure Shows (S : Setting ι) (text more : List UInt8) (p : PrintBuffer ι) : Prop where
  owns : ∃ block behind, behind ≠ [] ∧ p.Owns S.base block (text ++ more ++ 0 :: behind)
  offset : text.length ≤ p.offset ∧ p.offset ≤ text.length + more.length
  format : p.format = S.format
  depth : p.depth = S.depth

/-- A request was refused, if it was easy, and the buffer is the only block besides the earlier
ones, if it is still there. -/
structure Dropped (base : BlockHeap ι) (easy : Prop) (p : PrintBuffer ι) : Prop where
  refused : easy → base.refused < p.heap.refused
  blocks : (p.buffer = none ∧ p.heap.blocks = base.blocks) ∨
    ∃ block bytes, p.buffer = some block ∧ p.heap.blocks = (block, bytes) :: base.blocks

variable {S : Setting ι} {text done more bytes : List UInt8} {room needed : Nat} {block : ι}
  {p : PrintBuffer ι} {easy astray : Prop}

theorem PrintBuffer.Owns.dropped {base : BlockHeap ι} (howns : p.Owns base block bytes)
    (hnot : ¬easy) : Dropped base easy p :=
  ⟨fun h => absurd h hnot, .inr ⟨block, bytes, howns.buffer, howns.blocks⟩⟩

theorem Holds.dropped (hholds : Holds S text p) (hnot : ¬easy) : Dropped S.base easy p := by
  obtain ⟨block, behind, -, howns⟩ := hholds.owns
  exact howns.dropped hnot

/-- What was written last may be written over. -/
theorem Room.back (hroom : Room S text (done ++ bytes) room block p) :
    Room S text done (room + bytes.length) block p := by
  obtain ⟨behind, hbehind, howns⟩ := hroom.owns
  refine ⟨⟨bytes ++ behind, ?_, ?_⟩, hroom.offset, hroom.format, hroom.depth⟩
  · rw [List.length_append]
    omega
  · simpa using howns

theorem Room.less {less : Nat} (hroom : Room S text done room block p) (hless : less ≤ room) :
    Room S text done less block p := by
  obtain ⟨behind, hbehind, howns⟩ := hroom.owns
  exact ⟨⟨behind, by omega, howns⟩, hroom.offset, hroom.format, hroom.depth⟩

/-- A text with its terminator behind it is there to be seen. -/
theorem Room.shows (hroom : Room S text (more ++ [0]) room block p) : Shows S text more p := by
  obtain ⟨behind, hbehind, howns⟩ := hroom.owns
  have hoffset := hroom.offset
  refine ⟨⟨block, behind, List.ne_nil_of_length_pos (by omega), ?_⟩, by omega, hroom.format,
    hroom.depth⟩
  simpa using howns

/-- What stands in front of the text that is shown may be seen as a part of it. -/
theorem Shows.extend {front : List UInt8} (hshows : Shows S (text ++ front) more p) :
    Shows S text (front ++ more) p := by
  obtain ⟨block, behind, hbehind, howns⟩ := hshows.owns
  have hoffset := hshows.offset
  rw [List.length_append] at hoffset
  refine ⟨⟨block, behind, hbehind, ?_⟩, ?_, hshows.format, hshows.depth⟩
  · simpa using howns
  · rw [List.length_append]
    omega

/-- The offset moves behind what was written. -/
theorem Room.moved (hroom : Room S text done room block p) {count : Nat}
    (hcount : count = done.length) :
    Holds S (text ++ done) { p with offset := p.offset + count } := by
  obtain ⟨behind, hbehind, howns⟩ := hroom.owns
  refine ⟨⟨block, behind, List.ne_nil_of_length_pos (by omega), ?_⟩, ?_, hroom.format, hroom.depth⟩
  · exact ⟨howns.buffer, howns.blocks, howns.granted, howns.length, howns.small, howns.noalloc⟩
  · rw [hroom.offset, hcount, List.length_append]

/-- The number that was printed is shown with the offset at its end. -/
theorem Shows.moved (hshows : Shows S text more p) (hoffset : p.offset = text.length) {count : Nat}
    (hcount : count = more.length) : Shows S text more { p with offset := p.offset + count } := by
  obtain ⟨block, behind, hbehind, howns⟩ := hshows.owns
  refine ⟨⟨block, behind, hbehind, ?_⟩, ?_, hshows.format, hshows.depth⟩
  · exact ⟨howns.buffer, howns.blocks, howns.granted, howns.length, howns.small, howns.noalloc⟩
  · dsimp only
    omega

/-- A nesting is entered. -/
theorem Holds.entered (hholds : Holds S text p) :
    Holds S.deeper text { p with depth := p.depth + 1 } := by
  obtain ⟨block, behind, hbehind, howns⟩ := hholds.owns
  refine ⟨⟨block, behind, hbehind, ?_⟩, hholds.offset, hholds.format, ?_⟩
  · exact ⟨howns.buffer, howns.blocks, howns.granted, howns.length, howns.small, howns.noalloc⟩
  · rw [hholds.depth]
    rfl

theorem Room.entered (hroom : Room S text done room block p) :
    Room S.deeper text done room block { p with depth := p.depth + 1 } := by
  obtain ⟨behind, hbehind, howns⟩ := hroom.owns
  refine ⟨⟨behind, hbehind, ?_⟩, hroom.offset, hroom.format, ?_⟩
  · exact ⟨howns.buffer, howns.blocks, howns.granted, howns.length, howns.small, howns.noalloc⟩
  · rw [hroom.depth]
    rfl

/-- A nesting is left. -/
theorem Shows.left (hshows : Shows S.deeper text more p) :
    Shows S text more { p with depth := p.depth - 1 } := by
  obtain ⟨block, behind, hbehind, howns⟩ := hshows.owns
  refine ⟨⟨block, behind, hbehind, ?_⟩, hshows.offset, hshows.format, ?_⟩
  · exact ⟨howns.buffer, howns.blocks, howns.granted, howns.length, howns.small, howns.noalloc⟩
  · rw [hshows.depth]
    rfl

/-- What is shown is held by the same buffer up to the text before. -/
theorem Shows.text_length (hshows : Shows S text more p) :
    text.length + more.length + 2 ≤ intMaxSize := by
  obtain ⟨block, behind, hbehind, howns⟩ := hshows.owns
  have hpositive := List.length_pos_iff.mpr hbehind
  have hsmall := howns.small
  simp only [List.length_append, List.length_cons] at hsmall
  omega

variable [DecidableEq ι]

/-- The length of what was written is counted. -/
theorem updateOffset_meets {dropped : PrintBuffer ι → Prop} (hshows : Shows S text more p)
    (hmore : 0 ∉ more) :
    (updateOffset : Printing ι PUnit).Meets p (fun _ q => Holds S (text ++ more) q) dropped
      astray := by
  obtain ⟨block, behind, hbehind, howns⟩ := hshows.owns
  have hcontents := BlockHeap.contents_front howns.blocks
  have hseen : ∃ length, length = arrayStrlen ((text ++ more ++ 0 :: behind).drop p.offset) ∧
      0 ∈ (text ++ more ++ 0 :: behind).drop p.offset ∧
        p.offset + length = (text ++ more).length := by
    refine ⟨_, rfl, ?_⟩
    obtain ⟨count, hcount⟩ : ∃ count, p.offset = text.length + count :=
      ⟨p.offset - text.length, by have := hshows.offset; omega⟩
    have hinside : count ≤ more.length := by
      have hend := hshows.offset.2
      omega
    have hdrop : (text ++ more ++ 0 :: behind).drop p.offset = more.drop count ++ 0 :: behind := by
      rw [hcount, List.append_assoc, ← List.drop_drop, List.drop_left,
        List.drop_append_of_le_length hinside]
    have hstring : arrayText (more.drop count ++ 0 :: behind) = more.drop count := by
      rw [arrayText_append (fun hzero => hmore (List.mem_of_mem_drop hzero))]
      simp [arrayText]
    rw [hdrop, arrayStrlen, hstring, hcount, List.length_drop, List.length_append]
    exact ⟨by simp, by omega⟩
  obtain ⟨length, hlength, hzero, hoffset⟩ := hseen
  have hupdate : updateOffset p =
      .ok (some ⟨⟩, { p with offset := p.offset + length }) := by
    simp only [updateOffset, Attempt.attempt, howns.buffer, hcontents, Outcome.ok_bind,
      if_pos hzero, Outcome.pure_eq, ← hlength]
  apply Attempt.meets_of_eq hupdate
  refine ⟨⟨block, 0 :: behind, List.cons_ne_nil _ _, ?_⟩, hoffset, hshows.format, hshows.depth⟩
  exact ⟨howns.buffer, howns.blocks, howns.granted, howns.length, howns.small, howns.noalloc⟩

/-- The memory after bytes are written over as many others. -/
theorem write_eq {base : List (ι × List UInt8)} {front old back : List UInt8}
    (hblocks : p.heap.blocks = (block, front ++ old ++ back) :: base)
    (hlength : bytes.length = old.length) {place : Nat} (hplace : place = front.length) :
    write ⟨block, place⟩ bytes p = .ok (some ⟨⟩, { p with
      heap := { p.heap with blocks := (block, front ++ bytes ++ back) :: base } }) := by
  have hstore := BlockHeap.store_front hblocks hlength
  rw [← hplace] at hstore
  simp only [write, Attempt.attempt, hstore, Outcome.ok_bind, Outcome.pure_eq]

/-- Bytes are written into the room behind those that are there already. -/
theorem write_meets {dropped : PrintBuffer ι → Prop} (hroom : Room S text done room block p)
    {place : Nat} (hplace : place = text.length + done.length) (left : Nat)
    (hleft : bytes.length + left ≤ room) :
    (write ⟨block, place⟩ bytes).Meets p (fun _ q => Room S text (done ++ bytes) left block q)
      dropped astray := by
  obtain ⟨behind, hbehind, howns⟩ := hroom.owns
  have hsplit : p.heap.blocks = (block, text ++ done ++ behind.take bytes.length ++
      behind.drop bytes.length) :: S.base.blocks := by
    rw [List.append_assoc (text ++ done), List.take_append_drop]
    exact howns.blocks
  have htake : bytes.length = (behind.take bytes.length).length := by
    rw [List.length_take]
    omega
  apply Attempt.meets_of_eq (write_eq hsplit htake (by rw [hplace, List.length_append]))
  refine ⟨⟨behind.drop bytes.length, ?_, ?_⟩, hroom.offset, hroom.format, hroom.depth⟩
  · rw [List.length_drop]
    omega
  · have hsame : (text ++ done ++ behind).length =
        (text ++ (done ++ bytes) ++ behind.drop bytes.length).length := by
      simp only [List.length_append, List.length_drop]
      omega
    refine ⟨howns.buffer, ?_, howns.granted, howns.length.trans hsame, hsame ▸ howns.small,
      howns.noalloc⟩
    simp

/-- The memory after a block is given back. -/
theorem deallocate_eq {heap : BlockHeap ι} (hfree : p.heap.free block = .ok heap) :
    deallocate block p = .ok (some ⟨⟩, { p with heap := heap }) := by
  simp only [deallocate, Attempt.attempt, hfree, Outcome.ok_bind, Outcome.pure_eq]

/-- The beginning of the second block is copied to the beginning of the first. -/
theorem copyBlock_eq {base : List (ι × List UInt8)} {target : ι} {fresh : List UInt8}
    (htarget : target ≠ block)
    (hblocks : p.heap.blocks = (target, fresh) :: (block, bytes) :: base) {count : Nat}
    (hsource : count ≤ bytes.length) (hfresh : count ≤ fresh.length) :
    copyBlock target block count p = .ok (some ⟨⟩, { p with
      heap := { p.heap with
        blocks := (target, bytes.take count ++ fresh.drop count) ::
          (block, bytes) :: base } }) := by
  have hload : p.heap.load block 0 count = .ok ((bytes.drop 0).take count) :=
    BlockHeap.load_eq (BlockHeap.contents_second htarget hblocks) (by omega)
  have hsplit : p.heap.blocks =
      (target, [] ++ fresh.take count ++ fresh.drop count) :: (block, bytes) :: base := by
    rw [List.nil_append, List.take_append_drop]
    exact hblocks
  have hlength : (bytes.take count).length = (fresh.take count).length := by
    simp only [List.length_take]
    omega
  have hstore := BlockHeap.store_front hsplit hlength
  rw [List.drop_zero] at hload
  simp only [copyBlock, Attempt.attempt, hload, Outcome.ok_bind, Outcome.pure_eq]
  rw [List.length_nil, List.nil_append] at hstore
  rw [hstore, Outcome.ok_bind, Outcome.ok_bind]

/-- A larger buffer takes the place of the one before, with the same text. -/
theorem growBuffer_meets {behind : List UInt8} (howns : p.Owns S.base block (text ++ behind))
    (hbehind : behind ≠ []) (hoffset : p.offset = text.length) (hformat : p.format = S.format)
    (hdepth : p.depth = S.depth) {newsize : Nat} (hsmall : newsize ≤ intMaxSize)
    (hfits : text.length + needed + 1 ≤ newsize) :
    (growBuffer A block newsize).Meets p
      (fun output q => ∃ block, output = ⟨block, text.length⟩ ∧ Room S text [] needed block q)
      (Dropped S.base easy) astray := by
  have hpositive := List.length_pos_iff.mpr hbehind
  unfold growBuffer
  apply Attempt.meets_look_bind
  rcases BlockHeap.allocate_cases A p.heap newsize with
    hheap | ⟨newblock, fresh, hnew, hsize, hheap⟩
  · have hallocate : allocate A newsize p = .ok (some none,
        { p with heap := ⟨p.heap.blocks, p.heap.moment + 1, p.heap.refused + 1⟩ }) := by
      simp only [allocate, Attempt.attempt, hheap, Outcome.ok_bind, Outcome.pure_eq]
    have hfree : BlockHeap.free ⟨p.heap.blocks, p.heap.moment + 1, p.heap.refused + 1⟩ block =
        .ok ⟨S.base.blocks, p.heap.moment + 1, p.heap.refused + 1⟩ :=
      BlockHeap.free_front howns.blocks
    have hcounted : S.base.refused < p.heap.refused + 1 := by
      rw [howns.granted]
      exact Nat.lt_succ_self _
    apply Attempt.meets_bind_of_eq hallocate
    dsimp only
    apply Attempt.meets_bind_of_eq (deallocate_eq hfree)
    apply Attempt.meets_bind_of_eq rfl
    exact Attempt.meets_giveUp ⟨fun _ => hcounted, .inl ⟨rfl, rfl⟩⟩
  · have hother : newblock ≠ block := by
      rintro rfl
      rw [BlockHeap.inUse_of_blocks howns.blocks] at hnew
      exact hnew List.mem_cons_self
    have hallocate : allocate A newsize p = .ok (some (some newblock),
        { p with
          heap := ⟨(newblock, fresh) :: p.heap.blocks, p.heap.moment + 1, p.heap.refused⟩ }) := by
      simp only [allocate, Attempt.attempt, hheap, Outcome.ok_bind, Outcome.pure_eq]
    have hsource : p.offset + 1 ≤ (text ++ behind).length := by
      rw [hoffset, List.length_append]
      omega
    have hkept : (text ++ behind).take (p.offset + 1) = text ++ behind.take 1 := by
      rw [hoffset, List.take_length_add_append]
    have hblocks : (newblock, fresh) :: p.heap.blocks =
        (newblock, fresh) :: (block, text ++ behind) :: S.base.blocks := by rw [howns.blocks]
    apply Attempt.meets_bind_of_eq hallocate
    dsimp only
    apply Attempt.meets_bind_of_eq (copyBlock_eq hother hblocks hsource (by omega))
    apply Attempt.meets_bind_of_eq (deallocate_eq (BlockHeap.free_second hother rfl))
    apply Attempt.meets_bind_of_eq rfl
    apply Attempt.meets_pure
    refine ⟨newblock, by rw [← hoffset], ⟨behind.take 1 ++ fresh.drop (p.offset + 1), ?_, ?_⟩,
      hoffset, hformat, hdepth⟩
    · simp only [List.length_append, List.length_take, List.length_drop]
      omega
    · have hbytes : text ++ [] ++ (behind.take 1 ++ fresh.drop (p.offset + 1)) =
          (text ++ behind).take (p.offset + 1) ++ fresh.drop (p.offset + 1) := by
        rw [hkept, List.append_nil, List.append_assoc]
      have hnewsize : newsize = (text ++ [] ++
          (behind.take 1 ++ fresh.drop (p.offset + 1))).length := by
        simp only [List.length_append, List.length_nil, List.length_take, List.length_drop]
        omega
      rw [hnewsize] at hsmall
      refine ⟨rfl, ?_, howns.granted, hnewsize, hsmall, howns.noalloc⟩
      rw [hbytes]

/-- The buffer has room or gets it, unless that is not easy. -/
theorem ensure_meets (hholds : Holds S text p)
    (heasy : easy → text.length + needed + 1 ≤ intMaxSize) :
    (ensure A needed).Meets p
      (fun output q => ∃ block, output = ⟨block, text.length⟩ ∧ Room S text [] needed block q)
      (Dropped S.base easy) astray := by
  obtain ⟨block, behind, hbehind, howns⟩ := hholds.owns
  have hoffset := hholds.offset
  have hlength := howns.length
  have hpositive := List.length_pos_iff.mpr hbehind
  have hgrow : ∀ newsize, newsize ≤ intMaxSize → text.length + needed + 1 ≤ newsize →
      (growBuffer A block newsize).Meets p
        (fun output q => ∃ block, output = ⟨block, text.length⟩ ∧ Room S text [] needed block q)
        (Dropped S.base easy) astray := fun newsize hsmall hfits =>
    growBuffer_meets howns hbehind hoffset hholds.format hholds.depth hsmall hfits
  have hrefuse : intMaxSize < needed + text.length + 1 → Dropped S.base easy p := by
    intro hlong
    apply howns.dropped
    intro h
    have hsmall := heasy h
    omega
  rw [List.length_append] at hlength
  unfold ensure
  apply Attempt.meets_look_bind
  rw [howns.buffer, hoffset, howns.noalloc]
  dsimp only
  rw [if_neg (by omega)]
  by_cases hhuge : intMaxSize < needed
  · rw [if_pos hhuge]
    exact Attempt.meets_giveUp (hrefuse (by omega))
  rw [if_neg hhuge]
  by_cases hinside : needed + text.length + 1 ≤ p.length
  · rw [if_pos hinside]
    apply Attempt.meets_pure
    exact ⟨block, rfl, ⟨behind, by omega, by simpa using howns⟩, hoffset, hholds.format,
      hholds.depth⟩
  rw [if_neg hinside, if_neg (by simp)]
  by_cases hlong : intMaxSize < needed + text.length + 1
  · rw [if_pos hlong]
    exact Attempt.meets_giveUp (hrefuse hlong)
  rw [if_neg hlong]
  by_cases hhalf : intMaxSize / 2 < needed + text.length + 1
  · rw [if_pos hhalf]
    exact hgrow _ (Nat.le_refl _) (by omega)
  · rw [if_neg hhalf]
    exact hgrow _ (by omega) (by omega)

end EnosDeviceSdk.Infra.Printer
