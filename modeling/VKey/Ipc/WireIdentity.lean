import VKey.Ipc.LexiconWireRoundTrip
import VKey.Ipc.WireReads

/-!
# What the payload of a publish determines

A reader compares the generation and the checksum of the wire with those of its last snapshot.
Blocks with the same payload have the same exclusions and the same words, because their regions are
zero behind what has been written.  The spell-suggest flag is in the header, and no checksum covers
it.
-/

namespace VKey

namespace WireMapping

open Seqlock Wire

variable {params params' : LexiconWireSerializeParams} {outBuffer outBuffer' buffer : Memory}

/-- The bytes of a block that its checksum covers. -/
def payloadOf (buffer : Memory) : List UInt8 := payload buffer (.load buffer)

/-! ## Regions behind what has been written -/

theorem block_exclusions_zero {a : Nat}
    (hlow : exclusionsRegionOffset + 2 * (lines params.spellExclusions).length ≤ a)
    (hhigh : a < userDictIndexOffset) : block params outBuffer a = 0 := by
  simp only [exclusionsRegionOffset, userDictIndexOffset] at hlow hhigh
  rw [block_of_ge (by simp only [wireHeaderSize]; omega), payloadBlock,
    Memory.write_of_lt (by simp only [userDictPoolOffset]; omega),
    Memory.write_of_lt (by simp only [userDictIndexOffset]; omega),
    Memory.write_of_ge (by rw [length_unitBytes]; simp only [exclusionsRegionOffset]; omega)]
  exact if_pos (by simp only [wireTotalSize]; omega)

theorem block_index_zero {a : Nat} (h : Serializable params)
    (hlow : userDictIndexOffset + 8 * (sortedWords params).length ≤ a)
    (hhigh : a < userDictPoolOffset) : block params outBuffer a = 0 := by
  have hunits := h.rowUnits
  simp only [userDictIndexOffset, userDictPoolOffset, maxExclusionsUtf16Units] at hlow hhigh hunits
  rw [block_of_ge (by simp only [wireHeaderSize]; omega), payloadBlock,
    Memory.write_of_lt (by simp only [userDictPoolOffset]; omega),
    Memory.write_of_ge (by
      rw [length_indexBytes, length_entriesFrom]
      simp only [userDictIndexOffset]
      omega),
    Memory.write_of_ge (by rw [length_unitBytes]; simp only [exclusionsRegionOffset]; omega)]
  exact if_pos (by simp only [wireTotalSize]; omega)

theorem readUnits_exclusions_part (k n : Nat) (hle : k + n ≤ (lines params.spellExclusions).length)
    (hunits : (lines params.spellExclusions).length ≤ maxExclusionsUtf16Units) :
    (block params outBuffer).readUnits (exclusionsRegionOffset + 2 * k) n =
      ((lines params.spellExclusions).drop k).take n := by
  have hread := Memory.readUnits_write (outBuffer.fill 0 wireTotalSize 0) exclusionsRegionOffset
    (lines params.spellExclusions) k n hle
  refine (Memory.readUnits_congr fun a hlow hhigh => ?_).trans hread
  simp only [exclusionsRegionOffset, maxExclusionsUtf16Units] at hlow hhigh hunits
  rw [block_of_ge (by simp only [wireHeaderSize]; omega), payloadBlock,
    Memory.write_of_lt (by simp only [userDictPoolOffset]; omega),
    Memory.write_of_lt (by simp only [userDictIndexOffset]; omega)]

theorem drop_lines {texts : List (List Char16)} (h : 0 < (lines texts).length) :
    (((lines texts).drop ((lines texts).length - 1)).take 1) = [newline] := by
  rcases List.eq_nil_or_concat texts with rfl | ⟨front, last, rfl⟩
  · exact absurd h (Nat.lt_irrefl 0)
  · have hlines : lines (front.concat last) = (lines front ++ last) ++ [newline] := by
      simp only [lines, joinLines, List.concat_eq_append, List.flatMap_append,
        List.flatMap_singleton, List.append_assoc]
    rw [hlines, List.length_append, List.length_singleton, Nat.add_sub_cancel,
      List.drop_left, List.take_one]
    rfl

/-! ## Blocks with the same payload -/

/-- Up to the end of the pool the blocks are the same. -/
structure SamePayload (params params' : LexiconWireSerializeParams)
    (buffer buffer' : Memory) : Prop where
  units : (lines (sortedWords params)).length = (lines (sortedWords params')).length
  bytes : ∀ a, wireHeaderSize ≤ a →
    a < userDictPoolOffset + 2 * (lines (sortedWords params)).length →
    buffer a = buffer' a

theorem samePayload_of_payloadOf (h : Serializable params) (h' : Serializable params')
    (hpayload : payloadOf (block params outBuffer) = payloadOf (block params' outBuffer')) :
    SamePayload params params' (block params outBuffer) (block params' outBuffer') := by
  rw [payloadOf, payloadOf, load_block h, load_block h'] at hpayload
  obtain ⟨hlength, hbytes⟩ := Memory.of_read_eq hpayload
  simp only [blockHeader, headerOf] at hlength hbytes
  refine ⟨by omega, fun a hlow hhigh => hbytes a hlow ?_⟩
  simp only [wireHeaderSize, userDictPoolOffset] at *
  omega

namespace SamePayload

theorem symm {buffer' : Memory} (h : SamePayload params params' buffer buffer') :
    SamePayload params' params buffer' buffer :=
  ⟨h.units.symm, fun a hlow hhigh => (h.bytes a hlow (h.units ▸ hhigh)).symm⟩

/-- The exclusions of the other block are not longer, since they end with a newline. -/
theorem exclusions_le (h : SamePayload params params' (block params outBuffer)
      (block params' outBuffer'))
    (hparams' : Serializable params') :
    (lines params'.spellExclusions).length ≤ (lines params.spellExclusions).length := by
  by_contra hlt
  have hunits' := hparams'.rowUnits
  simp only [maxExclusionsUtf16Units] at hunits'
  have hlast : (block params' outBuffer').readUnits
      (exclusionsRegionOffset + 2 * ((lines params'.spellExclusions).length - 1)) 1 =
        [newline] := by
    rw [readUnits_exclusions_part _ _ (by omega) hparams'.rowUnits]
    exact drop_lines (by omega)
  have hzero : (block params' outBuffer').readUnits
      (exclusionsRegionOffset + 2 * ((lines params'.spellExclusions).length - 1)) 1 =
        Memory.readUnits (fun _ => 0)
          (exclusionsRegionOffset + 2 * ((lines params'.spellExclusions).length - 1)) 1 := by
    refine Memory.readUnits_congr fun a hlow hhigh => ?_
    simp only [exclusionsRegionOffset] at hlow hhigh
    rw [← h.bytes a (by simp only [wireHeaderSize]; omega)
      (by simp only [userDictPoolOffset]; omega)]
    refine block_exclusions_zero ?_ ?_
    · simp only [exclusionsRegionOffset]
      omega
    · simp only [userDictIndexOffset]
      omega
  have hunit : newline = 0 := List.singleton_inj.mp (hlast.symm.trans hzero)
  exact absurd hunit (by decide)

/-- The other block has not more words, since no word is empty. -/
theorem wordCount_le (h : SamePayload params params' (block params outBuffer)
      (block params' outBuffer'))
    (hparams : Serializable params) (hparams' : Serializable params') :
    (sortedWords params').length ≤ (sortedWords params).length := by
  by_contra hlt
  have hcount' := hparams'.wordCount
  simp only [maxUserDictWords] at hcount'
  have hmem : DictWordEntryWire.load (block params' outBuffer')
      (userDictIndexOffset + 8 * (sortedWords params).length) ∈
        indexTable (block params' outBuffer') (sortedWords params').length :=
    List.mem_map.mpr ⟨_, List.mem_range.mpr (by omega), rfl⟩
  have hlength := (validEntries_block hparams' outBuffer' _ hmem).length.1
  have hzero : DictWordEntryWire.load (block params' outBuffer')
      (userDictIndexOffset + 8 * (sortedWords params).length) =
        DictWordEntryWire.load (fun _ => 0)
          (userDictIndexOffset + 8 * (sortedWords params).length) := by
    refine DictWordEntryWire.load_congr fun a hlow hhigh => ?_
    simp only [userDictIndexOffset] at hlow hhigh
    rw [← h.bytes a (by simp only [wireHeaderSize]; omega)
      (by simp only [userDictPoolOffset]; omega)]
    refine block_index_zero hparams ?_ ?_
    · simp only [userDictIndexOffset]
      omega
    · simp only [userDictPoolOffset]
      omega
  rw [hzero] at hlength
  exact absurd hlength (Nat.not_succ_le_zero 0)

theorem lines_eq (h : SamePayload params params' (block params outBuffer)
      (block params' outBuffer'))
    (hparams : Serializable params) (hparams' : Serializable params') :
    lines params.spellExclusions = lines params'.spellExclusions := by
  have hlength := Nat.le_antisymm (h.symm.exclusions_le hparams) (h.exclusions_le hparams')
  have hunits := hparams.rowUnits
  simp only [maxExclusionsUtf16Units] at hunits
  rw [← readUnits_exclusions hparams outBuffer (blockHeader params (blockCrc32 params outBuffer)),
    ← readUnits_exclusions hparams' outBuffer'
      (blockHeader params' (blockCrc32 params' outBuffer')), ← hlength]
  refine Memory.readUnits_congr fun a hlow hhigh => h.bytes a hlow ?_
  simp only [exclusionsRegionOffset, userDictPoolOffset] at *
  omega

theorem sortedWords_eq (h : SamePayload params params' (block params outBuffer)
      (block params' outBuffer'))
    (hparams : Serializable params) (hparams' : Serializable params') :
    sortedWords params = sortedWords params' := by
  have hlength := Nat.le_antisymm (h.symm.wordCount_le hparams' hparams)
    (h.wordCount_le hparams hparams')
  have hcount := hparams.wordCount
  simp only [maxUserDictWords] at hcount
  have htable : indexTable (block params outBuffer) (sortedWords params).length =
      indexTable (block params' outBuffer') (sortedWords params').length := by
    rw [indexTable, indexTable, ← hlength]
    refine List.map_congr_left fun i hi =>
      DictWordEntryWire.load_congr fun a hlow hhigh => h.bytes a ?_ ?_
    · simp only [userDictIndexOffset, wireHeaderSize] at *
      omega
    · have hi := List.mem_range.mp hi
      simp only [userDictIndexOffset, userDictPoolOffset] at *
      omega
  rw [← map_wordOf_block hparams outBuffer, ← map_wordOf_block hparams' outBuffer', ← htable]
  refine List.map_congr_left fun entry hentry =>
    Memory.readUnits_congr fun a hlow hhigh => h.bytes a ?_ ?_
  · simp only [userDictPoolOffset, wireHeaderSize] at *
    omega
  · have hinside := (validEntries_block hparams outBuffer entry hentry).inside
    omega

end SamePayload

/-! ## What is extracted -/

/-- The content of a block of parameters: an exclusion with a newline is more than one. -/
def paramsContent (params : LexiconWireSerializeParams) : LexiconWireContent where
  exclusions := (terminatedLines newline [] (lines params.spellExclusions)).filter (!·.isEmpty)
  userDict := sortedWords params
  generation := params.generation.toNat
  spellSuggestEnabled := params.spellSuggestEnabled

theorem contentOf_block (h : Serializable params) (outBuffer : Memory) (crc32 : Nat) :
    contentOf (block params outBuffer) (blockHeader params crc32) = paramsContent params := by
  have hdict :
    (contentOf (block params outBuffer) (blockHeader params crc32)).userDict = sortedWords params :=
    map_wordOf_block h outBuffer
  have hflag : (contentOf (block params outBuffer) (blockHeader params crc32)).spellSuggestEnabled =
      params.spellSuggestEnabled := by
    simp only [contentOf, blockHeader, headerOf]
    cases params.spellSuggestEnabled <;> decide
  have hexclusions : (contentOf (block params outBuffer) (blockHeader params crc32)).exclusions =
      (paramsContent params).exclusions := by
    rw [exclusions_contentOf, exclusionLines_block h]
    rfl
  have hfields : contentOf (block params outBuffer) (blockHeader params crc32) =
      ⟨(contentOf (block params outBuffer) (blockHeader params crc32)).exclusions,
        (contentOf (block params outBuffer) (blockHeader params crc32)).userDict,
          params.generation.toNat,
        (contentOf (block params outBuffer) (blockHeader params crc32)).spellSuggestEnabled⟩ := rfl
  rw [hfields, hdict, hflag, hexclusions]
  rfl

/-- The header of a block, up to the count. -/
theorem load_of_agreeOn (h : Serializable params)
    (hagree : AgreeOn Claimed buffer (block params outBuffer)) :
    LexiconWireHeader.load buffer =
      { blockHeader params (blockCrc32 params outBuffer) with
          seqlock := buffer.readLE seqlockOffset 4 } := by
  have hfield : ∀ k w, k + w ≤ seqlockOffset ∨ generationOffset ≤ k ∧ k + w ≤ wireTotalSize →
      buffer.readLE k w = (block params outBuffer).readLE k w := by
    intro k w hbounds
    refine congrArg decodeLE (Memory.read_congr fun a hlow hhigh => hagree a ?_)
    simp only [Claimed, seqlockOffset, generationOffset, wireTotalSize] at *
    omega
  rw [← load_block h outBuffer, LexiconWireHeader.load, LexiconWireHeader.load,
    hfield 0x00 4 (by decide),
    hfield 0x04 2 (by decide), hfield 0x06 2 (by decide), hfield 0x08 4 (by decide),
      hfield 0x10 8 (by decide),
    hfield 0x18 4 (by decide), hfield 0x1C 4 (by decide), hfield 0x20 4 (by decide),
      hfield 0x24 4 (by decide),
    hfield 0x28 4 (by decide), hfield 0x2C 4 (by decide), hfield 0x30 4 (by decide),
      hfield 0x34 4 (by decide),
    hfield 0x38 4 (by decide), hfield 0x3C 4 (by decide), hfield 0x40 4 (by decide),
      hfield 0x44 4 (by decide)]
  rfl

/-! ## Copies of a block -/

theorem eq_of_agreeOn (h : AgreeOn Claimed buffer (block params outBuffer)) {a : Nat}
    (hlow : wireHeaderSize ≤ a) (hhigh : a < wireTotalSize) :
    buffer a = block params outBuffer a := by
  refine h a ⟨hhigh, ?_⟩
  simp only [wireHeaderSize, seqlockOffset, generationOffset] at *
  omega

theorem exclusionLines_of_agreeOn (h : Serializable params)
    (hagree : AgreeOn Claimed buffer (block params outBuffer)) (crc32 : Nat) :
    exclusionLines buffer (blockHeader params crc32) =
      exclusionLines (block params outBuffer) (blockHeader params crc32) := by
  have hunits := h.rowUnits
  refine congrArg _ (Memory.readUnits_congr fun a hlow hhigh => eq_of_agreeOn hagree ?_ ?_)
  · simp only [blockHeader, headerOf, exclusionsRegionOffset, wireHeaderSize] at *
    omega
  · simp only [blockHeader, headerOf, exclusionsRegionOffset, wireTotalSize,
      maxExclusionsUtf16Units] at *
    omega

theorem indexTable_of_agreeOn (h : Serializable params)
    (hagree : AgreeOn Claimed buffer (block params outBuffer)) :
    indexTable buffer (sortedWords params).length =
      indexTable (block params outBuffer) (sortedWords params).length := by
  have hcount := h.wordCount
  refine List.map_congr_left fun i hi => DictWordEntryWire.load_congr fun a hlow hhigh =>
    eq_of_agreeOn hagree ?_ ?_
  · simp only [userDictIndexOffset, wireHeaderSize] at *
    omega
  · have hi := List.mem_range.mp hi
    simp only [userDictIndexOffset, wireTotalSize, maxUserDictWords] at *
    omega

theorem readUnits_pool_of_agreeOn (h : Serializable params)
    (hagree : AgreeOn Claimed buffer (block params outBuffer)) {k n : Nat}
    (hle : k + n ≤ (lines (sortedWords params)).length) :
    buffer.readUnits (userDictPoolOffset + 2 * k) n =
      (block params outBuffer).readUnits (userDictPoolOffset + 2 * k) n := by
  have hpool := h.wordUnits
  refine Memory.readUnits_congr fun a hlow hhigh => eq_of_agreeOn hagree ?_ ?_
  · simp only [userDictPoolOffset, wireHeaderSize] at *
    omega
  · simp only [userDictPoolOffset, wireTotalSize, maxUserDictUtf16Units] at *
    omega

/-- The entries of a copy are those of the block. -/
theorem validEntry_of_agreeOn (h : Serializable params)
    (hagree : AgreeOn Claimed buffer (block params outBuffer)) {entry : DictWordEntryWire}
    (hentry : entry ∈ indexTable (block params outBuffer) (sortedWords params).length) :
    wordOf buffer entry = wordOf (block params outBuffer) entry ∧
      ValidEntry buffer (lines (sortedWords params)).length entry := by
  have hvalid := validEntries_block h outBuffer entry hentry
  have hinside := hvalid.inside
  have hword : wordOf buffer entry = wordOf (block params outBuffer) entry :=
    readUnits_pool_of_agreeOn h hagree (by omega)
  have hunit : [poolUnit buffer (entry.offsetUnits + entry.lengthUtf16Units)] =
      [poolUnit (block params outBuffer) (entry.offsetUnits + entry.lengthUtf16Units)] :=
    readUnits_pool_of_agreeOn (n := 1) h hagree (by omega)
  refine ⟨hword, hvalid.offset, hinside, ?_, hvalid.length, ?_, ?_⟩
  · rw [List.singleton_inj.mp hunit]
    exact hvalid.delimiter
  · rw [hword]
    exact hvalid.word
  · rw [hword]
    exact hvalid.scalarCount

theorem map_wordOf_of_agreeOn (h : Serializable params)
    (hagree : AgreeOn Claimed buffer (block params outBuffer)) :
    (indexTable buffer (sortedWords params).length).map (wordOf buffer) = sortedWords params := by
  refine Eq.trans ?_ (map_wordOf_block h outBuffer)
  rw [indexTable_of_agreeOn h hagree]
  exact List.map_congr_left fun entry hentry => (validEntry_of_agreeOn h hagree hentry).1

theorem validHeader_of_agreeOn (h : Serializable params)
    (hagree : AgreeOn Claimed buffer (block params outBuffer)) (size : SizeT) :
    ValidHeader size (.load buffer) := by
  rw [load_of_agreeOn h hagree]
  obtain ⟨h1, h2, h3, h4, h5, h6, h7, h8, h9, h10, h11, h12, h13, h14, h15, h16⟩ :=
    h.validHeader size (blockCrc32 params outBuffer)
  exact ⟨h1, h2, h3, h4, h5, h6, h7, h8, h9, h10, h11, h12, h13, h14, h15, h16⟩

/-- A copy of a block is accepted, if no exclusion contains a newline. -/
theorem validBlock_of_agreeOn (h : Serializable params)
    (hagree : AgreeOn Claimed buffer (block params outBuffer))
    (hrows : ∀ row ∈ params.spellExclusions, newline ∉ row) (size : SizeT) :
    ValidBlock size buffer (.load buffer) := by
  have hblock := (validBlock_block_iff h size outBuffer).mpr hrows
  rw [load_block h] at hblock
  have hpool := h.wordUnits
  have hpayload : payload buffer (blockHeader params (blockCrc32 params outBuffer)) =
      payload (block params outBuffer) (blockHeader params (blockCrc32 params outBuffer)) := by
    refine Memory.read_congr fun a hlow hhigh => eq_of_agreeOn hagree hlow ?_
    simp only [blockHeader, headerOf, userDictPoolOffset, wireHeaderSize, wireTotalSize,
      maxUserDictUtf16Units] at *
    omega
  have hvalid := validHeader_of_agreeOn h hagree size
  rw [load_of_agreeOn h hagree] at hvalid ⊢
  refine ⟨hvalid,
    (congrArg (fun bytes => (computeCrc32 bytes).toNat) hpayload).trans hblock.crc32, ?_, ?_, ?_⟩
  · have hexclusions := hblock.exclusions
    rw [ValidExclusions, ← exclusionLines_of_agreeOn h hagree] at hexclusions
    exact hexclusions
  · show ∀ entry ∈ indexTable buffer (sortedWords params).length, _
    rw [indexTable_of_agreeOn h hagree]
    exact fun entry hentry => (validEntry_of_agreeOn h hagree hentry).2
  · show Wire.Ascending ((indexTable buffer (sortedWords params).length).map (wordOf buffer))
    rw [map_wordOf_of_agreeOn h hagree]
    exact pairwise_sortUnique _

/-- A copy of a block has its content. -/
theorem extract_of_agreeOn (h : Serializable params)
    (hagree : AgreeOn Claimed buffer (block params outBuffer)) :
    (extract buffer (viewOf (.load buffer))).value = paramsContent params := by
  have hcontent : ∀ memory, contentOf memory
      { blockHeader params (blockCrc32 params outBuffer) with
          seqlock := buffer.readLE seqlockOffset 4 } =
        ⟨(exclusionLines memory (blockHeader params (blockCrc32 params outBuffer))).filter
          (!·.isEmpty),
          (indexTable memory (sortedWords params).length).map (wordOf memory), _, _⟩ := fun _ => rfl
  rw [value_extract (validHeader_of_agreeOn h hagree .bits64), load_of_agreeOn h hagree, hcontent,
    exclusionLines_of_agreeOn h hagree, map_wordOf_of_agreeOn h hagree,
    ← contentOf_block h outBuffer (blockCrc32 params outBuffer)]
  have hdict : (contentOf (block params outBuffer)
    (blockHeader params (blockCrc32 params outBuffer))).userDict =
      sortedWords params := map_wordOf_block h outBuffer
  rw [← hdict]
  rfl

end WireMapping

end VKey
