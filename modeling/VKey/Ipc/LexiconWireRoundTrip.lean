import VKey.Ipc.LexiconWireSound

/-!
# What is serialized is read back

The validator accepts a serialized block unless a row contains a newline: such a row is written as
it is, and the reader finds more lines than the header declares rows.
-/

namespace VKey

namespace Wire

variable {params : LexiconWireSerializeParams}

/-! ## The words of a block -/

theorem validEntry_of_locates (h : Serializable params) {outBuffer : Memory}
    {entry : DictWordEntryWire} {word : List Char16} (hmem : word ∈ sortedWords params)
    (hlocates : entry.Locates (lines (sortedWords params)) word) :
    ValidEntry (block params outBuffer) (lines (sortedWords params)).length entry := by
  obtain ⟨hword, hdelimiter⟩ := wordOf_block outBuffer hlocates
  obtain ⟨hlength, hscalars, hle, -⟩ := hlocates
  have hadmissible := h.words word hmem
  exact
    { offset := by omega
      inside := by omega
      delimiter := hdelimiter
      length := hlength ▸ ⟨hadmissible.length_pos, hadmissible.length_le⟩
      word := hword.symm ▸ hadmissible
      scalarCount := by rw [hword, hscalars] }

theorem map_wordOf_block (h : Serializable params) (outBuffer : Memory) :
    (indexTable (block params outBuffer) (sortedWords params).length).map
      (wordOf (block params outBuffer)) = sortedWords params := by
  have hwords : List.Forall₂ (fun entry word => wordOf (block params outBuffer) entry = word)
      (entriesFrom 0 (sortedWords params)) (sortedWords params) :=
    (forall₂_entriesFrom [] (sortedWords params)).imp fun _ _ hlocates =>
      (wordOf_block outBuffer hlocates).1
  rw [indexTable_block h]
  rw [← List.forall₂_map_left_iff, List.forall₂_eq_eq_eq] at hwords
  exact hwords

theorem validEntries_block (h : Serializable params) (outBuffer : Memory) :
    ∀ entry ∈ indexTable (block params outBuffer) (sortedWords params).length,
      ValidEntry (block params outBuffer) (lines (sortedWords params)).length entry := by
  rw [indexTable_block h]
  intro entry hentry
  have hlocates := forall₂_entriesFrom [] (sortedWords params)
  obtain ⟨i, hi, rfl⟩ := List.mem_iff_getElem.mp hentry
  exact validEntry_of_locates h (List.getElem_mem _)
    (hlocates.get hi (by simpa using hi))

/-! ## The rows of a block -/

theorem exclusionLines_block (h : Serializable params) (outBuffer : Memory) (crc32 : Nat) :
    exclusionLines (block params outBuffer) (blockHeader params crc32) =
      terminatedLines newline [] (lines params.spellExclusions) :=
  congrArg _ (readUnits_exclusions h outBuffer _)

/-- The rows are accepted exactly if none contains a newline. -/
theorem validExclusions_block_iff (h : Serializable params) (outBuffer : Memory) (crc32 : Nat) :
    ValidExclusions (block params outBuffer) (blockHeader params crc32) ↔
      ∀ row ∈ params.spellExclusions, newline ∉ row := by
  have hcount : (blockHeader params crc32).exclusionsRowCount = params.spellExclusions.length := rfl
  unfold ValidExclusions
  rw [exclusionLines_block h, hcount]
  constructor
  · intro hvalid row hrow
    obtain ⟨-, hlength⟩ := hvalid (List.length_pos_of_mem hrow)
    rw [length_terminatedLines] at hlength
    exact notMem_of_count_joinLines hlength row hrow
  · intro hrows _
    rw [terminatedLines_joinLines hrows]
    exact ⟨h.rows, rfl⟩

/-! ## The round trip -/

theorem deserialize_eq_ok {size : SizeT} {wireBuffer : Memory} {bufferSize : Nat}
    {content : Logged LexiconWireContent} :
    deserialize size wireBuffer bufferSize = .ok content ↔
      wireTotalSize ≤ bufferSize ∧ ValidBlock size wireBuffer (.load wireBuffer) ∧
        extract wireBuffer (viewOf (.load wireBuffer)) = content := by
  unfold deserialize
  rw [except_bind_eq_ok]
  constructor
  · rintro ⟨view, hview, hcontent⟩
    obtain ⟨hsize, hblock, rfl⟩ := validateAndInspect_eq_ok.mp hview
    exact ⟨hsize, hblock, Except.ok.inj hcontent⟩
  · rintro ⟨hsize, hblock, rfl⟩
    exact ⟨_, validateAndInspect_eq_ok.mpr ⟨hsize, hblock, rfl⟩, rfl⟩

theorem validBlock_block_iff (h : Serializable params) (size : SizeT) (outBuffer : Memory) :
    ValidBlock size (block params outBuffer) (.load (block params outBuffer)) ↔
      ∀ row ∈ params.spellExclusions, newline ∉ row := by
  rw [load_block h, ← validExclusions_block_iff h outBuffer (blockCrc32 params outBuffer)]
  refine ⟨ValidBlock.exclusions, fun hexclusions => ?_⟩
  exact
    { valid := h.validHeader size _
      crc32 := congrArg (fun bytes => (computeCrc32 bytes).toNat)
        (payload_write_header (blockHeader params (blockCrc32 params outBuffer)) (Nat.le_refl _))
      exclusions := hexclusions
      entries := validEntries_block h outBuffer
      ascending := by
        rw [show (blockHeader params (blockCrc32 params outBuffer)).userDictWordCount =
          (sortedWords params).length from rfl, map_wordOf_block h]
        exact pairwise_sortUnique _ }

/-- The content that parameters stand for: the exclusions in their order, and the words of the
dictionary in increasing order, each of them once. -/
structure Represents (params : LexiconWireSerializeParams)
    (content : LexiconWireContent) : Prop where
  exclusions : content.exclusions = params.spellExclusions
  words : ∀ word, word ∈ content.userDict ↔ word ∈ params.userDictionary
  ascending : content.userDict.Pairwise fun a b => compareUtf16ByUnicodeScalar a b = .lt
  generation : content.generation = params.generation.toNat
  spellSuggestEnabled : content.spellSuggestEnabled = params.spellSuggestEnabled

theorem represents_contentOf (h : Serializable params) (outBuffer : Memory) (crc32 : Nat)
    (hrows : ∀ row ∈ params.spellExclusions, newline ∉ row) :
    Represents params (contentOf (block params outBuffer) (blockHeader params crc32)) := by
  have hdict : (contentOf (block params outBuffer) (blockHeader params crc32)).userDict =
      sortedWords params := map_wordOf_block h outBuffer
  refine ⟨?_, ?_, ?_, rfl, ?_⟩
  · rw [contentOf, exclusionLines_block h, terminatedLines_joinLines hrows]
    exact List.filter_eq_self.mpr fun row hrow => by simp [(h.rows row hrow).ne_nil]
  · rw [hdict]
    exact fun _ => mem_sortUnique
  · rw [hdict]
    exact pairwise_sortUnique _
  · simp only [contentOf, blockHeader, headerOf]
    cases params.spellSuggestEnabled <;> decide

/-- What has been serialized is deserialized to the same content exactly if no exclusion contains a
newline. -/
theorem serialize_roundTrip_iff {outBuffer buffer : Memory} {bufferSize : Nat}
    (h : serialize params outBuffer bufferSize = .ok buffer) (size : SizeT) :
    (∃ content, deserialize size buffer bufferSize = .ok content ∧
      Represents params content.value) ↔
        ∀ row ∈ params.spellExclusions, newline ∉ row := by
  obtain ⟨hsize, hparams, rfl⟩ := serialize_eq_ok.mp h
  constructor
  · rintro ⟨content, hcontent, -⟩
    obtain ⟨-, hblock, -⟩ := deserialize_eq_ok.mp hcontent
    exact (validBlock_block_iff hparams size outBuffer).mp hblock
  · intro hrows
    have hblock := (validBlock_block_iff hparams size outBuffer).mpr hrows
    refine ⟨_, deserialize_eq_ok.mpr ⟨hsize, hblock, rfl⟩, ?_⟩
    rw [value_extract hblock.valid, load_block hparams]
    exact represents_contentOf hparams outBuffer _ hrows

/-- Both rows and both words are read back. -/
theorem serialize_roundTrip_twoRows :
    ∃ content, deserialize .bits64 (block twoRows fun _ => 0) wireTotalSize = .ok content ∧
      Represents twoRows content.value :=
  (serialize_roundTrip_iff
    (serialize_eq_ok.mpr ⟨Nat.le_refl wireTotalSize, serializable_twoRows, rfl⟩)
    .bits64).mpr (by decide)

/-- The rows and the words are extracted, and the content is sound. -/
theorem validateAndInspect_sound_twoRows :
    (extract (block twoRows fun _ => 0)
      (viewOf (.load (block twoRows fun _ => 0)))).value.exclusions =
        [[0x61, 0x62], [0x63, 0x1ED9]] ∧
      (extract (block twoRows fun _ => 0)
        (viewOf (.load (block twoRows fun _ => 0)))).value.userDict =
          [[0x61, 0x62, 0x63], [0x75, 0x1EAF]] ∧
      SoundContent wireTotalSize (.load (block twoRows fun _ => 0))
        (extract (block twoRows fun _ => 0) (viewOf (.load (block twoRows fun _ => 0)))) := by
  have hblock : ValidBlock .bits64 (block twoRows fun _ => 0) (.load (block twoRows fun _ => 0)) :=
    (validBlock_block_iff serializable_twoRows .bits64 fun _ => 0).mpr (by decide)
  have hrepresents : Represents twoRows
      (extract (block twoRows fun _ => 0) (viewOf (.load (block twoRows fun _ => 0)))).value := by
    rw [value_extract hblock.valid, load_block serializable_twoRows]
    exact represents_contentOf serializable_twoRows _ _ (by decide)
  have hhonest :
    HonestExclusions (block twoRows fun _ => 0) (.load (block twoRows fun _ => 0)) := by
    rw [load_block serializable_twoRows]
    exact ⟨rfl, fun hzero => absurd hzero (by decide)⟩
  refine ⟨hrepresents.exclusions, ?_, (validateAndInspect_sound_iff (validateAndInspect_eq_ok.mpr
    ⟨Nat.le_refl wireTotalSize, hblock, rfl⟩)).mpr hhonest⟩
  rw [value_extract hblock.valid, load_block serializable_twoRows]
  exact map_wordOf_block serializable_twoRows _

/-- One row with a newline between two letters. -/
def brokenRow : LexiconWireSerializeParams :=
  { spellExclusions := [[0x61, newline, 0x62]], userDictionary := [] }

/-- A row with a newline is serialized, and no reader accepts the block. -/
theorem not_serialize_roundTrip :
    (∃ buffer, serialize brokenRow (fun _ => 0) wireTotalSize = .ok buffer) ∧
      ∀ buffer, serialize brokenRow (fun _ => 0) wireTotalSize = .ok buffer →
        ∀ size content, deserialize size buffer wireTotalSize ≠ .ok content := by
  have hparams : Serializable brokenRow := by decide
  refine ⟨⟨_, serialize_eq_ok.mpr ⟨Nat.le_refl _, hparams, rfl⟩⟩, ?_⟩
  intro buffer hbuffer size content hcontent
  obtain ⟨-, -, rfl⟩ := serialize_eq_ok.mp hbuffer
  obtain ⟨-, hblock, -⟩ := deserialize_eq_ok.mp hcontent
  have hrows := (validBlock_block_iff hparams size fun _ => 0).mp hblock
  revert hrows
  decide

end Wire

end VKey
