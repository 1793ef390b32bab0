import VKey.Ipc.LexiconWire
import VKey.Lexicon.Canonicalizer

/-!
# What the serializer writes

The serializer accepts its parameters if their rows and words are admissible and fit into their
regions, and what it has written then are four blocks: the rows and the words as lines, the index,
and the header.
-/

namespace VKey

namespace Wire

theorem require_eq_ok {condition : Prop} [Decidable condition] {error : String} {u : Unit} :
    require condition error = .ok u ↔ condition := by
  unfold require
  split_ifs with h <;> simp [h]

theorem unit_bind_eq_ok {β : Type} {check : Except String Unit}
    {next : Unit → Except String β} {b : β} :
    check >>= next = .ok b ↔ check = .ok () ∧ next () = .ok b := by
  rw [except_bind_eq_ok]
  exact ⟨fun ⟨(), h⟩ => h, fun h => ⟨(), h⟩⟩

theorem require_bind_eq_ok {condition : Prop} [Decidable condition] {error : String} {β : Type}
    {next : Unit → Except String β} {b : β} :
    require condition error >>= next = .ok b ↔ condition ∧ next () = .ok b := by
  rw [unit_bind_eq_ok, require_eq_ok]

/-! ## Rows and words -/

/-- A text without a lone surrogate that has a number of scalars between two bounds. -/
def Admissible (min max : Nat) (text : List Char16) : Prop :=
  hasInvalidSurrogates text = false ∧ min ≤ countUnicodeScalars text ∧
    countUnicodeScalars text ≤ max

instance (min max : Nat) (text : List Char16) : Decidable (Admissible min max text) :=
  inferInstanceAs (Decidable (_ ∧ _ ∧ _))

abbrev AdmissibleRow : List Char16 → Prop := Admissible minExclusionScalars maxExclusionScalars

abbrev AdmissibleWord : List Char16 → Prop := Admissible minDictWordScalars maxDictWordScalars

theorem AdmissibleRow.ne_nil {row : List Char16} (h : AdmissibleRow row) : row ≠ [] := by
  rintro rfl
  have hmin := h.2.1
  simp [minExclusionScalars, countUnicodeScalars, decodeScalars] at hmin

theorem AdmissibleWord.length_pos {word : List Char16} (h : AdmissibleWord word) :
    1 ≤ word.length :=
  length_pos_of_countUnicodeScalars h.2.1

theorem AdmissibleWord.length_le {word : List Char16} (h : AdmissibleWord word) :
    word.length ≤ maxDictWordUtf16Units := by
  have hunits := length_le_countUnicodeScalars word
  have hmax : countUnicodeScalars word ≤ 64 := h.2.2
  unfold maxDictWordUtf16Units
  omega

/-- The lines of rows or of words. -/
abbrev lines (texts : List (List Char16)) : List Char16 := joinLines newline texts

theorem lines_cons (text : List Char16) (texts : List (List Char16)) :
    lines (text :: texts) = (text ++ [newline]) ++ lines texts := by
  rw [lines, joinLines_cons]
  simp

theorem length_lines_cons (text : List Char16) (texts : List (List Char16)) :
    (lines (text :: texts)).length = text.length + 1 + (lines texts).length := by
  rw [lines_cons, List.length_append, List.length_append, List.length_singleton]

/-- The rows are written one behind the other, which is writing their lines. -/
theorem writeExclusions_eq_ok {outBuffer : Memory} {units : Nat} {rows : List (List Char16)}
    {out : Memory × Nat} (hunits : units ≤ maxExclusionsUtf16Units) :
    writeExclusions outBuffer units rows = .ok out ↔
      (∀ row ∈ rows, AdmissibleRow row) ∧ units + (lines rows).length ≤ maxExclusionsUtf16Units ∧
        out = (outBuffer.write (exclusionsRegionOffset + 2 * units) (unitBytes (lines rows)),
          units + (lines rows).length) := by
  induction rows generalizing outBuffer units with
  | nil =>
      have hnil : lines [] = [] := rfl
      rw [writeExclusions, hnil]
      simp [unitBytes, hunits, eq_comm]
  | cons row rows ih =>
      have hwrites : ∀ mem : Memory,
          (mem.write (exclusionsRegionOffset + 2 * units) (unitBytes (row ++ [newline]))).write
              (exclusionsRegionOffset + 2 * (units + (row.length + 1))) (unitBytes (lines rows)) =
            mem.write (exclusionsRegionOffset + 2 * units) (unitBytes (lines (row :: rows))) := by
        intro mem
        have hrow : exclusionsRegionOffset + 2 * (units + (row.length + 1)) =
            exclusionsRegionOffset + 2 * units + (unitBytes (row ++ [newline])).length := by
          rw [length_unitBytes, List.length_append, List.length_singleton]
          omega
        rw [hrow, Memory.write_append, ← unitBytes_append, ← lines_cons]
      rw [writeExclusions]
      simp only [require_bind_eq_ok]
      rw [List.forall_mem_cons, length_lines_cons]
      constructor
      · rintro ⟨hsurrogates, hscalars, hfits, hrest⟩
        obtain ⟨hrows, hlimit, rfl⟩ := (ih (by omega)).mp hrest
        refine ⟨⟨⟨hsurrogates, hscalars⟩, hrows⟩, by omega, ?_⟩
        rw [hwrites, Nat.add_assoc units (row.length + 1)]
      · rintro ⟨⟨⟨hsurrogates, hscalars⟩, hrows⟩, hlimit, rfl⟩
        refine ⟨hsurrogates, hscalars, by omega, (ih (by omega)).mpr ⟨hrows, by omega, ?_⟩⟩
        rw [hwrites, Nat.add_assoc units (row.length + 1)]

/-- The entries of words whose lines begin at a unit of the pool. -/
def entriesFrom (units : Nat) : List (List Char16) → List DictWordEntryWire
  | [] => []
  | word :: words =>
      ⟨units, word.length, countUnicodeScalars word⟩ ::
      entriesFrom (units + (word.length + 1)) words

/-- The bytes of entries. -/
def indexBytes (entries : List DictWordEntryWire) : List UInt8 :=
  entries.flatMap DictWordEntryWire.bytes

theorem DictWordEntryWire.length_bytes (entry : DictWordEntryWire) : entry.bytes.length = 8 := by
  simp [DictWordEntryWire.bytes]

@[simp] theorem length_indexBytes (entries : List DictWordEntryWire) :
    (indexBytes entries).length = 8 * entries.length := by
  simp [indexBytes, List.length_flatMap, DictWordEntryWire.length_bytes, Nat.mul_comm]

@[simp] theorem length_entriesFrom (units : Nat) (words : List (List Char16)) :
    (entriesFrom units words).length = words.length := by
  induction words generalizing units with
  | nil => rfl
  | cons word words ih => simp [entriesFrom, ih]

/-- The words are written one behind the other, and so are their entries. -/
theorem writeWords_eq_ok {outBuffer : Memory} {i units : Nat} {words : List (List Char16)}
    {out : Memory × Nat} (hindex : i + words.length ≤ maxUserDictWords)
    (hunits : units ≤ maxUserDictUtf16Units) :
    writeWords outBuffer i units words = .ok out ↔
      (∀ word ∈ words, AdmissibleWord word) ∧ units + (lines words).length ≤ maxUserDictUtf16Units ∧
        out =
          ((outBuffer.write (userDictIndexOffset + 8 * i)
            (indexBytes (entriesFrom units words))).write
              (userDictPoolOffset + 2 * units) (unitBytes (lines words)),
            units + (lines words).length) := by
  induction words generalizing outBuffer i units with
  | nil =>
      have hnil : lines [] = [] := rfl
      rw [writeWords, hnil]
      simp [unitBytes, indexBytes, entriesFrom, hunits, eq_comm]
  | cons word words ih =>
      rw [List.length_cons] at hindex
      -- the next entries lie below the pool, so they may be written before its first word
      have hwrites : ∀ (mem : Memory) (entry : DictWordEntryWire)
          (entries : List DictWordEntryWire), entries.length = words.length →
          ((((mem.write (userDictIndexOffset + 8 * i) entry.bytes).write
                (userDictPoolOffset + 2 * units) (unitBytes (word ++ [newline]))).write
              (userDictIndexOffset + 8 * (i + 1)) (indexBytes entries)).write
            (userDictPoolOffset + 2 * (units + (word.length + 1))) (unitBytes (lines words))) =
          (mem.write (userDictIndexOffset + 8 * i) (indexBytes (entry :: entries))).write
            (userDictPoolOffset + 2 * units) (unitBytes (lines (word :: words))) := by
        intro mem entry entries hlength
        have hbelow : userDictIndexOffset + 8 * (i + 1) + (indexBytes entries).length ≤
            userDictPoolOffset + 2 * units := by
          rw [length_indexBytes, hlength]
          simp only [userDictIndexOffset, userDictPoolOffset, maxUserDictWords] at hindex ⊢
          omega
        have hentry : userDictIndexOffset + 8 * (i + 1) =
            userDictIndexOffset + 8 * i + entry.bytes.length := by
          rw [DictWordEntryWire.length_bytes]
          omega
        have hword : userDictPoolOffset + 2 * (units + (word.length + 1)) =
            userDictPoolOffset + 2 * units + (unitBytes (word ++ [newline])).length := by
          rw [length_unitBytes, List.length_append, List.length_singleton]
          omega
        rw [← Memory.write_comm hbelow, hentry, Memory.write_append, hword, Memory.write_append,
          ← unitBytes_append, ← lines_cons]
        rfl
      rw [writeWords]
      simp only [require_bind_eq_ok]
      rw [List.forall_mem_cons, length_lines_cons, entriesFrom]
      constructor
      · rintro ⟨hsurrogates, hscalars, -, hfits, hrest⟩
        obtain ⟨hwords, hlimit, rfl⟩ := (ih (by omega) (by omega)).mp hrest
        refine ⟨⟨⟨hsurrogates, hscalars⟩, hwords⟩, by omega, ?_⟩
        rw [hwrites _ _ _ (length_entriesFrom _ _), Nat.add_assoc units (word.length + 1)]
      · rintro ⟨⟨hword, hwords⟩, hlimit, rfl⟩
        refine ⟨hword.1, hword.2, hword.length_le, by omega,
          (ih (by omega) (by omega)).mpr ⟨hwords, by omega, ?_⟩⟩
        rw [hwrites _ _ _ (length_entriesFrom _ _), Nat.add_assoc units (word.length + 1)]

/-! ## The block -/

/-- Parameters that fit into a block. -/
structure Serializable (params : LexiconWireSerializeParams) : Prop where
  rowCount : params.spellExclusions.length ≤ maxExclusionsRows
  rows : ∀ row ∈ params.spellExclusions, AdmissibleRow row
  rowUnits : (lines params.spellExclusions).length ≤ maxExclusionsUtf16Units
  wordCount : (sortedWords params).length ≤ maxUserDictWords
  words : ∀ word ∈ sortedWords params, AdmissibleWord word
  wordUnits : (lines (sortedWords params)).length ≤ maxUserDictUtf16Units

instance (params : LexiconWireSerializeParams) : Decidable (Serializable params) :=
  decidable_of_iff
    (params.spellExclusions.length ≤ maxExclusionsRows ∧
      (∀ row ∈ params.spellExclusions, AdmissibleRow row) ∧
      (lines params.spellExclusions).length ≤ maxExclusionsUtf16Units ∧
      (sortedWords params).length ≤ maxUserDictWords ∧
      (∀ word ∈ sortedWords params, AdmissibleWord word) ∧
      (lines (sortedWords params)).length ≤ maxUserDictUtf16Units)
    ⟨fun ⟨h1, h2, h3, h4, h5, h6⟩ => ⟨h1, h2, h3, h4, h5, h6⟩,
      fun ⟨h1, h2, h3, h4, h5, h6⟩ => ⟨h1, h2, h3, h4, h5, h6⟩⟩

/-- The block before its header is written. -/
def payloadBlock (params : LexiconWireSerializeParams) (outBuffer : Memory) : Memory :=
  (((outBuffer.fill 0 wireTotalSize 0).write exclusionsRegionOffset
        (unitBytes (lines params.spellExclusions))).write userDictIndexOffset
      (indexBytes (entriesFrom 0 (sortedWords params)))).write userDictPoolOffset
    (unitBytes (lines (sortedWords params)))

/-- The header that belongs to parameters and a checksum. -/
def blockHeader (params : LexiconWireSerializeParams) (crc32 : Nat) : LexiconWireHeader :=
  headerOf params (lines params.spellExclusions).length (lines (sortedWords params)).length crc32

/-- The checksum of parameters. -/
def blockCrc32 (params : LexiconWireSerializeParams) (outBuffer : Memory) : Nat :=
  (computeCrc32 (payload (payloadBlock params outBuffer) (blockHeader params 0))).toNat

/-- The block of parameters. -/
def block (params : LexiconWireSerializeParams) (outBuffer : Memory) : Memory :=
  (payloadBlock params outBuffer).write 0 (blockHeader params (blockCrc32 params outBuffer)).bytes

theorem serialize_eq_ok {params : LexiconWireSerializeParams} {outBuffer buffer : Memory}
    {bufferSize : Nat} :
    serialize params outBuffer bufferSize = .ok buffer ↔
      wireTotalSize ≤ bufferSize ∧ Serializable params ∧ buffer = block params outBuffer := by
  have hrows := fun out => @writeExclusions_eq_ok (outBuffer.fill 0 wireTotalSize 0) 0
    params.spellExclusions out (Nat.zero_le _)
  simp only [Nat.zero_add, Nat.mul_zero, Nat.add_zero] at hrows
  unfold serialize
  rw [require_bind_eq_ok, require_bind_eq_ok, except_bind_eq_ok]
  constructor
  · rintro ⟨hsize, hcount, out, hout, hrest⟩
    obtain ⟨hrow, hrowUnits, rfl⟩ := (hrows out).mp hout
    rw [require_bind_eq_ok, except_bind_eq_ok] at hrest
    obtain ⟨hwordCount, out, hout, hbuffer⟩ := hrest
    obtain ⟨hword, hwordUnits, rfl⟩ := (writeWords_eq_ok (by omega) (Nat.zero_le _)).mp hout
    rw [Nat.zero_add] at hwordUnits
    refine ⟨hsize, ⟨hcount, hrow, hrowUnits, hwordCount, hword, hwordUnits⟩, ?_⟩
    obtain rfl := Except.ok.inj hbuffer
    simp only [Nat.zero_add, Nat.mul_zero, Nat.add_zero]
    rfl
  · rintro ⟨hsize, h, rfl⟩
    have hcount := h.wordCount
    have hunits := h.wordUnits
    refine ⟨hsize, h.rowCount, _, (hrows _).mpr ⟨h.rows, h.rowUnits, rfl⟩, ?_⟩
    rw [require_bind_eq_ok, except_bind_eq_ok]
    refine ⟨hcount, _, (writeWords_eq_ok (by omega) (Nat.zero_le _)).mpr
      ⟨h.words, by omega, rfl⟩, ?_⟩
    simp only [Nat.zero_add, Nat.mul_zero, Nat.add_zero]
    rfl

/-! ## Reading the block -/

section Block

variable {params : LexiconWireSerializeParams}

theorem LexiconWireHeader.length_bytes (header : LexiconWireHeader) : header.bytes.length = 72 := by
  simp [LexiconWireHeader.bytes, LexiconWireHeader.fields]

/-- Every field has room for its value. -/
def LexiconWireHeader.Fits (header : LexiconWireHeader) : Prop :=
  ∀ field ∈ header.fields, field.2 < 256 ^ field.1

/-- A header that is written is read back. -/
theorem LexiconWireHeader.load_write {header : LexiconWireHeader}
    (h : header.Fits) (buffer : Memory) :
    LexiconWireHeader.load (buffer.write 0 header.bytes) = header := by
  have hfield : ∀ k w v, (header.bytes.drop k).take w = encodeLE w v → k + w ≤ 72 →
      (w, v) ∈ header.fields → (buffer.write 0 header.bytes).readLE k w = v := by
    intro k w v hbytes hle hmem
    have hread : (buffer.write 0 header.bytes).readLE (0 + k) w = v :=
      Memory.readLE_write hbytes (header.length_bytes ▸ hle) (h _ hmem)
    rwa [Nat.zero_add] at hread
  simp only [fields] at hfield
  unfold load
  rw [hfield 0x00 4 header.magic rfl (by decide) (by simp),
    hfield 0x04 2 header.abiVersion rfl (by decide) (by simp),
    hfield 0x06 2 header.headerSizeBytes rfl (by decide) (by simp),
    hfield 0x08 4 header.totalSizeBytes rfl (by decide) (by simp),
    hfield 0x0C 4 header.seqlock rfl (by decide) (by simp),
    hfield 0x10 8 header.generation rfl (by decide) (by simp),
    hfield 0x18 4 header.crc32 rfl (by decide) (by simp),
    hfield 0x1C 4 header.flags rfl (by decide) (by simp),
    hfield 0x20 4 header.payloadOffsetBytes rfl (by decide) (by simp),
    hfield 0x24 4 header.payloadSizeBytes rfl (by decide) (by simp),
    hfield 0x28 4 header.exclusionsOffsetBytes rfl (by decide) (by simp),
    hfield 0x2C 4 header.exclusionsLengthBytes rfl (by decide) (by simp),
    hfield 0x30 4 header.exclusionsRowCount rfl (by decide) (by simp),
    hfield 0x34 4 header.userDictOffsetBytes rfl (by decide) (by simp),
    hfield 0x38 4 header.userDictLengthBytes rfl (by decide) (by simp),
    hfield 0x3C 4 header.userDictWordCount rfl (by decide) (by simp),
    hfield 0x40 4 header.userDictUtf16Units rfl (by decide) (by simp),
    hfield 0x44 4 header.exclusionsUtf16Units rfl (by decide) (by simp)]

/-- The header of a block has room for its values. -/
theorem Serializable.fits (h : Serializable params) {crc32 : Nat} (hcrc : crc32 < 2 ^ 32) :
    (blockHeader params crc32).Fits := by
  have hrowUnits := h.rowUnits
  have hwordUnits := h.wordUnits
  have hrowCount := h.rowCount
  have hwordCount := h.wordCount
  have hgeneration := params.generation.toNat_lt
  simp only [maxExclusionsUtf16Units, maxUserDictUtf16Units, maxExclusionsRows, maxUserDictWords]
    at hrowUnits hwordUnits hrowCount hwordCount
  simp only [LexiconWireHeader.Fits, LexiconWireHeader.fields, blockHeader,
    headerOf, List.forall_mem_cons,
    wireMagic, currentWireAbiVersion, wireHeaderSize, wireTotalSize, exclusionsRegionOffset,
    userDictPoolOffset, LexiconWireFlags.spellSuggestEnabled, LexiconWireFlags.dictionaryValid,
    LexiconWireFlags.exclusionsValid]
  refine ⟨by decide, by decide, by decide, by decide, by decide, by omega, by omega, ?_, by decide,
    by omega, by decide, by omega, by omega, by decide, by omega, by omega, by omega, by omega,
    fun _ hmem => absurd hmem List.not_mem_nil⟩
  cases params.spellSuggestEnabled <;> decide

theorem load_block (h : Serializable params) (outBuffer : Memory) :
    LexiconWireHeader.load (block params outBuffer) =
      blockHeader params (blockCrc32 params outBuffer) :=
  LexiconWireHeader.load_write (h.fits (UInt32.toNat_lt _)) _

theorem write_header_of_ge {buffer : Memory} {header : LexiconWireHeader} {a : Nat}
    (ha : wireHeaderSize ≤ a) : buffer.write 0 header.bytes a = buffer a := by
  refine Memory.write_of_ge ?_
  rw [LexiconWireHeader.length_bytes]
  simp only [wireHeaderSize] at ha
  omega

theorem block_of_ge {outBuffer : Memory} {a : Nat} (ha : wireHeaderSize ≤ a) :
    block params outBuffer a = payloadBlock params outBuffer a := write_header_of_ge ha

theorem payload_write_header {buffer : Memory} {header : LexiconWireHeader}
    (header' : LexiconWireHeader) (hoffset : wireHeaderSize ≤ header'.payloadOffsetBytes) :
    payload (buffer.write 0 header.bytes) header' = payload buffer header' :=
  Memory.read_congr fun _ ha _ => write_header_of_ge (Nat.le_trans hoffset ha)

theorem readUnits_exclusions (h : Serializable params) (outBuffer : Memory)
    (header : LexiconWireHeader) :
    ((payloadBlock params outBuffer).write 0 header.bytes).readUnits exclusionsRegionOffset
        (lines params.spellExclusions).length =
      lines params.spellExclusions := by
  have hunits := h.rowUnits
  have hread := Memory.readUnits_write (outBuffer.fill 0 wireTotalSize 0) exclusionsRegionOffset
    (lines params.spellExclusions) 0 _ (Nat.le_of_eq (Nat.zero_add _))
  rw [List.drop_zero, List.take_length] at hread
  refine (Memory.readUnits_congr fun a hle hlt => ?_).trans hread
  simp only [exclusionsRegionOffset, maxExclusionsUtf16Units] at hle hlt hunits
  rw [write_header_of_ge (by simp only [wireHeaderSize]; omega), payloadBlock,
    Memory.write_of_lt (by simp only [userDictPoolOffset]; omega),
    Memory.write_of_lt (by simp only [userDictIndexOffset]; omega)]

theorem readUnits_pool (params : LexiconWireSerializeParams) (outBuffer : Memory) (k n : Nat)
    (hle : k + n ≤ (lines (sortedWords params)).length) :
    (block params outBuffer).readUnits (userDictPoolOffset + 2 * k) n =
      ((lines (sortedWords params)).drop k).take n := by
  have hread : (payloadBlock params outBuffer).readUnits (userDictPoolOffset + 2 * k) n =
      ((lines (sortedWords params)).drop k).take n := Memory.readUnits_write _ _ _ k n hle
  refine (Memory.readUnits_congr fun a hle hlt => ?_).trans hread
  exact block_of_ge (by simp only [wireHeaderSize, userDictPoolOffset] at *; omega)

/-- The numbers of an entry have room in its fields. -/
def DictWordEntryWire.Fits (entry : DictWordEntryWire) : Prop :=
  entry.offsetUnits < 256 ^ 4 ∧ entry.lengthUtf16Units < 256 ^ 2 ∧ entry.scalarCount < 256 ^ 2

/-- Entries that are written are read back. -/
theorem DictWordEntryWire.load_write {entries : List DictWordEntryWire}
    (h : ∀ entry ∈ entries, entry.Fits) (buffer : Memory) (addr : Nat) :
    ((List.range entries.length).map fun i =>
      DictWordEntryWire.load (buffer.write addr (indexBytes entries))
      (addr + 8 * i)) = entries := by
  refine List.ext_getElem (by simp) fun i hi hi' => ?_
  simp only [List.getElem_map, List.getElem_range]
  obtain ⟨hoffset, hlength, hscalars⟩ := h _ (List.getElem_mem hi')
  have hbytes : (indexBytes entries).drop (8 * i) =
      entries[i].bytes ++ indexBytes (entries.drop (i + 1)) := by
    rw [indexBytes, drop_flatMap DictWordEntryWire.length_bytes, List.drop_eq_getElem_cons hi',
      List.flatMap_cons, indexBytes]
  have hfield : ∀ k w v, (entries[i].bytes.drop k).take w = encodeLE w v → k + w ≤ 8 → v < 256 ^ w →
      (buffer.write addr (indexBytes entries)).readLE (addr + 8 * i + k) w = v := by
    intro k w v hdrop hle hv
    rw [Nat.add_assoc]
    refine Memory.readLE_write ?_ (by rw [length_indexBytes]; omega) hv
    rw [← List.drop_drop, hbytes, List.drop_append_of_le_length (by rw [length_bytes]; omega),
      List.take_append_of_le_length (by rw [List.length_drop, length_bytes]; omega), hdrop]
  have hfirst := hfield 0 4 entries[i].offsetUnits rfl (by decide) hoffset
  rw [Nat.add_zero] at hfirst
  rw [DictWordEntryWire.load, hfirst,
    hfield 4 2 entries[i].lengthUtf16Units rfl (by decide) hlength,
    hfield 6 2 entries[i].scalarCount rfl (by decide) hscalars]

theorem DictWordEntryWire.load_congr {buffer buffer' : Memory} {addr : Nat}
    (h : ∀ a, addr ≤ a → a < addr + 8 → buffer a = buffer' a) :
    DictWordEntryWire.load buffer addr = DictWordEntryWire.load buffer' addr := by
  have hfield : ∀ k w, k + w ≤ 8 → buffer.readLE (addr + k) w = buffer'.readLE (addr + k) w :=
    fun k w hle => congrArg decodeLE (Memory.read_congr fun a hge hlt => h a (by omega) (by omega))
  have hfirst := hfield 0 4 (by decide)
  rw [Nat.add_zero] at hfirst
  rw [load, hfirst, hfield 4 2 (by decide), hfield 6 2 (by decide), load]

/-- An entry says where the line of its word is. -/
def DictWordEntryWire.Locates (text : List Char16) (entry : DictWordEntryWire)
    (word : List Char16) : Prop :=
  entry.lengthUtf16Units = word.length ∧ entry.scalarCount = countUnicodeScalars word ∧
    entry.offsetUnits + (word.length + 1) ≤ text.length ∧
    (text.drop entry.offsetUnits).take (word.length + 1) = word ++ [newline]

theorem forall₂_entriesFrom (before : List Char16) (words : List (List Char16)) :
    List.Forall₂ (DictWordEntryWire.Locates (before ++ lines words))
    (entriesFrom before.length words)
      words := by
  induction words generalizing before with
  | nil => exact .nil
  | cons word words ih =>
      have htext :
        before ++ lines (word :: words) = (before ++ (word ++ [newline])) ++ lines words := by
        rw [lines_cons, ← List.append_assoc before]
      have hlength : (word ++ [newline]).length = word.length + 1 := by simp
      have hrest := ih (before ++ (word ++ [newline]))
      rw [List.length_append, hlength] at hrest
      refine .cons ⟨rfl, rfl, ?_, ?_⟩ (htext ▸ hrest)
      · rw [List.length_append, length_lines_cons]
        dsimp only
        omega
      · rw [List.drop_left, lines_cons, ← hlength, List.take_left]

/-- The entries of a block are those of its words. -/
theorem indexTable_block (h : Serializable params) (outBuffer : Memory) :
    indexTable (block params outBuffer) (sortedWords params).length =
      entriesFrom 0 (sortedWords params) := by
  have hcount := h.wordCount
  have hunits := h.wordUnits
  simp only [maxUserDictWords, maxUserDictUtf16Units] at hcount hunits
  have hfits : ∀ entry ∈ entriesFrom 0 (sortedWords params), entry.Fits := by
    intro entry hentry
    obtain ⟨i, hi, rfl⟩ := List.mem_iff_getElem.mp hentry
    have hlocates := forall₂_entriesFrom [] (sortedWords params)
    have hi' : i < (sortedWords params).length := by simpa using hi
    obtain ⟨hlength, hscalars, hle, -⟩ := hlocates.get hi hi'
    have hword := h.words _ (List.getElem_mem hi')
    have hlong := hword.length_le
    have hmany := hword.2.2
    simp only [List.get_eq_getElem, List.nil_append, List.length_nil] at hlength hscalars hle
    simp only [maxDictWordUtf16Units, maxDictWordScalars] at hlong hmany
    refine ⟨?_, ?_, ?_⟩ <;> omega
  have hload := DictWordEntryWire.load_write hfits
    ((outBuffer.fill 0 wireTotalSize 0).write exclusionsRegionOffset
      (unitBytes (lines params.spellExclusions))) userDictIndexOffset
  rw [length_entriesFrom] at hload
  refine Eq.trans
    (List.map_congr_left fun i hi => DictWordEntryWire.load_congr fun a hle hlt => ?_) hload
  have hi := List.mem_range.mp hi
  simp only [userDictIndexOffset] at hle hlt
  rw [block_of_ge (by simp only [wireHeaderSize]; omega), payloadBlock,
    Memory.write_of_lt (by simp only [userDictPoolOffset]; omega)]

/-- A word of a block is read through its entry. -/
theorem wordOf_block (outBuffer : Memory) {entry : DictWordEntryWire} {word : List Char16}
    (h : entry.Locates (lines (sortedWords params)) word) :
    wordOf (block params outBuffer) entry = word ∧
      poolUnit (block params outBuffer) (entry.offsetUnits + entry.lengthUtf16Units) = newline := by
  obtain ⟨hlength, -, hle, hline⟩ := h
  have hunit : [poolUnit (block params outBuffer) (entry.offsetUnits + entry.lengthUtf16Units)] =
      (block params outBuffer).readUnits
        (userDictPoolOffset + 2 * (entry.offsetUnits + entry.lengthUtf16Units)) 1 := rfl
  constructor
  · rw [wordOf, hlength, readUnits_pool params outBuffer _ _ (by omega),
      ← Nat.min_eq_left (Nat.le_succ word.length), ← List.take_take, hline, List.take_left]
  · have hlast := readUnits_pool params outBuffer (entry.offsetUnits + entry.lengthUtf16Units) 1
      (by omega)
    have hdrop : (((lines (sortedWords params)).drop entry.offsetUnits).take (word.length + 1)).drop
        word.length = [newline] := by rw [hline, List.drop_left]
    rw [List.drop_take, List.drop_drop, Nat.add_sub_cancel_left] at hdrop
    rw [hlength, hdrop, ← hlength, ← hunit] at hlast
    exact List.singleton_inj.mp hlast

end Block

end Wire

end VKey
