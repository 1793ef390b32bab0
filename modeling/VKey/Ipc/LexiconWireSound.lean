import VKey.Ipc.LexiconWireBlock
import VKey.Text.Utf8Exact

/-!
# What the validator accepts

The validator accepts a header whose numbers fit, rows and words that are admissible, and words in
increasing order.  It counts the bytes of the exclusions in a `size_t`, which may wrap around, and
leaves out the rows if the header declares none; otherwise what is read from an accepted block lies
in the regions of its header.
-/

namespace VKey

namespace Wire

/-! ## Acceptance -/

/-- The numbers of a header that is accepted. -/
structure ValidHeader (size : SizeT) (header : LexiconWireHeader) : Prop where
  magic : header.magic = wireMagic
  abiVersion : header.abiVersion = currentWireAbiVersion
  headerSize : header.headerSizeBytes = wireHeaderSize
  totalSize : header.totalSizeBytes = wireTotalSize
  payloadOffset : header.payloadOffsetBytes = wireHeaderSize
  payloadLimit : header.payloadSizeBytes ≤ wireTotalSize - wireHeaderSize
  exclusionsOffset : header.exclusionsOffsetBytes = exclusionsRegionOffset
  exclusionsLimit : header.exclusionsLengthBytes ≤ exclusionsRegionMaxBytes
  exclusionsUnits : size.mul header.exclusionsUtf16Units 2 = header.exclusionsLengthBytes
  rowLimit : header.exclusionsRowCount ≤ maxExclusionsRows
  poolOffset : header.userDictOffsetBytes = userDictPoolOffset
  poolLimit : header.userDictLengthBytes ≤ userDictPoolMaxBytes
  poolUnits : size.mul header.userDictUtf16Units 2 = header.userDictLengthBytes
  wordLimit : header.userDictWordCount ≤ maxUserDictWords
  unitLimit : header.userDictUtf16Units ≤ maxUserDictUtf16Units
  payloadSize : header.payloadSizeBytes =
    userDictPoolOffset - wireHeaderSize + header.userDictLengthBytes

theorem validateHeader_eq_ok {size : SizeT} {header : LexiconWireHeader} :
    validateHeader size header = .ok () ↔ ValidHeader size header := by
  unfold validateHeader
  simp only [require_bind_eq_ok, require_eq_ok]
  constructor
  · rintro ⟨h1, h2, h3, h4, h5, h6, h7, h8, h9, h10, h11, h12, h13, h14, h15, h16⟩
    exact ⟨h1, h2, h3, h4, h5, h6, h7, h8, h9, h10, h11, h12, h13, h14, h15, h16⟩
  · rintro ⟨h1, h2, h3, h4, h5, h6, h7, h8, h9, h10, h11, h12, h13, h14, h15, h16⟩
    exact ⟨h1, h2, h3, h4, h5, h6, h7, h8, h9, h10, h11, h12, h13, h14, h15, h16⟩

theorem ValidHeader.poolBytes {size : SizeT} {header : LexiconWireHeader}
    (h : ValidHeader size header) :
    header.userDictLengthBytes = 2 * header.userDictUtf16Units := by
  have hunits := h.poolUnits
  have hlimit := h.unitLimit
  simp only [maxUserDictUtf16Units] at hlimit
  unfold SizeT.mul at hunits
  have hlt : header.userDictUtf16Units * 2 < 2 ^ size.bits := by
    cases size <;> simp only [SizeT.bits] <;> omega
  rw [← hunits, Nat.mod_eq_of_lt hlt, Nat.mul_comm]

theorem validateRows_eq_ok {rows : List (List Char16)} :
    validateRows rows = .ok () ↔ ∀ row ∈ rows, AdmissibleRow row := by
  induction rows with
  | nil => simp [validateRows]
  | cons row rows ih =>
      rw [validateRows]
      simp only [require_bind_eq_ok, ih, List.forall_mem_cons]
      constructor
      · rintro ⟨-, hsurrogates, hscalars, hrows⟩
        exact ⟨⟨hsurrogates, hscalars⟩, hrows⟩
      · rintro ⟨hrow, hrows⟩
        exact ⟨hrow.ne_nil, hrow.1, hrow.2, hrows⟩

/-- An entry that is accepted, up to the order of the words. -/
structure ValidEntry (buffer : Memory) (userDictUtf16Units : Nat)
    (entry : DictWordEntryWire) : Prop where
  offset : entry.offsetUnits < userDictUtf16Units
  inside : entry.lengthUtf16Units < userDictUtf16Units - entry.offsetUnits
  delimiter : poolUnit buffer (entry.offsetUnits + entry.lengthUtf16Units) = newline
  length : 1 ≤ entry.lengthUtf16Units ∧ entry.lengthUtf16Units ≤ maxDictWordUtf16Units
  word : AdmissibleWord (wordOf buffer entry)
  scalarCount : countUnicodeScalars (wordOf buffer entry) = entry.scalarCount

/-- The words of a list are strictly increasing. -/
def Ascending (words : List (List Char16)) : Prop :=
  words.Pairwise fun a b => compareUtf16ByUnicodeScalar a b = .lt

theorem ascending_cons_cons {a b : List Char16} {words : List (List Char16)} :
    Ascending (a :: b :: words) ↔ compareUtf16ByUnicodeScalar a b = .lt ∧
    Ascending (b :: words) := by
  have htrans : IsTrans (List Char16) fun a b => compareUtf16ByUnicodeScalar a b = .lt :=
    ⟨fun _ _ _ => Std.TransCmp.lt_trans⟩
  unfold Ascending
  rw [← List.isChain_iff_pairwise, ← List.isChain_iff_pairwise, List.isChain_cons_cons]

/-- Comparing neighbours is enough. -/
theorem validateEntries_eq_ok {buffer : Memory} {units : Nat} {prevWord : Option (List Char16)}
    {entries : List DictWordEntryWire} :
    validateEntries buffer units prevWord entries = .ok () ↔
      (∀ entry ∈ entries, ValidEntry buffer units entry) ∧
        Ascending (prevWord.toList ++ entries.map (wordOf buffer)) := by
  induction entries generalizing prevWord with
  | nil =>
      have hprev : Ascending prevWord.toList := by
        cases prevWord
        · exact List.Pairwise.nil
        · exact List.pairwise_singleton _ _
      simp [validateEntries, hprev]
  | cons entry entries ih =>
      have hprev : Ascending (prevWord.toList ++ (entry :: entries).map (wordOf buffer)) ↔
          (∀ prev ∈ prevWord, compareUtf16ByUnicodeScalar prev (wordOf buffer entry) = .lt) ∧
            Ascending ((some (wordOf buffer entry)).toList ++ entries.map (wordOf buffer)) := by
        cases prevWord with
        | none => simp
        | some prev =>
            rw [Option.toList_some, List.singleton_append, List.map_cons, ascending_cons_cons]
            simp
      rw [validateEntries, hprev]
      simp only [require_bind_eq_ok, ih, List.forall_mem_cons]
      constructor
      · rintro ⟨⟨hoffset, hinside⟩, hdelimiter, hlength, hscalars, hsurrogates, hcount,
          hprev, hentries, hwords⟩
        rw [← hcount] at hscalars
        exact ⟨⟨⟨hoffset, hinside, hdelimiter, hlength, ⟨hsurrogates, hscalars⟩, hcount⟩, hentries⟩,
          hprev, hwords⟩
      · rintro ⟨⟨hentry, hentries⟩, hprev, hwords⟩
        refine ⟨⟨hentry.offset, hentry.inside⟩, hentry.delimiter, hentry.length, ?_, hentry.word.1,
          hentry.scalarCount, hprev, hentries, hwords⟩
        rw [← hentry.scalarCount]
        exact hentry.word.2

/-- Exclusions that are accepted: rows are only checked if there are some. -/
def ValidExclusions (buffer : Memory) (header : LexiconWireHeader) : Prop :=
  0 < header.exclusionsRowCount →
    (∀ row ∈ exclusionLines buffer header, AdmissibleRow row) ∧
      (exclusionLines buffer header).length = header.exclusionsRowCount

theorem validateExclusions_eq_ok {buffer : Memory} {header : LexiconWireHeader} :
    validateExclusions buffer header = .ok () ↔ ValidExclusions buffer header := by
  unfold validateExclusions ValidExclusions
  split_ifs with hrows
  · rw [unit_bind_eq_ok, validateRows_eq_ok, require_eq_ok, forall_prop_of_true hrows]
  · simp [hrows]

/-- A block that is accepted. -/
structure ValidBlock (size : SizeT) (buffer : Memory) (header : LexiconWireHeader) : Prop where
  valid : ValidHeader size header
  crc32 : (computeCrc32 (payload buffer header)).toNat = header.crc32
  exclusions : ValidExclusions buffer header
  entries : ∀ entry ∈ indexTable buffer header.userDictWordCount,
    ValidEntry buffer header.userDictUtf16Units entry
  ascending : Ascending ((indexTable buffer header.userDictWordCount).map (wordOf buffer))

theorem validateAndInspect_eq_ok {size : SizeT} {wireBuffer : Memory} {bufferSize : Nat}
    {view : LexiconWireView} :
    validateAndInspect size wireBuffer bufferSize = .ok view ↔
      wireTotalSize ≤ bufferSize ∧ ValidBlock size wireBuffer (.load wireBuffer) ∧
        viewOf (.load wireBuffer) = view := by
  unfold validateAndInspect
  dsimp only
  rw [require_bind_eq_ok, unit_bind_eq_ok, validateHeader_eq_ok,
    require_bind_eq_ok, unit_bind_eq_ok,
    validateExclusions_eq_ok, unit_bind_eq_ok, validateEntries_eq_ok,
      Option.toList_none, List.nil_append]
  refine and_congr_right fun _ => ?_
  constructor
  · rintro ⟨hheader, hcrc, hexclusions, ⟨hentries, hascending⟩, hview⟩
    exact ⟨⟨hheader, hcrc, hexclusions, hentries, hascending⟩, Except.ok.inj hview⟩
  · rintro ⟨h, rfl⟩
    exact ⟨h.valid, h.crc32, h.exclusions, ⟨h.entries, h.ascending⟩, rfl⟩

/-! ## What is extracted -/

/-- The content of a block with a header. -/
def contentOf (buffer : Memory) (header : LexiconWireHeader) : LexiconWireContent where
  exclusions := (exclusionLines buffer header).filter (!·.isEmpty)
  userDict := (indexTable buffer header.userDictWordCount).map (wordOf buffer)
  generation := header.generation
  spellSuggestEnabled := header.flags &&& LexiconWireFlags.spellSuggestEnabled != 0

theorem exclusions_contentOf (buffer : Memory) (header : LexiconWireHeader) :
    (contentOf buffer header).exclusions = (exclusionLines buffer header).filter (!·.isEmpty) := rfl

theorem userDict_contentOf (buffer : Memory) (header : LexiconWireHeader) :
    (contentOf buffer header).userDict =
      (indexTable buffer header.userDictWordCount).map (wordOf buffer) := rfl

theorem value_extractExclusions (buffer : Memory) (header : LexiconWireHeader) :
    (extractExclusions buffer (viewOf header)).value =
      (exclusionLines buffer header).filter (!·.isEmpty) := by
  unfold extractExclusions
  split_ifs with hunits
  · rfl
  · have hzero : header.exclusionsUtf16Units = 0 := Nat.eq_zero_of_not_pos hunits
    rw [exclusionLines, hzero]
    rfl

theorem value_extract {size : SizeT} {buffer : Memory} (h : ValidHeader size (.load buffer)) :
    (extract buffer (viewOf (.load buffer))).value = contentOf buffer (.load buffer) := by
  have hword : ∀ i, (extractWord buffer (viewOf (.load buffer)) i).value =
      wordOf buffer (.load buffer (userDictIndexOffset + 8 * i)) := by
    intro i
    rw [wordOf, ← h.poolOffset]
    rfl
  have hwords :
    (indexTable buffer (LexiconWireHeader.load buffer).userDictWordCount).map (wordOf buffer) =
      (List.range (viewOf (.load buffer)).wordCount).map fun i =>
        (extractWord buffer (viewOf (.load buffer)) i).value := by
    rw [indexTable, List.map_map]
    exact List.map_congr_left fun i _ => (hword i).symm
  unfold extract contentOf
  simp only [Logged.value_bind, Logged.value_pure, Logged.value_mapM,
    value_extractExclusions, hwords]
  rfl

/-- The regions that a header declares: the header itself, the exclusions, the index and the
pool. -/
def declaredRegions (header : LexiconWireHeader) : List Span :=
  [⟨0, wireHeaderSize⟩, ⟨header.exclusionsOffsetBytes, header.exclusionsLengthBytes⟩,
    ⟨userDictIndexOffset, 8 * header.userDictWordCount⟩,
    ⟨header.userDictOffsetBytes, header.userDictLengthBytes⟩]

/-- A block of addresses lies in a declared region. -/
def Declared (header : LexiconWireHeader) (span : Span) : Prop :=
  ∃ region ∈ declaredRegions header, span.Within region

theorem ValidHeader.within {size : SizeT} {header : LexiconWireHeader}
    (h : ValidHeader size header) :
    ∀ region ∈ declaredRegions header, region.Within ⟨0, wireTotalSize⟩ := by
  have hexclusions := h.exclusionsLimit
  have hpool := h.poolLimit
  have hwords := h.wordLimit
  simp only [exclusionsRegionMaxBytes, userDictPoolMaxBytes, maxUserDictWords]
    at hexclusions hpool hwords
  simp only [declaredRegions, List.forall_mem_cons, Span.Within, h.exclusionsOffset, h.poolOffset,
    wireTotalSize, wireHeaderSize, exclusionsRegionOffset, userDictIndexOffset, userDictPoolOffset]
  refine ⟨by omega, by omega, by omega, by omega, fun _ hmem => absurd hmem List.not_mem_nil⟩

/-- What is read of the header, the index and the pool is declared. -/
theorem ValidBlock.declared {size : SizeT} {buffer : Memory} {header : LexiconWireHeader}
    (h : ValidBlock size buffer header)
    (hexclusions : ∀ span ∈ (extractExclusions buffer (viewOf header)).spans,
      Declared header span) :
    ∀ span ∈ (extract buffer (viewOf header)).spans, Declared header span := by
  have hbytes := h.valid.poolBytes
  have hword : ∀ i < header.userDictWordCount,
      ∀ span ∈ (extractWord buffer (viewOf header) i).spans, Declared header span := by
    intro i hi
    have hentry := h.entries _ (List.mem_map_of_mem (List.mem_range.mpr hi))
    have hoffset := hentry.offset
    have hinside := hentry.inside
    have hspans : (extractWord buffer (viewOf header) i).spans =
        [⟨userDictIndexOffset + 8 * i, 4⟩, ⟨userDictIndexOffset + 8 * i + 4, 2⟩,
          ⟨header.userDictOffsetBytes +
              2 * (DictWordEntryWire.load buffer (userDictIndexOffset + 8 * i)).offsetUnits,
            2 * (DictWordEntryWire.load buffer
              (userDictIndexOffset + 8 * i)).lengthUtf16Units⟩] := rfl
    generalize DictWordEntryWire.load buffer (userDictIndexOffset + 8 * i) = entry
      at hspans hoffset hinside
    rw [hspans]
    simp only [List.forall_mem_cons]
    refine ⟨⟨⟨userDictIndexOffset, 8 * header.userDictWordCount⟩, by simp [declaredRegions], ?_⟩,
      ⟨⟨userDictIndexOffset, 8 * header.userDictWordCount⟩, by simp [declaredRegions], ?_⟩,
      ⟨⟨header.userDictOffsetBytes, header.userDictLengthBytes⟩, by simp [declaredRegions], ?_⟩,
      fun _ hmem => absurd hmem List.not_mem_nil⟩
    all_goals
      unfold Span.Within
      dsimp only
      omega
  have hheader : Declared header ⟨0x10, 8⟩ ∧ Declared header ⟨0x1C, 4⟩ :=
    ⟨⟨⟨0, wireHeaderSize⟩, by simp [declaredRegions], by decide⟩,
      ⟨⟨0, wireHeaderSize⟩, by simp [declaredRegions], by decide⟩⟩
  have hspans : (extract buffer (viewOf header)).spans =
      [⟨0x10, 8⟩] ++ ([⟨0x1C, 4⟩] ++ ((extractExclusions buffer (viewOf header)).spans ++
        ((List.range header.userDictWordCount).flatMap fun i =>
          (extractWord buffer (viewOf header) i).spans))) := by
    unfold extract
    simp only [Logged.spans_bind, Logged.spans_mapM, Logged.spans_pure, List.append_nil]
    rfl
  rw [hspans]
  simp only [List.forall_mem_append, List.forall_mem_singleton]
  refine ⟨hheader.1, hheader.2, hexclusions, fun span hspan => ?_⟩
  obtain ⟨i, hi, hspan⟩ := List.mem_flatMap.mp hspan
  exact hword i (List.mem_range.mp hi) span hspan

/-! ## Soundness -/

/-- What the reader relies on after a block has been accepted. -/
structure SoundContent (bufferSize : Nat) (header : LexiconWireHeader)
    (content : Logged LexiconWireContent) : Prop where
  reads : ∀ span ∈ content.spans,
    ∃ region ∈ declaredRegions header, span.Within region ∧ region.Within ⟨0, bufferSize⟩
  rowCount : content.value.exclusions.length = header.exclusionsRowCount
  rowLimit : content.value.exclusions.length ≤ 8
  rows : ∀ row ∈ content.value.exclusions,
    WellFormedUtf16 row ∧ 2 ≤ countUnicodeScalars row ∧ countUnicodeScalars row ≤ 128
  words : ∀ word ∈ content.value.userDict, WellFormedUtf16 word
  ascending : content.value.userDict.Pairwise fun a b => compareUtf16ByUnicodeScalar a b = .lt

/-- The bytes of the exclusions are counted without wrapping around, and a header without rows has
no unit before a newline but newlines. -/
structure HonestExclusions (buffer : Memory) (header : LexiconWireHeader) : Prop where
  units : 2 * header.exclusionsUtf16Units = header.exclusionsLengthBytes
  rows : header.exclusionsRowCount = 0 →
    (buffer.readUnits header.exclusionsOffsetBytes header.exclusionsUtf16Units).Pairwise
      fun a b => b = newline → a = newline

theorem spans_extractExclusions (buffer : Memory) (header : LexiconWireHeader) :
    (extractExclusions buffer (viewOf header)).spans =
      if 0 < header.exclusionsUtf16Units then
        [⟨header.exclusionsOffsetBytes, 2 * header.exclusionsUtf16Units⟩] else [] := by
  have hunits : (viewOf header).exclusionsUnits = header.exclusionsUtf16Units := rfl
  unfold extractExclusions
  rw [hunits]
  split_ifs <;> rfl

theorem mem_spans_extract {buffer : Memory} {view : LexiconWireView} {span : Span}
    (h : span ∈ (extractExclusions buffer view).spans) : span ∈ (extract buffer view).spans := by
  simp only [extract, Logged.spans_bind, List.mem_append]
  exact Or.inr (Or.inr (Or.inl h))

/-- The exclusions are read in their region exactly if their bytes are counted without wrapping
around. -/
theorem declared_extractExclusions_iff {size : SizeT} (buffer : Memory) {header : LexiconWireHeader}
    (h : ValidHeader size header) :
    (∀ span ∈ (extractExclusions buffer (viewOf header)).spans, Declared header span) ↔
      2 * header.exclusionsUtf16Units = header.exclusionsLengthBytes := by
  have hmul := h.exclusionsUnits
  have hlimit := h.exclusionsLimit
  have hsmall : exclusionsRegionMaxBytes < 2 ^ size.bits := by cases size <;> decide
  rw [SizeT.mul, Nat.mul_comm] at hmul
  rw [spans_extractExclusions]
  constructor
  · intro hdeclared
    -- a product of at most the length of the region has not wrapped around
    have hle : 2 * header.exclusionsUtf16Units ≤ header.exclusionsLengthBytes := by
      by_cases hunits : 0 < header.exclusionsUtf16Units
      · rw [if_pos hunits, List.forall_mem_singleton] at hdeclared
        obtain ⟨region, hmem, hwithin⟩ := hdeclared
        simp only [declaredRegions, List.mem_cons, List.not_mem_nil, or_false, h.exclusionsOffset,
          h.poolOffset] at hmem
        rw [h.exclusionsOffset] at hwithin
        simp only [exclusionsRegionOffset, wireHeaderSize, userDictIndexOffset, userDictPoolOffset]
          at hmem hwithin
        rcases hmem with rfl | rfl | rfl | rfl
        all_goals
          unfold Span.Within at hwithin
          dsimp only at hwithin
          omega
      · omega
    rwa [Nat.mod_eq_of_lt (by omega)] at hmul
  · intro hbytes span hspan
    split_ifs at hspan
    · obtain rfl := List.mem_singleton.mp hspan
      refine ⟨⟨header.exclusionsOffsetBytes,
        header.exclusionsLengthBytes⟩, by simp [declaredRegions], ?_⟩
      rw [hbytes]
      exact ⟨Nat.le_refl _, Nat.le_refl _⟩
    · exact absurd hspan List.not_mem_nil

/-- The rows that are extracted are as many as declared exactly if none are hidden. -/
theorem length_exclusions_iff {size : SizeT} {buffer : Memory} {header : LexiconWireHeader}
    (h : ValidBlock size buffer header) :
    ((exclusionLines buffer header).filter (!·.isEmpty)).length = header.exclusionsRowCount ↔
      (header.exclusionsRowCount = 0 →
        (buffer.readUnits header.exclusionsOffsetBytes header.exclusionsUtf16Units).Pairwise
          fun a b => b = newline → a = newline) := by
  rw [← forall_terminatedLines_eq_nil_iff, ← exclusionLines]
  rcases Nat.eq_zero_or_pos header.exclusionsRowCount with hzero | hpos
  · rw [hzero, forall_prop_of_true rfl, List.length_eq_zero_iff, List.filter_eq_nil_iff]
    simp
  · obtain ⟨hrows, hcount⟩ := h.exclusions hpos
    have hfilter :
      (exclusionLines buffer header).filter (!·.isEmpty) = exclusionLines buffer header :=
      List.filter_eq_self.mpr fun row hrow => by simp [(hrows row hrow).ne_nil]
    rw [hfilter, hcount]
    exact ⟨fun _ hzero => absurd hzero (Nat.ne_of_gt hpos), fun _ => rfl⟩

/-- The validator is sound exactly on the blocks whose header is honest about the exclusions. -/
theorem validateAndInspect_sound_iff {size : SizeT} {wireBuffer : Memory} {bufferSize : Nat}
    {view : LexiconWireView} (h : validateAndInspect size wireBuffer bufferSize = .ok view) :
    SoundContent bufferSize (.load wireBuffer) (extract wireBuffer view) ↔
      HonestExclusions wireBuffer (.load wireBuffer) := by
  obtain ⟨hsize, hblock, rfl⟩ := validateAndInspect_eq_ok.mp h
  have hvalue := value_extract hblock.valid
  have hlength := length_exclusions_iff hblock
  have hdeclared := declared_extractExclusions_iff wireBuffer hblock.valid
  constructor
  · intro hsound
    refine ⟨hdeclared.mp fun span hspan => ?_, hlength.mp ?_⟩
    · obtain ⟨region, hmem, hwithin, -⟩ := hsound.reads span (mem_spans_extract hspan)
      exact ⟨region, hmem, hwithin⟩
    · have hcount := hsound.rowCount
      rw [hvalue, exclusions_contentOf] at hcount
      exact hcount
  · rintro ⟨hunits, hhidden⟩
    have hcount := hlength.mpr hhidden
    have hlimit := hblock.valid.rowLimit
    have hrows : ∀ row ∈ (exclusionLines wireBuffer (.load wireBuffer)).filter (!·.isEmpty),
        AdmissibleRow row := by
      intro row hrow
      have hpos : 0 < (LexiconWireHeader.load wireBuffer).exclusionsRowCount :=
        hcount ▸ List.length_pos_of_mem hrow
      exact (hblock.exclusions hpos).1 row (List.mem_of_mem_filter hrow)
    refine ⟨fun span hspan => ?_, ?_, ?_, ?_, ?_, ?_⟩
    · obtain ⟨region, hmem, hwithin⟩ := hblock.declared (hdeclared.mpr hunits) span hspan
      refine ⟨region, hmem, hwithin, ?_⟩
      obtain ⟨hfrom, hto⟩ := hblock.valid.within region hmem
      exact ⟨hfrom, Nat.le_trans hto (by dsimp only; omega)⟩
    all_goals rw [hvalue]
    all_goals first | rw [exclusions_contentOf] | rw [userDict_contentOf]
    · exact hcount
    · rw [hcount]
      exact hlimit
    · intro row hrow
      obtain ⟨hsurrogates, hscalars⟩ := hrows row hrow
      exact ⟨hasInvalidSurrogates_eq_false_iff.mp hsurrogates, hscalars⟩
    · intro word hword
      obtain ⟨entry, hentry, rfl⟩ := List.mem_map.mp hword
      exact hasInvalidSurrogates_eq_false_iff.mp (hblock.entries entry hentry).word.1
    · exact hblock.ascending

/-! ## Forged blocks -/

/-- A header that declares no rows, and any number of units. -/
def forgedHeader (params : LexiconWireSerializeParams) (units : Nat) : LexiconWireHeader :=
  { blockHeader params (blockCrc32 params fun _ => 0) with
    exclusionsRowCount := 0
    exclusionsUtf16Units := units }

/-- The block of some exclusions behind such a header. -/
def forgedBlock (params : LexiconWireSerializeParams) (units : Nat) : Memory :=
  (payloadBlock params fun _ => 0).write 0 (forgedHeader params units).bytes

/-- One exclusion, `ab`. -/
def oneRow : LexiconWireSerializeParams :=
  { spellExclusions := [[0x61, 0x62]], userDictionary := [] }

def noRows : LexiconWireSerializeParams := { spellExclusions := [], userDictionary := [] }

theorem serializable_oneRow : Serializable oneRow := by decide

theorem serializable_noRows : Serializable noRows := by decide

/-- Two rows, and two words in the wrong order, one of them twice. -/
def twoRows : LexiconWireSerializeParams :=
  { spellExclusions := [[0x61, 0x62], [0x63, 0x1ED9]]
    userDictionary := [[0x75, 0x1EAF], [0x61, 0x62, 0x63], [0x75, 0x1EAF]] }

theorem serializable_twoRows : Serializable twoRows := by decide

/-- The header of a block is valid. -/
theorem Serializable.validHeader {params : LexiconWireSerializeParams} (h : Serializable params)
    (size : SizeT) (crc32 : Nat) : ValidHeader size (blockHeader params crc32) := by
  have hrowUnits := h.rowUnits
  have hwordUnits := h.wordUnits
  simp only [maxExclusionsUtf16Units, maxUserDictUtf16Units] at hrowUnits hwordUnits
  have hmul : ∀ units ≤ 65536, size.mul units 2 = units * 2 := by
    intro units hunits
    refine Nat.mod_eq_of_lt ?_
    cases size <;> simp only [SizeT.bits] <;> omega
  exact
    { magic := rfl
      abiVersion := rfl
      headerSize := rfl
      totalSize := rfl
      payloadOffset := rfl
      payloadLimit := by
        simp only [blockHeader, headerOf, userDictPoolOffset, wireHeaderSize, wireTotalSize]
        omega
      exclusionsOffset := rfl
      exclusionsLimit := by
        simp only [blockHeader, headerOf, exclusionsRegionMaxBytes]
        omega
      exclusionsUnits := hmul _ (by simp only [blockHeader, headerOf]; omega)
      rowLimit := h.rowCount
      poolOffset := rfl
      poolLimit := by
        simp only [blockHeader, headerOf, userDictPoolMaxBytes]
        omega
      poolUnits := hmul _ hwordUnits
      wordLimit := h.wordCount
      unitLimit := h.wordUnits
      payloadSize := rfl }

/-- A forged block is accepted if the bytes of its units are the declared ones in a `size_t`. -/
theorem validBlock_forged (size : SizeT) {params : LexiconWireSerializeParams} (units : Nat)
    (h : Serializable params) (hwords : sortedWords params = []) (hunits : units < 2 ^ 32)
    (hsize : size.mul units 2 = (lines params.spellExclusions).length * 2) :
    LexiconWireHeader.load (forgedBlock params units) = forgedHeader params units ∧
      ValidBlock size (forgedBlock params units) (forgedHeader params units) := by
  have hcrc : blockCrc32 params (fun _ => 0) < 2 ^ 32 := UInt32.toNat_lt _
  have hfits : (forgedHeader params units).Fits := by
    have hgiven := h.fits hcrc
    simp only [LexiconWireHeader.Fits, LexiconWireHeader.fields, List.forall_mem_cons] at hgiven ⊢
    obtain ⟨h1, h2, h3, h4, h5, h6, h7, h8, h9, h10, h11, h12, -, h14, h15, h16, h17, -, h19⟩ :=
      hgiven
    have hzero : (0 : Nat) < 256 ^ 4 := by decide
    exact ⟨h1, h2, h3, h4, h5, h6, h7, h8, h9, h10, h11, h12, hzero, h14,
      h15, h16, h17, hunits, h19⟩
  have hcount : (forgedHeader params units).userDictWordCount = 0 := by
    change (sortedWords params).length = 0
    rw [hwords]
    rfl
  refine ⟨LexiconWireHeader.load_write hfits _, ?_, ?_, ?_, ?_, ?_⟩
  · obtain ⟨h1, h2, h3, h4, h5, h6, h7, h8, -, -, h11, h12, h13, h14, h15, h16⟩ :=
      h.validHeader size (blockCrc32 params fun _ => 0)
    exact ⟨h1, h2, h3, h4, h5, h6, h7, h8, hsize, Nat.zero_le _, h11, h12, h13, h14, h15, h16⟩
  · exact congrArg (fun bytes => (computeCrc32 bytes).toNat)
      (payload_write_header (forgedHeader params units) (Nat.le_refl _))
  · exact fun hpos => absurd hpos (Nat.lt_irrefl 0)
  · rw [hcount]
    exact fun _ hmem => absurd hmem List.not_mem_nil
  · rw [hcount]
    exact List.Pairwise.nil

/-- A 64-bit reader extracts a row that the header does not declare, and a 32-bit reader reads far
behind the block. -/
theorem not_validateAndInspect_sound :
    (validateAndInspect .bits64 (forgedBlock oneRow 3) wireTotalSize =
        .ok (viewOf (.load (forgedBlock oneRow 3))) ∧
      ¬SoundContent wireTotalSize (.load (forgedBlock oneRow 3))
        (extract (forgedBlock oneRow 3) (viewOf (.load (forgedBlock oneRow 3))))) ∧
    (validateAndInspect .bits32 (forgedBlock noRows (2 ^ 31)) wireTotalSize =
        .ok (viewOf (.load (forgedBlock noRows (2 ^ 31)))) ∧
      ¬SoundContent wireTotalSize (.load (forgedBlock noRows (2 ^ 31)))
        (extract (forgedBlock noRows (2 ^ 31))
          (viewOf (.load (forgedBlock noRows (2 ^ 31)))))) := by
  obtain ⟨hload, hblock⟩ := validBlock_forged .bits64 3 serializable_oneRow rfl
    (by decide) (by decide)
  obtain ⟨hload', hblock'⟩ := validBlock_forged .bits32 (2 ^ 31) serializable_noRows rfl (by decide)
    (by decide)
  rw [← hload] at hblock
  rw [← hload'] at hblock'
  refine ⟨⟨validateAndInspect_eq_ok.mpr ⟨Nat.le_refl _, hblock, rfl⟩, fun hsound => ?_⟩,
    ⟨validateAndInspect_eq_ok.mpr ⟨Nat.le_refl _, hblock', rfl⟩, fun hsound => ?_⟩⟩
  · have hcount := hsound.rowCount
    rw [value_extract hblock.valid, contentOf, length_exclusions_iff hblock, hload] at hcount
    have hunits :
      (forgedBlock oneRow 3).readUnits exclusionsRegionOffset 3 = [0x61, 0x62, newline] :=
      readUnits_exclusions serializable_oneRow _ _
    have hpairwise :
      ([0x61, 0x62, newline] : List Char16).Pairwise fun a b => b = newline → a = newline :=
      hunits ▸ hcount rfl
    revert hpairwise
    decide
  · have hunits := (declared_extractExclusions_iff (forgedBlock noRows (2 ^ 31)) hblock'.valid).mp
      fun span hspan => by
        obtain ⟨region, hmem, hwithin, -⟩ := hsound.reads span (mem_spans_extract hspan)
        exact ⟨region, hmem, hwithin⟩
    rw [hload'] at hunits
    revert hunits
    decide

end Wire

end VKey
