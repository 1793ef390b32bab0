import VKey.Ipc.LexiconWireBlock
import VKey.Lexicon.CanonicalForm
import VKey.Lexicon.SortOrders

/-!
# What the settings accept and the wire takes

The validators of the settings bound the words without their separators and the exclusions by
scalars; the serializer bounds the UTF-16 units of both with a separator for each.  What is accepted
is serialized exactly if it fits by the second count.
-/

namespace VKey

namespace Wire

open SpellExclusionCanonicalizer LexiconValidator

/-! ## Accepted words and rows -/

theorem admissible_of_decodeUtf16 {min max : Nat} {text : List Char16} {scalars : List Nat}
    (h : decodeUtf16 text = some scalars) (hmin : min ≤ scalars.length)
    (hmax : scalars.length ≤ max) :
    Admissible min max text := by
  refine ⟨hasInvalidSurrogates_eq_false_iff.mpr (wellFormed_of_decodeUtf16 h), ?_, ?_⟩
  all_goals
    rw [countUnicodeScalars, decodeScalars_of_decodeUtf16 h]
    assumption

theorem admissibleRow_utf16 {item : Item} (h : item.Admissible) : AdmissibleRow item.utf16 :=
  admissible_of_decodeUtf16 item.decodeUtf16_utf16 h.min h.max

variable [UnicodePlatform]

theorem admissibleWord_of_validateUserDictWord {word normal : List Char16} {lineNum : Nat}
    (h : validateUserDictWord word lineNum = .ok normal) : AdmissibleWord normal := by
  obtain ⟨scalars, -, haccepted⟩ := validateUserDictWord_eq_ok.mp h
  obtain ⟨final, hfinal, hne, hmax⟩ := haccepted.final
  exact admissible_of_decodeUtf16 hfinal (List.length_pos_of_ne_nil hne) hmax

theorem admissible_of_canonicalize {entries : List (List Char16)} {items : List Item}
    (h : canonicalize entries = .ok items) :
    items.length ≤ maxExclusionsRows ∧ ∀ row ∈ items.map Item.utf16, AdmissibleRow row := by
  obtain ⟨rows, hrows, hsort, hfew⟩ := canonicalize_eq_ok.mp h
  refine ⟨hfew, fun row hrow => ?_⟩
  obtain ⟨item, hitem, rfl⟩ := List.mem_map.mp hrow
  rw [← hsort, mem_sortUnique] at hitem
  obtain ⟨entry, -, scalars, -, -, hadmissible⟩ :=
    (mem_iff_of_forall₂ acceptsBy_unique hrows).mp hitem
  exact admissibleRow_utf16 hadmissible

/-! ## Units with separators -/

/-- The UTF-16 units of texts, with a separator for each. -/
def separatedUnits (texts : List (List Char16)) : Nat := (texts.map fun text => text.length + 1).sum

omit [UnicodePlatform] in
theorem length_lines (texts : List (List Char16)) :
    (lines texts).length = separatedUnits texts := by
  induction texts with
  | nil => rfl
  | cons text texts ih =>
      rw [length_lines_cons, ih, separatedUnits, separatedUnits, List.map_cons, List.sum_cons]

omit [UnicodePlatform] in
theorem separatedUnits_perm {texts texts' : List (List Char16)} (h : texts.Perm texts') :
    separatedUnits texts = separatedUnits texts' := (h.map _).sum_nat

/-- What has been accepted by the settings is serialized exactly if the units fit with their
separators, and the existing words that were kept are admissible themselves. -/
theorem serialize_accepted_iff {utf8Content : List UInt8} {existing entries : List (List Char16)}
    {appendMode : Bool} {imported : LexiconImport} {items : List Item}
    (hwords : parseAndValidateUserDictText utf8Content existing appendMode = .ok imported)
    (hrows : canonicalize entries = .ok items) (generation : UInt64) (spellSuggestEnabled : Bool)
    (outBuffer : Memory) :
    (∃ buffer, serialize ⟨items.map Item.utf16, imported.entries, generation, spellSuggestEnabled⟩
        outBuffer wireTotalSize = .ok buffer) ↔
      separatedUnits (items.map Item.utf16) ≤ maxExclusionsUtf16Units ∧
        separatedUnits imported.entries ≤ maxUserDictUtf16Units ∧
        (appendMode = true → ∀ word ∈ existing, AdmissibleWord word) := by
  obtain ⟨combined, hnodup, hfew, hentries, hkept, hcombined⟩ :=
    entries_of_parseAndValidateUserDictText hwords
  obtain ⟨hcount, hadmissible⟩ := admissible_of_canonicalize hrows
  have hperm : imported.entries.Perm combined := hentries ▸ List.mergeSort_perm _ _
  have hsorted : (sortUnique compareUtf16ByUnicodeScalar imported.entries).Perm imported.entries :=
    sortUnique_perm (hperm.nodup_iff.mpr hnodup)
  have hserialize : ∀ params, (∃ buffer, serialize params outBuffer wireTotalSize = .ok buffer) ↔
      Serializable params := by
    intro params
    simp only [serialize_eq_ok]
    exact ⟨fun ⟨_, _, h, _⟩ => h, fun h => ⟨_, Nat.le_refl _, h, rfl⟩⟩
  rw [hserialize]
  constructor
  · intro h
    refine ⟨length_lines _ ▸ h.rowUnits, ?_, fun happend word hmem => ?_⟩
    · rw [← separatedUnits_perm hsorted, ← length_lines]
      exact h.wordUnits
    · exact h.words word (hsorted.mem_iff.mpr (hperm.mem_iff.mpr (hkept happend word hmem)))
  · rintro ⟨hrowUnits, hwordUnits, hexisting⟩
    refine
      { rowCount := ?_
        rows := hadmissible
        rowUnits := length_lines _ ▸ hrowUnits
        wordCount := ?_
        words := fun word hmem => ?_
        wordUnits := ?_ }
    · rw [List.length_map]
      exact hcount
    · exact (hsorted.trans hperm).length_eq.trans_le hfew
    · rcases hcombined word
        ((hsorted.trans hperm).mem_iff.mp hmem) with ⟨happend, hmem⟩ | ⟨_, _, hvalid⟩
      · exact hexisting happend word hmem
      · exact admissibleWord_of_validateUserDictWord hvalid
    · rw [length_lines]
      exact (separatedUnits_perm hsorted).trans_le hwordUnits

omit [UnicodePlatform]

/-! ## Rows beyond the BMP -/

/-- An exclusion of 128 times the same scalar. -/
def longRow (cp : Nat) (h : isScalar cp = true) : Item :=
  ⟨List.replicate 128 cp, fun _ hmem => List.eq_of_mem_replicate hmem ▸ h⟩

/-- Scalars beyond the BMP take two units, and no case is converted. -/
theorem longRow_units {cp : Nat} (h : isScalar cp = true) (hcp : 0x20000 ≤ cp) :
    (longRow cp h).utf16.length = 256 ∧ (longRow cp h).utf16.map asciiLowercase =
      (longRow cp h).utf16 := by
  have hmax := (isScalar_iff.mp h).1
  have hunits : encodeScalar cp = [UInt16.ofNat (0xD800 + (cp - 0x10000) / 0x400),
      UInt16.ofNat (0xDC00 + (cp - 0x10000) % 0x400)] := by
    rw [encodeScalar, if_neg (by omega)]
  have hlower :
    ∀ n, 0xD800 ≤ n → n < 0x10000 → asciiLowercase (UInt16.ofNat n) = UInt16.ofNat n := by
    intro n hlow hhigh
    rw [asciiLowercase, toNat_ofNat_unit hhigh, if_neg (by omega)]
  constructor
  · have hlength : (encodeScalar cp).length = 2 := by
      rw [hunits, List.length_cons, List.length_singleton]
    rw [Item.utf16, List.length_flatMap, longRow, List.map_replicate, hlength,
      List.sum_replicate_nat]
  · refine (List.map_congr_left fun c hc => ?_).trans (List.map_id _)
    obtain ⟨scalar, hscalar, hc⟩ := List.mem_flatMap.mp hc
    rw [List.eq_of_mem_replicate hscalar, hunits, List.mem_cons, List.mem_singleton] at hc
    rcases hc with rfl | rfl
    · exact hlower _ (by omega) (by omega)
    · exact hlower _ (by omega) (by omega)

/-- Without a Unicode library a row is accepted as it is. -/
theorem accepts_longRow {cp : Nat} (h : isScalar cp = true) (hcp : 0x20000 ≤ cp) :
    @Accepts fallbackPlatform (longRow cp h).scalars (longRow cp h) := by
  have hspace : isUnicodeWhitespace cp = false := by
    by_contra hspace
    have hsmall := (encodeScalar_of_isUnicodeWhitespace (Bool.not_eq_false _ ▸ hspace)).2.1
    omega
  have hwhitespace : ∀ scalar ∈ (longRow cp h).scalars, isUnicodeWhitespace scalar = false :=
    fun _ hmem => List.eq_of_mem_replicate hmem ▸ hspace
  refine ⟨⟨(longRow cp h).utf16, ?_, ?_⟩, ?_, ?_, hwhitespace, ?_⟩
  · rw [trimWhitespace_eq_self hwhitespace]
    exact utf32ToUtf16_eq_some.mpr (longRow cp h).decodeUtf16_utf16
  · rw [normalizeUtf16_fallbackPlatform, (longRow_units h hcp).2]
  · rw [longRow, List.length_replicate]
    decide
  · rw [longRow, List.length_replicate]
    decide
  · intro scalar hmem
    rw [List.eq_of_mem_replicate hmem, isUnicodeControl, Bool.or_eq_false_iff]
    exact ⟨decide_eq_false (by omega), decide_eq_false (by omega)⟩

/-- Five long rows. -/
def longRows : List Item :=
  [longRow 0x20000 rfl, longRow 0x20001 rfl, longRow 0x20002 rfl, longRow 0x20003 rfl,
    longRow 0x20004 rfl]

theorem exists_of_mem_longRows :
    ∀ item ∈ longRows, ∃ cp, ∃ h : isScalar cp = true, 0x20000 ≤ cp ∧ item = longRow cp h := by
  simp only [longRows, List.forall_mem_cons]
  exact ⟨⟨_, _, by decide, rfl⟩, ⟨_, _, by decide, rfl⟩, ⟨_, _, by decide, rfl⟩,
    ⟨_, _, by decide, rfl⟩, ⟨_, _, by decide, rfl⟩, fun _ hmem => absurd hmem List.not_mem_nil⟩

theorem nodup_longRows : longRows.Nodup := by
  have hheads : (longRows.map fun item => item.scalars.head?).Nodup := by decide
  exact hheads.of_map _

/-- Five exclusions of 128 scalars beyond the BMP are accepted, and an empty dictionary, but they
are not serialized. -/
theorem not_serialize_accepted :
    ∃ imported items,
      @parseAndValidateUserDictText fallbackPlatform [] [] false = .ok imported ∧
      @canonicalize fallbackPlatform (longRows.map Item.utf16) = .ok items ∧
      ¬∃ buffer, serialize ⟨items.map Item.utf16, imported.entries, 1, true⟩
      (fun _ => 0) wireTotalSize =
        .ok buffer := by
  let _ := fallbackPlatform
  have haccepts : ∀ item ∈ longRows, Accepts item.scalars item := by
    intro item hitem
    obtain ⟨cp, h, hcp, rfl⟩ := exists_of_mem_longRows item hitem
    exact accepts_longRow h hcp
  have hperm : (sortUnique compareItems longRows).Perm longRows := sortUnique_perm nodup_longRows
  have hitems :
    canonicalize (longRows.map Item.utf16) = .ok (sortUnique compareItems longRows) := by
    refine canonicalize_eq_ok.mpr ⟨longRows, ?_, rfl, ?_⟩
    · rw [List.forall₂_map_left_iff, List.forall₂_same]
      exact fun item hitem => ⟨item.scalars, item.decodeUtf16_utf16, haccepts item hitem⟩
    · rw [hperm.length_eq]
      decide
  have hlength : ∀ item ∈ longRows, item.utf16.length = 256 := by
    intro item hitem
    obtain ⟨cp, h, hcp, rfl⟩ := exists_of_mem_longRows item hitem
    exact (longRow_units h hcp).1
  refine ⟨_, _, rfl, hitems, ?_⟩
  rintro ⟨buffer, hbuffer⟩
  obtain ⟨-, hparams, -⟩ := serialize_eq_ok.mp hbuffer
  have hunits := hparams.rowUnits
  have hsum : separatedUnits (longRows.map Item.utf16) = (longRows.map fun _ => 257).sum := by
    rw [separatedUnits, List.map_map]
    exact congrArg List.sum
      (List.map_congr_left fun item hitem => congrArg (· + 1) (hlength item hitem))
  rw [length_lines, separatedUnits_perm (hperm.map _), hsum] at hunits
  revert hunits
  decide

/-- A comment, the words `nhà` and `an`, and an empty line. -/
def twoWordsText : List UInt8 := [0x23, 0x78, 0x0A, 0x6E, 0x68, 0xC3, 0xA0, 0x0A, 0x61, 0x6E, 0x0A]

/-- Two words are imported behind one that exists, and two exclusions in the wrong order are
accepted; all of it is serialized. -/
theorem serialize_accepted_twoWords :
    ∃ imported items,
      @parseAndValidateUserDictText fallbackPlatform twoWordsText [[0x61]] true = .ok imported ∧
      imported.entries.Perm [[0x61], [0x6E, 0x68, 0xE0], [0x61, 0x6E]] ∧
      @canonicalize fallbackPlatform [[0x63, 0x64], [0x41, 0x62]] = .ok items ∧
      items.map Item.utf16 = [[0x61, 0x62], [0x63, 0x64]] ∧
      ∃ buffer, serialize ⟨items.map Item.utf16, imported.entries, 1, true⟩
      (fun _ => 0) wireTotalSize =
        .ok buffer := by
  let _ := fallbackPlatform
  have hitems : canonicalize [[0x63, 0x64], [0x41, 0x62]] =
      .ok [⟨[0x61, 0x62], by decide⟩, ⟨[0x63, 0x64], by decide⟩] := rfl
  have hperm : (([[0x61], [0x6E, 0x68, 0xE0], [0x61, 0x6E]] : List (List Char16)).mergeSort
      fun a b => (compare (utf8Of a) (utf8Of b)).isLE).Perm [[0x61],
        [0x6E, 0x68, 0xE0], [0x61, 0x6E]] :=
    List.mergeSort_perm _ _
  have hwords : parseAndValidateUserDictText twoWordsText [[0x61]] true = .ok ⟨_, 2, 0⟩ := rfl
  refine ⟨_, _, hwords, hperm, hitems, rfl,
    (serialize_accepted_iff hwords hitems 1 true _).mpr ⟨by decide, ?_, fun _ => by decide⟩⟩
  exact (separatedUnits_perm hperm).trans_le (by decide)

end Wire

end VKey
