import VKey.Lexicon.TextRoundTrip
import VKey.Text.ScalarOrder

/-!
# The two orders of the user dictionary

The settings sort words by their UTF-8 bytes; the validator of the shared memory wants them strictly
increasing by Unicode scalars.  On words without a lone surrogate these are the same order.
-/

namespace VKey

namespace LexiconValidator

open SpellExclusionCanonicalizer

/-- Every word comes after the one before it, by Unicode scalars. -/
def isStrictlySorted : List (List Char16) → Bool
  | [] => true
  | [_] => true
  | prevWord :: currentWord :: words =>
      compareScalars prevWord currentWord == .lt && isStrictlySorted (currentWord :: words)

/-! ## One order -/

theorem decodeUtf16_of_wellFormed {word : List Char16} (h : WellFormedUtf16 word) :
    ∃ scalars, decodeUtf16 word = some scalars := by
  refine ⟨(utf16ToUtf32 word).1, ?_⟩
  rw [decodeUtf16, if_pos (snd_utf16ToUtf32.mpr h)]

theorem wellFormed_of_decodeUtf16 {word : List Char16} {scalars : List Nat}
    (h : decodeUtf16 word = some scalars) : WellFormedUtf16 word :=
  wellFormedUtf16_iff.mpr ⟨scalars, decodeUtf16_eq_some.mp h⟩

theorem decodeScalars_of_decodeUtf16 {word : List Char16} {scalars : List Nat}
    (h : decodeUtf16 word = some scalars) : decodeScalars word = scalars := by
  rw [← fst_utf16ToUtf32 h, utf16ToUtf32_snd (snd_utf16ToUtf32.mpr (wellFormed_of_decodeUtf16 h))]

theorem compareScalars_eq_compare_utf8Of {a b : List Char16} (ha : WellFormedUtf16 a)
    (hb : WellFormedUtf16 b) : compareScalars a b = compare (utf8Of a) (utf8Of b) := by
  obtain ⟨s, hs⟩ := decodeUtf16_of_wellFormed ha
  obtain ⟨t, ht⟩ := decodeUtf16_of_wellFormed hb
  rw [compareScalars_eq, compareUtf16ByUnicodeScalar, decodeScalars_of_decodeUtf16 hs,
    decodeScalars_of_decodeUtf16 ht, utf8Of_eq, utf8Of_eq, fst_utf16ToUtf32 hs, fst_utf16ToUtf32 ht]
  exact (compareLex_flatMap_encodeUtf8 (decodeUtf16_eq_some.mp hs).1
    (decodeUtf16_eq_some.mp ht).1).symm

/-- The words are increasing in UTF-8. -/
def Increasing (words : List (List Char16)) : Prop :=
  words.Pairwise fun a b => compare (utf8Of a) (utf8Of b) = .lt

/-- The validator accepts what is increasing in UTF-8. -/
theorem isStrictlySorted_iff {words : List (List Char16)}
    (hwords : ∀ word ∈ words, WellFormedUtf16 word) :
    isStrictlySorted words = true ↔ Increasing words := by
  have htrans : IsTrans (List Char16) fun a b => compare (utf8Of a) (utf8Of b) = .lt :=
    ⟨fun _ _ _ => Std.TransCmp.lt_trans⟩
  unfold Increasing
  rw [← List.isChain_iff_pairwise]
  fun_induction isStrictlySorted words with
  | case1 => simp
  | case2 => simp
  | case3 prevWord currentWord words ih =>
      obtain ⟨hprev, hrest⟩ := List.forall_mem_cons.mp hwords
      have hcurrent := hrest currentWord List.mem_cons_self
      rw [Bool.and_eq_true, beq_iff_eq, compareScalars_eq_compare_utf8Of hprev hcurrent,
        List.isChain_cons_cons]
      exact and_congr_right fun _ => ih hrest

/-! ## The settings -/

/-- What is parsed of lines has been validated. -/
theorem exists_of_mem_parseLines {isComment : Nat → Bool}
    {validate : List Char16 → Nat → Except LexiconError (List Char16)} {lineNum : Nat}
    {lines : List (List UInt8)} {words : List (List Char16)}
    (h : parseLines isComment validate lineNum lines = .ok words) :
    ∀ word ∈ words, ∃ source lineNum, validate source lineNum = .ok word := by
  induction lines generalizing lineNum words with
  | nil =>
      obtain rfl := Except.ok.inj h
      exact fun _ hmem => absurd hmem List.not_mem_nil
  | cons line lines ih =>
      obtain ⟨u32, -, hline⟩ := except_bind_eq_ok.mp h
      dsimp only at hline
      split_ifs at hline with hblank
      · exact ih hline
      · obtain ⟨lineUtf16, -, hvalidate⟩ := except_bind_eq_ok.mp hline
        obtain ⟨normalized, hnormalized, hrest⟩ := except_bind_eq_ok.mp hvalidate
        obtain ⟨rest, hlines, hwords⟩ := except_bind_eq_ok.mp hrest
        obtain rfl := Except.ok.inj hwords
        exact List.forall_mem_cons.mpr ⟨⟨lineUtf16, lineNum, hnormalized⟩, ih hlines⟩

variable [UnicodePlatform]

theorem wellFormed_of_validateUserDictWord {word normal : List Char16} {lineNum : Nat}
    (h : validateUserDictWord word lineNum = .ok normal) : WellFormedUtf16 normal := by
  obtain ⟨scalars, -, haccepted⟩ := validateUserDictWord_eq_ok.mp h
  obtain ⟨final, hfinal, -⟩ := haccepted.final
  exact wellFormed_of_decodeUtf16 hfinal

/-- A text that is imported gives the existing words, if they are kept, and words that have been
validated: each of them once, and not too many. -/
theorem entries_of_parseAndValidateUserDictText {utf8Content : List UInt8}
    {existing : List (List Char16)} {appendMode : Bool} {imported : LexiconImport}
    (h : parseAndValidateUserDictText utf8Content existing appendMode = .ok imported) :
    ∃ combined : List (List Char16), combined.Nodup ∧ combined.length ≤ kMaxUserDictEntries ∧
      imported.entries = combined.mergeSort (fun a b => (compare (utf8Of a) (utf8Of b)).isLE) ∧
      (appendMode = true → ∀ word ∈ existing, word ∈ combined) ∧
      ∀ word ∈ combined, (appendMode = true ∧ word ∈ existing) ∨
        ∃ source lineNum, validateUserDictWord source lineNum = .ok word := by
  obtain ⟨parsedWords, hparsed, hcombined⟩ := except_bind_eq_ok.mp h
  have hkept : ∀ word, word ∈ (appendNew [] (if appendMode then existing else [])).1 ↔
      appendMode = true ∧ word ∈ existing := by
    intro word
    rw [mem_appendNew, or_iff_right List.not_mem_nil]
    cases appendMode <;> simp
  have hnodup : (appendNew [] (if appendMode then existing else [])).1.Nodup :=
    nodup_appendNew List.nodup_nil
  dsimp only at hcombined
  generalize (appendNew [] (if appendMode then existing else [])).1 = kept at hkept hnodup hcombined
  split_ifs at hcombined with hmany hlong
  obtain rfl := Except.ok.inj hcombined
  refine ⟨_, nodup_appendNew hnodup, Nat.le_of_not_lt hmany, rfl, ?_, ?_⟩
  · intro happend word hmem
    exact mem_appendNew.mpr (Or.inl ((hkept word).mpr ⟨happend, hmem⟩))
  · intro word hmem
    rcases mem_appendNew.mp hmem with hmem | hmem
    · exact Or.inl ((hkept word).mp hmem)
    · exact Or.inr (exists_of_mem_parseLines hparsed word hmem)

/-- A text that is imported gives an increasing list. -/
theorem increasing_of_parseAndValidateUserDictText {utf8Content : List UInt8}
    {existing : List (List Char16)} {appendMode : Bool} {imported : LexiconImport}
    (hexisting : ∀ word ∈ existing, WellFormedUtf16 word)
    (h : parseAndValidateUserDictText utf8Content existing appendMode = .ok imported) :
    (∀ word ∈ imported.entries, WellFormedUtf16 word) ∧ Increasing imported.entries := by
  obtain ⟨combined, hnodup, -, hentries, -, hcombined⟩ := entries_of_parseAndValidateUserDictText h
  have hwords : ∀ word ∈ combined, WellFormedUtf16 word := by
    intro word hmem
    rcases hcombined word hmem with ⟨-, hmem⟩ | ⟨source, lineNum, hvalid⟩
    · exact hexisting word hmem
    · exact wellFormed_of_validateUserDictWord hvalid
  have hsorted := sortedWords_mergeSort hnodup fun word hmem =>
    decodeUtf16_of_wellFormed (hwords word hmem)
  rw [hentries]
  exact ⟨fun word hmem => hwords word ((hsorted.2 word).mp hmem), hsorted.1⟩

/-- The two comparisons are one on words without a lone surrogate, so what the settings have sorted
is accepted by the validator, and what it accepts the settings would not sort in another way. -/
theorem sortOrders_agree :
    (∀ a b, WellFormedUtf16 a → WellFormedUtf16 b →
      compareScalars a b = compare (utf8Of a) (utf8Of b)) ∧
    (∀ words, (∀ word ∈ words, WellFormedUtf16 word) →
      (isStrictlySorted words = true ↔
        words.Pairwise fun a b => compare (utf8Of a) (utf8Of b) = .lt)) ∧
    (∀ utf8Content existing appendMode imported, (∀ word ∈ existing, WellFormedUtf16 word) →
      parseAndValidateUserDictText utf8Content existing appendMode = .ok imported →
        isStrictlySorted imported.entries = true) ∧
    ∀ words, (∀ word ∈ words, WellFormedUtf16 word) → isStrictlySorted words = true →
      (words.mergeSort fun a b => (compare (utf8Of a) (utf8Of b)).isLE) = words := by
  refine ⟨fun a b => compareScalars_eq_compare_utf8Of, fun words => isStrictlySorted_iff,
    fun utf8Content existing appendMode imported hexisting h => ?_, fun words hwords h => ?_⟩
  · obtain ⟨hwords, hincreasing⟩ := increasing_of_parseAndValidateUserDictText hexisting h
    exact (isStrictlySorted_iff hwords).mpr hincreasing
  · refine List.mergeSort_of_pairwise (((isStrictlySorted_iff hwords).mp h).imp fun {a b} hlt => ?_)
    rw [hlt]
    rfl

omit [UnicodePlatform] in
/-- A word outside the BMP comes after U+FFFD in both orders, though its first unit is less. -/
theorem sortOrders_agree_beyondBmp :
    compareScalars [0xFFFD] [0xD83D, 0xDE00] = compare (utf8Of [0xFFFD])
    (utf8Of [0xD83D, 0xDE00]) :=
  letI := fallbackPlatform
  sortOrders_agree.1 [0xFFFD] [0xD83D, 0xDE00] (.unit (by decide) .nil)
    (.pair (by decide) (by decide) .nil)

end LexiconValidator

end VKey
