import Mathlib.Data.Fintype.Basic
import VKey.CodeTable.Converter

/-!
# The Unicode Compound encoding

Unicode Compound writes a toned letter as its untoned letter followed by a combining mark.  The
forward map packs both into 16 bits, the mark in the high byte, and the decoder reads the base back
from the low byte alone.  A base beyond Latin-1 does not fit: its high bits are lost.

The letters of Vietnamese text are an inductive type, so a string over ASCII and the Vietnamese
letters is a list of letters.  Encoding followed by decoding is the identity on every such string;
the encoding itself is the intended one exactly when no letter has a base that does not fit.
-/

namespace VKey.CodeTableConverter

/-! ## The letters -/

/-- A toned letter: a row and a column of `kTonedVowel`, and a case. -/
structure TonedLetter where
  row : Fin 12
  tone : Fin 5
  upper : Bool

/-- The modified letters without a tone. -/
def modifiedLetters : List WChar :=
  [L 'â', L 'ă', L 'ê', L 'ô', L 'ơ', L 'ư', L 'đ']

/-- A character of Vietnamese text. -/
inductive Letter where
  | ascii (c : Fin 128)
  | modified (index : Fin 7) (upper : Bool)
  | toned (letter : TonedLetter)

section Letters

variable [WideCType]

/-- A lowercase letter in the wanted case. -/
def withCase (upper : Bool) (ch : WChar) : WChar :=
  if upper then toUpperVietnamese ch else ch

namespace TonedLetter

/-- The small letter of the table. -/
def lower (letter : TonedLetter) : WChar :=
  (kTonedVowel.getD letter.row []).getD letter.tone 0

/-- The letter itself. -/
def char (letter : TonedLetter) : WChar :=
  withCase letter.upper letter.lower

/-- The letter without its tone, in the same case. -/
def untoned (letter : TonedLetter) : WChar :=
  withCase letter.upper (stripTone letter.lower)

/-- The combining mark of the tone. -/
def mark (letter : TonedLetter) : WChar :=
  kCombiningMarks.getD letter.tone 0

end TonedLetter

namespace Letter

/-- The Unicode character of a letter. -/
def char : Letter → WChar
  | .ascii c => c
  | .modified index upper => withCase upper (modifiedLetters.getD index 0)
  | .toned letter => letter.char

/-- The intended compound form: untoned letter and mark for a toned letter, the character itself
otherwise. -/
def compound : Letter → List WChar
  | .toned letter => [letter.untoned, letter.mark]
  | letter => [letter.char]

/-- The untoned form of the letter is within Latin-1. -/
def BaseFits : Letter → Prop
  | .toned letter => letter.untoned ≤ 0xFF
  | _ => True

end Letter

end Letters

/-! ## Independence of the locale -/

section Locale

variable [w : WideCType]

/-- On ASCII, and where the Vietnamese cases apply, the uppercase conversion is that of the
C locale. -/
theorem toUpperVietnamese_eq_cLocale {ch : Nat} (hch : ch < 0x80 ∨ IsLowerLatin ch)
    (hne : ch ≠ 0xDF ∧ ch ≠ 0xF7 ∧ ch ≠ 0xFF) :
    @toUpperVietnamese w ch = @toUpperVietnamese cLocale ch := by
  rcases hch with hascii | hlower
  · unfold toUpperVietnamese
    rw [w.towupper_ascii ch hascii, cLocale.towupper_ascii ch hascii]
  · simp only [IsLowerLatin, List.mem_cons, List.not_mem_nil, or_false] at hlower
    rcases hlower with hblock | hletter | hodd
    · unfold toUpperVietnamese
      by_cases hlow : ch ≤ 0x00F6
      · have hfirst : 0x00E0 ≤ ch ∧ ch ≤ 0x00F6 := by omega
        rw [if_pos hfirst, if_pos hfirst]
      · have hfirst : ¬(0x00E0 ≤ ch ∧ ch ≤ 0x00F6) := by omega
        have hsecond : 0x00F8 ≤ ch ∧ ch ≤ 0x00FE := by omega
        rw [if_neg hfirst, if_pos hsecond, if_neg hfirst, if_pos hsecond]
    · rcases hletter with rfl | rfl | rfl | rfl | rfl | rfl <;> rfl
    · have hblock : 0x1EA0 ≤ ch ∧ ch ≤ 0x1EF9 := ⟨by omega, hodd.2.1⟩
      unfold toUpperVietnamese
      split_ifs <;> rfl

theorem stripTone_eq_cLocale {ch : WChar} (hch : IsLowerLatin ch) :
    @stripTone w ch = @stripTone cLocale ch := by
  unfold stripTone
  rw [w.towlower_lower ch hch, cLocale.towlower_lower ch hch]

omit w in
/-- What the tables hold of a toned letter in the C locale: its small form and its untoned form are
lowercase Latin, the forward map packs the untoned form and the mark, and the reverse map knows the
pair. -/
theorem TonedLetter.tables (letter : TonedLetter) :
    (IsLowerLatin letter.lower ∧ letter.lower ≠ 0xDF ∧ letter.lower ≠ 0xF7 ∧
        letter.lower ≠ 0xFF) ∧
      ((@stripTone cLocale letter.lower < 0x80 ∨
          IsLowerLatin (@stripTone cLocale letter.lower)) ∧
        @stripTone cLocale letter.lower ≠ 0xDF ∧ @stripTone cLocale letter.lower ≠ 0xF7 ∧
        @stripTone cLocale letter.lower ≠ 0xFF) ∧
      @convertChar (@TonedLetter.char cLocale letter) .unicodeCompound =
        .pair (@TonedLetter.untoned cLocale letter % 0x100) letter.mark ∧
      (kUnicodeCompoundMap.filterMap fun entry =>
        (compoundKey entry.2).map fun key => (key, entry.1)).lookup
          (pairKey (@TonedLetter.untoned cLocale letter % 0x100) letter.mark) =
        some (@TonedLetter.char cLocale letter) ∧
      isCombiningMark (@TonedLetter.untoned cLocale letter % 0x100) = false ∧
      isCombiningMark letter.mark = true := by
  obtain ⟨row, tone, upper⟩ := letter
  revert row tone upper
  decide +kernel

omit w in
/-- What the tables hold of a modified letter in the C locale: it is lowercase Latin, and the
forward map copies it. -/
theorem modifiedLetters_tables (index : Fin 7) (upper : Bool) :
    (IsLowerLatin (modifiedLetters.getD index 0) ∧ modifiedLetters.getD index 0 ≠ 0xDF ∧
        modifiedLetters.getD index 0 ≠ 0xF7 ∧ modifiedLetters.getD index 0 ≠ 0xFF) ∧
      convertChar (@Letter.char cLocale (.modified index upper)) .unicodeCompound =
        .single (@Letter.char cLocale (.modified index upper)) ∧
      @Letter.char cLocale (.modified index upper) ∈ kUnicodeCompoundMap.map Prod.fst ∧
      isCombiningMark (@Letter.char cLocale (.modified index upper)) = false := by
  revert index upper
  decide +kernel

theorem withCase_eq_cLocale {ch : Nat} (hch : ch < 0x80 ∨ IsLowerLatin ch)
    (hne : ch ≠ 0xDF ∧ ch ≠ 0xF7 ∧ ch ≠ 0xFF) (upper : Bool) :
    @withCase w upper ch = @withCase cLocale upper ch := by
  cases upper
  · rfl
  · exact toUpperVietnamese_eq_cLocale hch hne

theorem TonedLetter.char_eq_cLocale (letter : TonedLetter) :
    @TonedLetter.char w letter = @TonedLetter.char cLocale letter :=
  withCase_eq_cLocale (Or.inr letter.tables.1.1) letter.tables.1.2 _

theorem TonedLetter.untoned_eq_cLocale (letter : TonedLetter) :
    @TonedLetter.untoned w letter = @TonedLetter.untoned cLocale letter := by
  unfold TonedLetter.untoned
  rw [stripTone_eq_cLocale letter.tables.1.1]
  exact withCase_eq_cLocale letter.tables.2.1.1 letter.tables.2.1.2 _

theorem Letter.char_eq_cLocale (letter : Letter) :
    @Letter.char w letter = @Letter.char cLocale letter := by
  cases letter with
  | ascii c => rfl
  | modified index upper =>
      have hlower := (modifiedLetters_tables index upper).1
      exact withCase_eq_cLocale (Or.inr hlower.1) hlower.2 upper
  | toned letter => exact letter.char_eq_cLocale

end Locale

/-! ## Reverse maps without collisions -/

section Reverse

variable [WideCType]

omit [WideCType] in
theorem lookup_eq_none_of_notMem_keys {rev : ReverseMap} {key : Nat}
    (hkey : key ∉ rev.map Prod.fst) : rev.lookup key = none := by
  rw [List.lookup_eq_none_iff]
  intro entry hentry
  have hne : key ≠ entry.1 := fun h => hkey (h ▸ List.mem_map_of_mem hentry)
  simpa using hne

/-- A reverse map whose keys are distinct lists the entries in their order; which letters are
lowercase plays no part. -/
theorem buildReverse_eq_filterMap (keyOf : Nat → Option Nat) (forward : CodeMap)
    (hnodup : (forward.filterMap fun entry => keyOf entry.2).Nodup) :
    buildReverse keyOf forward =
      forward.filterMap fun entry => (keyOf entry.2).map fun key => (key, entry.1) := by
  have hfold : ∀ (forward : CodeMap) (rev : ReverseMap),
      (rev.map Prod.fst ++ forward.filterMap fun entry => keyOf entry.2).Nodup →
      forward.foldl
          (fun rev entry => ((keyOf entry.2).map fun key => rev.enter key entry.1).getD rev) rev =
        rev ++ forward.filterMap fun entry => (keyOf entry.2).map fun key => (key, entry.1) := by
    intro forward
    induction forward with
    | nil => simp
    | cons entry forward ih =>
        intro rev hnodup
        cases hkey : keyOf entry.2 with
        | none =>
            simp only [List.filterMap_cons, List.foldl_cons, hkey, Option.map_none,
              Option.getD_none] at hnodup ⊢
            exact ih rev hnodup
        | some key =>
            simp only [List.filterMap_cons, List.foldl_cons, hkey, Option.map_some,
              Option.getD_some] at hnodup ⊢
            have hfresh : key ∉ rev.map Prod.fst := by
              intro hmem
              exact List.disjoint_of_nodup_append hnodup hmem List.mem_cons_self
            have henter : rev.enter key entry.1 = rev ++ [(key, entry.1)] := by
              simp [ReverseMap.enter, lookup_eq_none_of_notMem_keys hfresh]
            rw [henter, ih _ (by simpa using hnodup), List.append_assoc, List.singleton_append]
  unfold buildReverse
  rw [hfold forward [] (by simpa using hnodup), List.nil_append]

theorem getCompoundReverse_eq :
    getCompoundReverse = kUnicodeCompoundMap.filterMap fun entry =>
      (compoundKey entry.2).map fun key => (key, entry.1) :=
  buildReverse_eq_filterMap _ _ (by decide +kernel)

end Reverse

/-! ## Single letters -/

section Encoded

variable [w : WideCType]

/-- The letters are ASCII and the characters the forward map knows. -/
theorem exists_letter_char_eq_iff (ch : WChar) :
    (∃ letter : Letter, letter.char = ch) ↔
      ch < 0x80 ∨ ch ∈ kUnicodeCompoundMap.map Prod.fst := by
  constructor
  · rintro ⟨letter, rfl⟩
    rw [Letter.char_eq_cLocale]
    cases letter with
    | ascii c => exact Or.inl c.isLt
    | modified index upper => exact Or.inr (modifiedLetters_tables index upper).2.2.1
    | toned letter =>
        obtain ⟨-, -, hpair, -⟩ := letter.tables
        refine Or.inr ?_
        by_contra hmem
        have hkey : @TonedLetter.char cLocale letter ∉ kUnicodeCompoundMap.map Prod.fst := hmem
        rw [convertChar, lookup_eq_none_of_notMem_keys hkey] at hpair
        simp at hpair
  · rintro (hascii | hmap)
    · exact ⟨.ascii ⟨ch, hascii⟩, rfl⟩
    · have hletters : ∀ ch ∈ kUnicodeCompoundMap.map Prod.fst,
          (∃ index upper, @Letter.char cLocale (.modified index upper) = ch) ∨
            ∃ row tone upper, @Letter.char cLocale (.toned ⟨row, tone, upper⟩) = ch := by
        decide +kernel
      rcases hletters ch hmap with ⟨index, upper, h⟩ | ⟨row, tone, upper, h⟩
      · exact ⟨.modified index upper, by rw [Letter.char_eq_cLocale, h]⟩
      · exact ⟨.toned ⟨row, tone, upper⟩, by rw [Letter.char_eq_cLocale, h]⟩

/-- What the encoder makes of a letter. -/
def Letter.encoded : Letter → EncodedChar
  | .toned letter => .pair (letter.untoned % 0x100) letter.mark
  | letter => .single letter.char

theorem convertChar_char (letter : Letter) :
    convertChar letter.char .unicodeCompound = letter.encoded := by
  cases letter with
  | ascii c =>
      have hkeys : ∀ key ∈ kUnicodeCompoundMap.map Prod.fst, 0x80 ≤ key := by decide +kernel
      have hkey : (c : Nat) ∉ kUnicodeCompoundMap.map Prod.fst := by
        intro hmem
        have hle := hkeys _ hmem
        omega
      change convertChar (c : Nat) .unicodeCompound = .single (c : Nat)
      rw [convertChar, lookup_eq_none_of_notMem_keys hkey]
      rfl
  | modified index upper =>
      simpa only [Letter.encoded, Letter.char_eq_cLocale]
        using (modifiedLetters_tables index upper).2.1
  | toned letter =>
      simpa only [Letter.encoded, Letter.char, TonedLetter.char_eq_cLocale,
        TonedLetter.untoned_eq_cLocale] using letter.tables.2.2.1

omit w in
theorem TonedLetter.isCombiningMark_mark (letter : TonedLetter) :
    isCombiningMark letter.mark = true := letter.tables.2.2.2.2.2

theorem TonedLetter.lookup_getCompoundReverse (letter : TonedLetter) :
    getCompoundReverse.lookup (pairKey (letter.untoned % 0x100) letter.mark) =
      some letter.char := by
  rw [getCompoundReverse_eq, TonedLetter.char_eq_cLocale, TonedLetter.untoned_eq_cLocale]
  exact letter.tables.2.2.2.1

/-- The first unit of an encoded letter is never a combining mark. -/
theorem Letter.isCombiningMark_head (letter : Letter) :
    ∀ unit ∈ letter.encoded.units.head?, isCombiningMark unit = false := by
  cases letter with
  | ascii c =>
      rintro unit ⟨⟩
      have hlt := c.isLt
      change isCombiningMark (c : Nat) = false
      have hne : ∀ mark, 128 ≤ mark → ((c : Nat) == mark) = false := fun mark hmark =>
        beq_eq_false_iff_ne.mpr (by omega)
      simp [isCombiningMark, hne]
  | modified index upper =>
      simpa [Letter.encoded, EncodedChar.units, Letter.char_eq_cLocale]
        using (modifiedLetters_tables index upper).2.2.2
  | toned letter =>
      simpa [Letter.encoded, EncodedChar.units, TonedLetter.untoned_eq_cLocale]
        using letter.tables.2.2.2.2.1

theorem Letter.units_encoded_eq_compound_iff (letter : Letter) :
    letter.encoded.units = letter.compound ↔ letter.BaseFits := by
  cases letter with
  | ascii c => simp [encoded, EncodedChar.units, compound, BaseFits]
  | modified index upper => simp [encoded, EncodedChar.units, compound, BaseFits]
  | toned letter =>
      have hmod : letter.untoned % 0x100 = letter.untoned ↔ letter.untoned ≤ 0xFF := by
        rw [Nat.mod_eq_iff_lt (by decide)]
        exact Nat.lt_succ_iff
      simpa [encoded, EncodedChar.units, compound, BaseFits] using hmod

/-! ## Strings -/

theorem encodeString_map_char (s : List Letter) :
    encodeString (s.map Letter.char) .unicodeCompound = s.flatMap fun l => l.encoded.units := by
  simp only [encodeString, List.flatMap_map, convertChar_char]

omit w in
theorem decodeCompoundString_cons {rest : List WChar} (rev : ReverseMap) (unit : WChar)
    (hrest : ∀ next ∈ rest.head?, isCombiningMark next = false) :
    decodeCompoundString rev (unit :: rest) = unit :: decodeCompoundString rev rest := by
  cases rest with
  | nil => rfl
  | cons next rest =>
      have hnext : ¬isCombiningMark next = true := by simp [hrest next rfl]
      rw [decodeCompoundString, if_neg hnext]

omit w in
theorem decodeCompoundString_pair {rev : ReverseMap} {unit mark wch : WChar}
    (rest : List WChar) (hmark : isCombiningMark mark = true)
    (hlookup : rev.lookup (pairKey unit mark) = some wch) :
    decodeCompoundString rev (unit :: mark :: rest) = wch :: decodeCompoundString rev rest := by
  rw [decodeCompoundString, if_pos hmark, hlookup]

theorem isCombiningMark_head_flatMap (s : List Letter) :
    ∀ unit ∈ (s.flatMap fun l => l.encoded.units).head?, isCombiningMark unit = false := by
  cases s with
  | nil => simp
  | cons letter s =>
      have hhead := letter.isCombiningMark_head
      cases hunits : letter.encoded with
      | single unit => simpa [hunits, EncodedChar.units] using hhead
      | pair first second => simpa [hunits, EncodedChar.units] using hhead

theorem decodeCompoundString_flatMap (s : List Letter) :
    decodeCompoundString getCompoundReverse (s.flatMap fun l => l.encoded.units)
    = s.map Letter.char := by
  induction s with
  | nil => rfl
  | cons letter s ih =>
      have hrest := isCombiningMark_head_flatMap s
      rw [List.flatMap_cons, List.map_cons, ← ih]
      cases letter with
      | ascii c => exact decodeCompoundString_cons _ _ hrest
      | modified index upper => exact decodeCompoundString_cons _ _ hrest
      | toned letter =>
          exact decodeCompoundString_pair _ letter.isCombiningMark_mark
            letter.lookup_getCompoundReverse

/-- The encoding of a string is the intended one exactly when that of every letter is. -/
theorem flatMap_units_eq_compound_iff (s : List Letter) :
    (s.flatMap fun l => l.encoded.units) = s.flatMap Letter.compound ↔ ∀ l ∈ s, l.BaseFits := by
  induction s with
  | nil => simp
  | cons letter s ih =>
      have hlength : letter.encoded.units.length = letter.compound.length := by
        cases letter <;> rfl
      rw [List.flatMap_cons, List.flatMap_cons, List.forall_mem_cons, ← ih,
        ← letter.units_encoded_eq_compound_iff]
      constructor
      · exact fun h => List.append_inj h hlength
      · rintro ⟨hletter, hs⟩
        rw [hletter, hs]

/-! ## Exactness -/

/-- Unicode Compound is exact on a string: every letter is written in its intended compound form
and decoding gives the string back. -/
def CompoundExact (s : List Letter) : Prop :=
  encodeString (s.map Letter.char) .unicodeCompound = s.flatMap Letter.compound ∧
    decodeString (encodeString (s.map Letter.char) .unicodeCompound) .unicodeCompound =
      s.map Letter.char

/-- Unicode Compound is exact on a string if and only if every toned letter in it has an untoned
form within Latin-1. -/
theorem compoundExact_iff (s : List Letter) : CompoundExact s ↔ ∀ l ∈ s, l.BaseFits := by
  unfold CompoundExact
  rw [encodeString_map_char]
  simp only [decodeString, decodeCompoundString_flatMap, and_true]
  exact flatMap_units_eq_compound_iff s

end Encoded

/-- A toned `ă` is not written as `ă` and an acute mark. -/
theorem not_compoundExact_breve_acute :
    ¬ ∀ s : List Letter, @CompoundExact cLocale s := by
  intro h
  have hencode := (h [.toned ⟨2, 0, false⟩]).1
  revert hencode
  decide +kernel

end VKey.CodeTableConverter
