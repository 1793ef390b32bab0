import VKey.Lexicon.Validation

/-!
# What the validators accept

Each validator is characterized by what it accepts, with no mention of its error paths: the trimmed
text, its normal form, and the bounds on both.
-/

namespace VKey

namespace SpellExclusionCanonicalizer

/-! ## Encodings -/

theorem decodeUtf16_eq_some {units : List Char16} {scalars : List Nat} :
    decodeUtf16 units = some scalars ↔
      (∀ cp ∈ scalars, isScalar cp = true) ∧ scalars.flatMap encodeScalar = units := by
  unfold decodeUtf16
  constructor
  · intro h
    split_ifs at h with hok
    obtain rfl := Option.some.inj h
    refine ⟨isScalar_of_mem_utf16ToUtf32, ?_⟩
    rw [utf16ToUtf32_snd hok, flatMap_encodeScalar_decodeScalars]
  · rintro ⟨hscalar, rfl⟩
    rw [utf16ToUtf32_flatMap_encodeScalar hscalar, if_pos rfl]

theorem fst_utf16ToUtf32 {units : List Char16} {scalars : List Nat}
    (h : decodeUtf16 units = some scalars) : (utf16ToUtf32 units).1 = scalars := by
  unfold decodeUtf16 at h
  split_ifs at h
  exact Option.some.inj h

theorem utf32ToUtf16_eq_some {scalars : List Nat} {units : List Char16} :
    utf32ToUtf16 scalars = some units ↔ decodeUtf16 units = some scalars := by
  rw [decodeUtf16_eq_some, utf32ToUtf16]
  split_ifs with hall
  · rw [List.all_eq_true] at hall
    simp [and_iff_right hall]
  · refine ⟨fun h => absurd h (by simp), fun h => absurd (List.all_eq_true.mpr h.1) hall⟩

/-! ## Trimming -/

theorem trimWhitespace_sublist (input : List Nat) : (trimWhitespace input).Sublist input :=
  (List.rdropWhile_prefix _ _).sublist.trans (List.dropWhile_sublist _)

theorem trimWhitespace_eq_self {input : List Nat}
    (h : ∀ cp ∈ input, isUnicodeWhitespace cp = false) : trimWhitespace input = input := by
  have hdrop : input.dropWhile isUnicodeWhitespace = input := by
    cases input with
    | nil => rfl
    | cons cp input =>
        exact List.dropWhile_cons_of_neg (by simp [h cp List.mem_cons_self])
  rw [trimWhitespace, hdrop, List.rdropWhile_eq_self_iff]
  intro hne
  rw [h _ (List.getLast_mem hne)]
  exact Bool.false_ne_true

theorem head_dropWhile_not {p : Nat → Bool} {input : List Nat} {cp : Nat} {rest : List Nat}
    (h : input.dropWhile p = cp :: rest) : p cp = false := by
  have hhead := List.head?_dropWhile_not p input
  rw [h] at hhead
  simpa using hhead

theorem dropWhile_trimWhitespace (input : List Nat) :
    (trimWhitespace input).dropWhile isUnicodeWhitespace = trimWhitespace input := by
  cases htrim : trimWhitespace input with
  | nil => rfl
  | cons cp rest =>
      obtain ⟨tail, htail⟩ :=
        List.rdropWhile_prefix isUnicodeWhitespace (input.dropWhile isUnicodeWhitespace)
      rw [← trimWhitespace, htrim, List.cons_append] at htail
      have hcp : isUnicodeWhitespace cp = false := head_dropWhile_not htail.symm
      exact List.dropWhile_cons_of_neg (by simp [hcp])

theorem trimWhitespace_trimWhitespace (input : List Nat) :
    trimWhitespace (trimWhitespace input) = trimWhitespace input := by
  rw [trimWhitespace, dropWhile_trimWhitespace, trimWhitespace, List.rdropWhile_idempotent]

theorem trimWhitespace_append_left {space : List Nat}
    (h : ∀ cp ∈ space, isUnicodeWhitespace cp = true) (input : List Nat) :
    trimWhitespace (space ++ input) = trimWhitespace input := by
  rw [trimWhitespace, List.dropWhile_append_of_pos h, trimWhitespace]

theorem trimWhitespace_append_right {space : List Nat}
    (h : ∀ cp ∈ space, isUnicodeWhitespace cp = true) (input : List Nat) :
    trimWhitespace (input ++ space) = trimWhitespace input := by
  have hspace : space.dropWhile isUnicodeWhitespace = [] := List.dropWhile_eq_nil_iff.mpr h
  rw [trimWhitespace, trimWhitespace, List.dropWhile_append]
  split_ifs with hempty
  · rw [hspace, List.isEmpty_iff.mp hempty]
  · rw [List.rdropWhile, List.reverse_append, List.dropWhile_append_of_pos, List.rdropWhile]
    intro cp hcp
    exact h cp (List.mem_reverse.mp hcp)

theorem exists_append_trimWhitespace (input : List Nat) :
    ∃ before after, input = before ++ trimWhitespace input ++ after ∧
      (∀ cp ∈ before, isUnicodeWhitespace cp = true) ∧
      ∀ cp ∈ after, isUnicodeWhitespace cp = true := by
  refine ⟨input.takeWhile isUnicodeWhitespace,
    (input.dropWhile isUnicodeWhitespace).rtakeWhile isUnicodeWhitespace, ?_, ?_, ?_⟩
  · rw [List.append_assoc, trimWhitespace, List.rdropWhile_append_rtakeWhile,
      List.takeWhile_append_dropWhile]
  · intro cp hcp
    exact List.mem_takeWhile_imp hcp
  · intro cp hcp
    exact List.mem_rtakeWhile_imp hcp

namespace Item

theorem decodeUtf16_utf16 (item : Item) : decodeUtf16 item.utf16 = some item.scalars :=
  decodeUtf16_eq_some.mpr ⟨item.isScalar, rfl⟩

theorem utf16_injective : Function.Injective utf16 := fun a b h => by
  have hscalars := a.decodeUtf16_utf16
  rw [h, b.decodeUtf16_utf16] at hscalars
  cases a
  cases b
  simpa using hscalars.symm

theorem utf8_injective : Function.Injective utf8 := fun a b h => by
  have hscalars := utf8ToUtf32_flatMap_encodeUtf8 a.isScalar
  have heq : a.scalars.flatMap encodeUtf8 = b.scalars.flatMap encodeUtf8 := h
  rw [heq, utf8ToUtf32_flatMap_encodeUtf8 b.isScalar] at hscalars
  cases a
  cases b
  simpa using hscalars.symm

instance : Std.TransCmp compareItems where
  eq_swap {a b} := show compare a.utf8 b.utf8 = (compare b.utf8 a.utf8).swap from
    Std.OrientedCmp.eq_swap
  isLE_trans {a b c} (hab : (compare a.utf8 b.utf8).isLE) (hbc : (compare b.utf8 c.utf8).isLE) :=
    show (compare a.utf8 c.utf8).isLE from Std.TransCmp.isLE_trans hab hbc

instance : Std.LawfulEqCmp compareItems where
  compare_self {a} := show compare a.utf8 a.utf8 = .eq from Std.ReflCmp.compare_self
  eq_of_compare h := utf8_injective (Std.LawfulEqCmp.eq_of_compare h)

/-- The lengths and the characters of an exclusion. -/
structure Admissible (item : Item) : Prop where
  min : kMinSpellExclusionScalars ≤ item.scalars.length
  max : item.scalars.length ≤ kMaxSpellExclusionScalars
  whitespace : ∀ cp ∈ item.scalars, isUnicodeWhitespace cp = false
  control : ∀ cp ∈ item.scalars, isUnicodeControl cp = false

end Item

/-! ## Exclusions -/

variable [UnicodePlatform]

/-- Normalize, convert to lowercase and normalize again. -/
def normalizeUtf16 (units : List Char16) : Option (List Char16) :=
  (normalizeNfcUtf16 units).bind fun nfc1 =>
    (toLowercaseUtf16 nfc1).bind normalizeNfcUtf16

/-- An exclusion is accepted if its trimmed text has an admissible normal form. -/
theorem normalizeAndValidate_eq_ok {input : List Nat} {row : Nat} {item : Item} :
    normalizeAndValidate input row = .ok item ↔
      (∃ units, utf32ToUtf16 (trimWhitespace input) = some units ∧
        normalizeUtf16 units = some item.utf16) ∧ item.Admissible := by
  unfold normalizeAndValidate
  simp only [except_bind_eq_ok, orError_eq_ok]
  constructor
  · rintro ⟨units, hunits, nfc1, hnfc1, lowered, hlowered, nfc2, hnfc2, scalars, hscalars, hchecks⟩
    split_ifs at hchecks with hmin hmax hany hvalid
    obtain rfl := Except.ok.inj hchecks
    have hitem : Item.utf16 ⟨scalars, hvalid⟩ = nfc2 := (decodeUtf16_eq_some.mp hscalars).2
    rw [List.any_eq_true, not_exists] at hany
    refine ⟨⟨units, hunits, ?_⟩, Nat.le_of_not_lt hmin, Nat.le_of_not_lt hmax, ?_, ?_⟩
    · rw [hitem, normalizeUtf16, hnfc1, Option.bind_some, hlowered, Option.bind_some, hnfc2]
    · intro cp hcp
      by_contra hspace
      exact hany cp ⟨hcp, by simp [hspace]⟩
    · intro cp hcp
      by_contra hcontrol
      exact hany cp ⟨hcp, by simp [hcontrol]⟩
  · rintro ⟨⟨units, hunits, hnormal⟩, hadmissible⟩
    obtain ⟨nfc1, hnfc1, hrest⟩ := Option.bind_eq_some_iff.mp hnormal
    obtain ⟨lowered, hlowered, hnfc2⟩ := Option.bind_eq_some_iff.mp hrest
    refine ⟨units, hunits, nfc1, hnfc1, lowered, hlowered, _, hnfc2, _, item.decodeUtf16_utf16, ?_⟩
    have hany : ¬ (item.scalars.any fun cp => isUnicodeWhitespace cp || isUnicodeControl cp) =
        true := by
      rw [List.any_eq_true]
      rintro ⟨cp, hcp, hbad⟩
      rw [hadmissible.whitespace cp hcp, hadmissible.control cp hcp] at hbad
      exact Bool.false_ne_true hbad
    rw [if_neg (Nat.not_lt.mpr hadmissible.min), if_neg (Nat.not_lt.mpr hadmissible.max),
      if_neg hany, dif_pos item.isScalar]

end SpellExclusionCanonicalizer

namespace LexiconValidator

open SpellExclusionCanonicalizer

variable [UnicodePlatform]

/-! ## Words -/

/-- A trimmed word and its normal form that pass every check of the user dictionary. -/
structure AcceptedWord (core : List Nat) (normal : List Char16) : Prop where
  nonempty : core ≠ []
  faultless : ∀ cp ∈ core, characterFault cp = none
  max : core.length ≤ kMaxUserDictWordScalars
  normal_eq : normal = normalizeWord (core.flatMap encodeScalar)
  final : ∃ scalars, decodeUtf16 normal = some scalars ∧ scalars ≠ [] ∧
    scalars.length ≤ kMaxUserDictWordScalars

omit [UnicodePlatform] in
theorem isUnicodeWhitespace_of_faultless {cp : Nat} (h : characterFault cp = none) :
    isUnicodeWhitespace cp = false := by
  unfold characterFault at h
  split_ifs at h with hspace
  exact Bool.eq_false_iff.mpr hspace

/-- The user dictionary accepts a word without a lone surrogate whose trimmed text is accepted. -/
theorem validateUserDictWord_eq_ok {word normal : List Char16} {lineNum : Nat} :
    validateUserDictWord word lineNum = .ok normal ↔
      ∃ scalars, decodeUtf16 word = some scalars ∧
        AcceptedWord (trimWhitespace scalars) normal := by
  unfold validateUserDictWord
  rw [except_bind_eq_ok]
  simp only [orError_eq_ok]
  refine exists_congr fun scalars => and_congr_right fun hscalars => ?_
  have hvalid : ∀ cp ∈ trimWhitespace scalars, isScalar cp = true := fun cp hcp =>
    (decodeUtf16_eq_some.mp hscalars).1 cp ((trimWhitespace_sublist scalars).subset hcp)
  generalize trimWhitespace scalars = core at hvalid
  have hencode : utf32ToUtf16 core = some (core.flatMap encodeScalar) :=
    utf32ToUtf16_eq_some.mpr (decodeUtf16_eq_some.mpr ⟨hvalid, rfl⟩)
  constructor
  · intro h
    have hempty : core ≠ [] := by
      rintro rfl
      cases h
    rw [if_neg (mt List.isEmpty_iff.mp hempty)] at h
    cases hfault : core.findSome? characterFault with
    | some message => simp [hfault] at h
    | none =>
        have hmax : core.length ≤ kMaxUserDictWordScalars := by
          by_contra hlong
          rw [hfault] at h
          dsimp only at h
          rw [if_pos (Nat.lt_of_not_le hlong)] at h
          cases h
        rw [hfault] at h
        dsimp only at h
        rw [if_neg (Nat.not_lt.mpr hmax), hencode] at h
        simp only [except_bind_eq_ok, orError_eq_ok, Option.some.injEq, exists_eq_left'] at h
        obtain ⟨final, hfinal, hchecks⟩ := h
        split_ifs at hchecks with hnil hlong
        obtain rfl := Except.ok.inj hchecks
        exact
          { nonempty := hempty
            faultless := List.findSome?_eq_none_iff.mp hfault
            max := hmax
            normal_eq := rfl
            final := ⟨final, hfinal, mt List.isEmpty_iff.mpr hnil, Nat.le_of_not_lt hlong⟩ }
  · rintro ⟨hempty, hfault, hmax, rfl, final, hfinal, hnil, hlong⟩
    rw [if_neg (mt List.isEmpty_iff.mp hempty), List.findSome?_eq_none_iff.mpr hfault]
    dsimp only
    rw [if_neg (Nat.not_lt.mpr hmax)]
    simp only [hencode, except_bind_eq_ok, orError_eq_ok, Option.some.injEq, exists_eq_left']
    refine ⟨final, hfinal, ?_⟩
    rw [if_neg (mt List.isEmpty_iff.mp hnil), if_neg (Nat.not_lt.mpr hlong)]

/-- The exclusions accept a word without a lone surrogate whose trimmed text has an admissible
normal form. -/
theorem validateSpellExclusionWord_eq_ok {word normal : List Char16} {lineNum : Nat} :
    validateSpellExclusionWord word lineNum = .ok normal ↔
      ∃ scalars, decodeUtf16 word = some scalars ∧
        ∃ item : Item, normalizeUtf16 ((trimWhitespace scalars).flatMap encodeScalar) =
          some item.utf16 ∧ item.Admissible ∧ item.utf16 = normal := by
  unfold validateSpellExclusionWord
  rw [except_bind_eq_ok]
  simp only [orError_eq_ok]
  refine exists_congr fun scalars => and_congr_right fun hscalars => ?_
  have hencode : utf32ToUtf16 (trimWhitespace scalars) =
      some ((trimWhitespace scalars).flatMap encodeScalar) :=
    utf32ToUtf16_eq_some.mpr (decodeUtf16_eq_some.mpr
      ⟨fun cp hcp => (decodeUtf16_eq_some.mp hscalars).1 cp
        ((trimWhitespace_sublist scalars).subset hcp), rfl⟩)
  have hitem : ∀ item : Item, normalizeAndValidate (trimWhitespace scalars) lineNum = .ok item ↔
      normalizeUtf16 ((trimWhitespace scalars).flatMap encodeScalar) = some item.utf16 ∧
        item.Admissible := by
    intro item
    rw [normalizeAndValidate_eq_ok, trimWhitespace_trimWhitespace, hencode]
    simp
  cases hvalidate : normalizeAndValidate (trimWhitespace scalars) lineNum with
  | error error =>
      simp only [reduceCtorEq, false_iff, not_exists]
      rintro item ⟨hnormal, hadmissible, -⟩
      rw [(hitem item).mpr ⟨hnormal, hadmissible⟩] at hvalidate
      cases hvalidate
  | ok item =>
      constructor
      · intro h
        obtain ⟨hnormal, hadmissible⟩ := (hitem item).mp hvalidate
        exact ⟨item, hnormal, hadmissible, Except.ok.inj h⟩
      · rintro ⟨item', hnormal, hadmissible, rfl⟩
        rw [(hitem item').mpr ⟨hnormal, hadmissible⟩] at hvalidate
        rw [Except.ok.inj hvalidate]

end LexiconValidator

end VKey
