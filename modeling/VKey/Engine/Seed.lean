import VKey.Engine.CommitLetters

/-!
# Seeding the engine from rendered text

`seedFromText` rebuilds letters from the text that rendering produced, by a second set of tables.
Where the C library converts ASCII letters only, the module determines when seeding undoes
rendering: `toLowerVietnamese` has no case for the capitals of `ĩ` and `ũ`, so a composition that
shows one of them is refused.
-/

namespace VKey

section Seeding

variable [WideCType]

/-- The modifier of an index that `decomposeVietChar` reports. -/
def modifierOfIndex : Option Nat → Modifier
  | some 0 => .circumflex
  | some 1 => .breve
  | some 2 => .horn
  | some 3 => .stroke
  | _ => .none

/-- The tone of an index that `decomposeVietChar` reports. -/
def toneOfIndex : Option Nat → Tone
  | some 0 => .acute
  | some 1 => .grave
  | some 2 => .hook
  | some 3 => .tilde
  | some 4 => .dot
  | _ => .none

/-- The letter of a decomposed character; its raw key is the base letter. -/
def seedLetter (d : Decomposed) (rawIdx : Nat) : CharState :=
  { base := d.base, mod := modifierOfIndex d.modIdx, tone := toneOfIndex d.toneIdx,
    isUpper := d.isUpper, rawIdx }

namespace TypingEngine

/-- Append a decomposed character and its synthetic raw key. -/
def seedChar (e : TypingEngine) (d : Decomposed) : TypingEngine :=
  { e with
    states := e.states ++ [seedLetter d e.rawInput.length]
    rawInput := e.rawInput ++ [if d.isUpper then towupper d.base else d.base] }

/-- Append the letters of a text, up to the first character that is no letter. -/
def seedChars (e : TypingEngine) : List WChar → Option TypingEngine
  | [] => some e
  | ch :: text => (decomposeVietChar ch).bind fun d => (e.seedChar d).seedChars text

/-- Replace the word being typed by a rendered text.  False if the text has a character that is
no letter, which leaves the engine without a word. -/
def seedFromText (e : TypingEngine) (text : List WChar) : TypingEngine × Bool :=
  match e.reset.seedChars text with
  | some e => (e.updateSpellState.checkBias, true)
  | none => (e.reset, false)

end TypingEngine

/-! ## One letter -/

/-- The lowercase letters of the Latin and the Vietnamese alphabet. -/
def lowerLetters : List WChar :=
  (List.range 26).map (L 'a' + ·) ++ L 'đ' :: kToneBase ++ kTonedVowel.flatten

/-- The letters of both alphabets in either case. -/
def viLetters : List WChar := lowerLetters ++ lowerLetters.map toUpperVietnamese

/-- The letters that `toLowerVietnamese` has no case for. -/
def capitalTildes : List WChar := [L 'Ĩ', L 'Ũ']

/-- A letter that shows a capital `ĩ` or `ũ`. -/
def showsCapitalTilde (s : CharState) : Bool :=
  capitalTildes.contains s.base ||
    s.isUpper &&
      ([L 'ĩ', L 'ũ'].contains s.base ||
        [L 'i', L 'u'].contains s.base && s.mod == .none && s.tone == .tilde)

/-- A character is decomposed, and its letter shows it again. -/
def seedsBack (ch : WChar) : Bool :=
  (decomposeVietChar ch).any fun d => compose (seedLetter d 0) == ch

theorem seedsBack_iff {ch : WChar} :
    seedsBack ch = true ↔
      ∃ d, decomposeVietChar ch = some d ∧ ∀ rawIdx, compose (seedLetter d rawIdx) = ch := by
  rw [seedsBack, Option.any_eq_true]
  constructor
  · rintro ⟨d, hd, hback⟩
    exact ⟨d, hd, fun _ => eq_of_beq hback⟩
  · rintro ⟨d, hd, hback⟩
    exact ⟨d, hd, beq_iff_eq.mpr (hback 0)⟩

/-- What a letter shows in lowercase. -/
def shown (s : CharState) : WChar :=
  if s.isD ∧ s.mod = .stroke then L 'đ' else applyTone (applyModifier s) s.tone

theorem toUpperVietnamese_d : toUpperVietnamese (L 'đ') = L 'Đ' := by
  rw [toUpperVietnamese_eq_cLocale (by decide)]
  decide

theorem compose_eq_shown {s : CharState} (h : s.base ≠ 0) :
    compose s = if s.isUpper then toUpperVietnamese (shown s) else shown s := by
  rw [compose, if_neg h, shown]
  split
  · rw [toUpperVietnamese_d]
  · rfl

end Seeding

section Letters

theorem seedsBack_of_mem_lowerLetters : ∀ ch ∈ lowerLetters, seedsBack ch = true := by
  decide +kernel

theorem seedsBack_toUpperVietnamese :
    ∀ ch ∈ lowerLetters, seedsBack (toUpperVietnamese ch) =
      !capitalTildes.contains (toUpperVietnamese ch) := by
  decide +kernel

theorem lowerLetters_case :
    ∀ ch ∈ lowerLetters, ch ≠ 0 ∧ capitalTildes.contains ch = false ∧
      toUpperVietnamese (toUpperVietnamese ch) = toUpperVietnamese ch ∧
      [L 'ĩ', L 'ũ'].contains (toUpperVietnamese ch) = false ∧
      capitalTildes.contains (toUpperVietnamese ch) = [L 'ĩ', L 'ũ'].contains ch := by
  decide +kernel

theorem applyTone_vowel :
    ∀ base ∈ vowels, ∀ mod ∈ [Modifier.none, .circumflex, .breve, .horn, .stroke],
      ∀ tone ∈ [Tone.none, .acute, .grave, .hook, .tilde, .dot],
      LegalMod base mod →
        (kToneBase.contains (applyTone (applyModifier { base, mod }) tone) ||
          kTonedVowel.any (·.contains (applyTone (applyModifier { base, mod }) tone))) = true ∧
        [L 'ĩ', L 'ũ'].contains (applyTone (applyModifier { base, mod }) tone) =
          ([L 'i', L 'u'].contains base && mod == .none && tone == .tilde) := by
  decide +kernel

/-- The conversions to uppercase and the seeding of a letter of either case. -/
theorem viLetters_case {ch : WChar} (hch : ch ∈ viLetters) :
    ch ≠ 0 ∧ seedsBack ch = !capitalTildes.contains ch ∧
      seedsBack (toUpperVietnamese ch) = !capitalTildes.contains (toUpperVietnamese ch) ∧
      capitalTildes.contains (toUpperVietnamese ch) =
        (capitalTildes.contains ch || [L 'ĩ', L 'ũ'].contains ch) := by
  rcases List.mem_append.mp hch with hlower | hupper
  · obtain ⟨hne, hnot, -, -, htilde⟩ := lowerLetters_case ch hlower
    refine ⟨hne, ?_, seedsBack_toUpperVietnamese ch hlower, ?_⟩
    · rw [seedsBack_of_mem_lowerLetters ch hlower, hnot]
      rfl
    · rw [htilde, hnot, Bool.false_or]
  · obtain ⟨l, hl, rfl⟩ := List.mem_map.mp hupper
    obtain ⟨hne, -, htwice, hnot, -⟩ := lowerLetters_case l hl
    have hback := seedsBack_toUpperVietnamese l hl
    refine ⟨?_, hback, ?_, ?_⟩
    · exact toUpperVietnamese_ne_zero hne
    · rw [htwice, hback]
    · rw [htwice, hnot, Bool.or_false]

/-- The lowercase form of a letter decides whether its capital is one of the two. -/
def TildeShown (s : CharState) : Prop :=
  shown s ∈ viLetters ∧
    showsCapitalTilde s =
      (capitalTildes.contains (shown s) || s.isUpper && [L 'ĩ', L 'ũ'].contains (shown s))

theorem tildeShown_vowel {s : CharState} (hvowel : s.isVowel = true)
    (hlegal : LegalMod s.base s.mod) : TildeShown s := by
  have hmem := (mem_vowels_iff s).mp hvowel
  have hbase : s.isD = false ∧ capitalTildes.contains s.base = false ∧
      [L 'ĩ', L 'ũ'].contains s.base = false := by
    have hall : ∀ base ∈ vowels, (base == L 'd') = false ∧ capitalTildes.contains base = false ∧
      [L 'ĩ', L 'ũ'].contains base = false := by decide
    exact hall s.base hmem
  obtain ⟨hd, hcapital, htilde⟩ := hbase
  have hshown : shown s = applyTone (applyModifier { base := s.base, mod := s.mod }) s.tone := by
    rw [shown, if_neg (by simp [hd])]
    rfl
  obtain ⟨hrow, htildes⟩ := applyTone_vowel s.base hmem s.mod (by cases s.mod <;> simp) s.tone
    (by cases s.tone <;> simp) hlegal
  rw [← hshown] at hrow htildes
  have hlower : shown s ∈ lowerLetters := by
    simp only [Bool.or_eq_true, List.contains_iff_mem, List.any_eq_true] at hrow
    simp only [lowerLetters, List.mem_append, List.mem_cons, List.mem_flatten]
    rcases hrow with htone | ⟨row, hrow, hin⟩
    · exact .inl (.inr (.inr htone))
    · exact .inr ⟨row, hrow, hin⟩
  refine ⟨List.mem_append_left _ hlower, ?_⟩
  rw [showsCapitalTilde, hcapital, htilde, (lowerLetters_case _ hlower).2.1, htildes]
  simp

theorem stroke_of_consonant {s : CharState} (hvowel : s.isVowel = false)
    (hlegal : LegalMod s.base s.mod) (hmod : s.mod ≠ .none) :
    s.base = L 'd' ∧ s.mod = .stroke := by
  have hbase := hlegal.resolve_left hmod
  have hnotVowel : s.base ∉ vowels := fun hmem => by
    rw [(mem_vowels_iff s).mpr hmem] at hvowel
    exact absurd hvowel (by decide)
  have hlegalVowels : ∀ mod ∈ [Modifier.none, .circumflex, .breve, .horn], ∀ base ∈ legalBases mod,
      base ∈ vowels := by decide
  cases hm : s.mod with
  | stroke => exact ⟨by simpa [hm, legalBases] using hbase, rfl⟩
  | _ => exact absurd (hlegalVowels s.mod (by simp [hm]) s.base hbase) hnotVowel

theorem tildeShown_consonant {s : CharState} (hvowel : s.isVowel = false) (htone : s.tone = .none)
    (hlegal : LegalMod s.base s.mod) (hletter : s.base ∈ viLetters) : TildeShown s := by
  by_cases hmod : s.mod = .none
  · have hshown : shown s = s.base := by
      rw [shown, if_neg (by simp [hmod]), applyModifier, if_neg (by simp [hmod]), htone, applyTone]
      cases toneBaseIndex s.base <;> rfl
    refine ⟨hshown ▸ hletter, ?_⟩
    have hnot : (Tone.none == Tone.tilde) = false := rfl
    rw [hshown, showsCapitalTilde, htone, hnot, Bool.and_false, Bool.or_false]
  · have hstroke := stroke_of_consonant hvowel hlegal hmod
    have hshown : shown s = L 'đ' := by
      rw [shown, if_pos ⟨beq_iff_eq.mpr hstroke.1, hstroke.2⟩]
    refine ⟨hshown ▸ List.mem_append_left _ (by decide), ?_⟩
    have hnot : (Modifier.stroke == Modifier.none) = false := rfl
    rw [hshown, showsCapitalTilde, hstroke.1, hstroke.2, hnot, Bool.and_false, Bool.false_and,
      Bool.or_false]
    cases s.isUpper <;> decide

theorem decomposeVietChar_capitalTildes : ∀ ch ∈ capitalTildes, decomposeVietChar ch = none := by
  decide

theorem isSome_decomposeVietChar {ch : WChar} (h : seedsBack ch = !capitalTildes.contains ch) :
    (decomposeVietChar ch).isSome = seedsBack ch := by
  cases hback : seedsBack ch with
  | true =>
      obtain ⟨d, hd, -⟩ := seedsBack_iff.mp hback
      rw [hd]
      rfl
  | false =>
      rw [hback, eq_comm, Bool.not_eq_false', List.contains_iff_mem] at h
      rw [decomposeVietChar_capitalTildes ch h]
      rfl

theorem seedsBack_compose_cLocale {nul : Prop} {s : CharState} (hs : StateFits nul s)
    (hletter : s.base ∈ viLetters) :
    (decomposeVietChar (compose s)).isSome = seedsBack (compose s) ∧
      seedsBack (compose s) = !showsCapitalTilde s := by
  have htilde : TildeShown s := by
    cases hvowel : s.isVowel with
    | true => exact tildeShown_vowel hvowel hs.legal
    | false =>
        have htone : s.tone = .none := by
          by_contra htone
          rw [hs.vowel htone] at hvowel
          exact absurd hvowel (by decide)
        exact tildeShown_consonant hvowel htone hs.legal hletter
  obtain ⟨-, hback, hbackUpper, hupper⟩ := viLetters_case htilde.1
  rw [compose_eq_shown (viLetters_case hletter).1, htilde.2]
  cases s.isUpper with
  | true =>
      rw [if_pos rfl, Bool.true_and, ← hupper]
      exact ⟨isSome_decomposeVietChar hbackUpper, hbackUpper⟩
  | false =>
      rw [if_neg (by decide), Bool.false_and, Bool.or_false]
      exact ⟨isSome_decomposeVietChar hback, hback⟩

end Letters

/-! ## Any locale that converts ASCII letters only -/

/-- The C library converts ASCII letters only. -/
structure AsciiOnly [WideCType] : Prop where
  lower : ∀ c, towlower c = asciiLower c
  upper : ∀ c, towupper c = asciiUpper c

section AsciiOnly

variable [WideCType]

theorem AsciiOnly.toUpperVietnamese_eq (h : AsciiOnly) (ch : WChar) :
    toUpperVietnamese ch = @toUpperVietnamese cLocale ch := by
  unfold toUpperVietnamese
  rw [h.upper]
  rfl

theorem AsciiOnly.toLowerVietnamese_eq (h : AsciiOnly) (ch : WChar) :
    toLowerVietnamese ch = @toLowerVietnamese cLocale ch := by
  unfold toLowerVietnamese
  rw [h.lower]
  rfl

theorem AsciiOnly.compose_eq (h : AsciiOnly) (s : CharState) :
    compose s = @compose cLocale s := by
  simp only [compose, h.toUpperVietnamese_eq]

theorem AsciiOnly.decomposeVietChar_eq (h : AsciiOnly) (ch : WChar) :
    decomposeVietChar ch = @decomposeVietChar cLocale ch := by
  unfold decomposeVietChar
  rw [h.toLowerVietnamese_eq]

theorem AsciiOnly.viLetters_eq (h : AsciiOnly) : viLetters = @viLetters cLocale := by
  unfold viLetters
  rw [funext h.toUpperVietnamese_eq]

theorem AsciiOnly.seedsBack_eq (h : AsciiOnly) (ch : WChar) :
    seedsBack ch = @seedsBack cLocale ch := by
  simp only [seedsBack, h.decomposeVietChar_eq, h.compose_eq]

/-- A letter comes back from what it shows, unless it shows a capital `ĩ` or `ũ`; then it is not
decomposed. -/
theorem AsciiOnly.seedsBack_compose (h : AsciiOnly) {nul : Prop} {s : CharState}
    (hs : StateFits nul s) (hletter : s.base ∈ viLetters) :
    (decomposeVietChar (compose s)).isSome = seedsBack (compose s) ∧
      seedsBack (compose s) = !showsCapitalTilde s := by
  have hlower : @towlower cLocale s.base = s.base := by
    change asciiLower s.base = s.base
    rw [← h.lower, hs.lower]
  rw [h.compose_eq, h.decomposeVietChar_eq, h.seedsBack_eq]
  exact @seedsBack_compose_cLocale nul s
    (@StateFits.mk cLocale nul s hs.vowel hs.legal hs.base_ne_zero hlower)
      (h.viLetters_eq ▸ hletter)

end AsciiOnly

namespace TypingEngine

section Runs

variable [WideCType]

/-! ## A whole text -/

theorem states_seedChars {e e' : TypingEngine} {text : List WChar}
    (h : e.seedChars text = some e') (hback : ∀ ch ∈ text, seedsBack ch = true) :
    e'.states.map compose = e.states.map compose ++ text := by
  induction text generalizing e with
  | nil =>
      obtain rfl := Option.some.inj h
      simp
  | cons ch text ih =>
      obtain ⟨d, hd, hshow⟩ := seedsBack_iff.mp (hback ch List.mem_cons_self)
      rw [seedChars, hd, Option.bind_some] at h
      rw [ih h fun c hc => hback c (List.mem_cons_of_mem _ hc)]
      simp [seedChar, hshow]

theorem isSome_seedChars (e : TypingEngine) (text : List WChar) :
    (e.seedChars text).isSome = text.all fun ch => (decomposeVietChar ch).isSome := by
  induction text generalizing e with
  | nil => rfl
  | cons ch text ih =>
      rw [seedChars, List.all_cons]
      cases decomposeVietChar ch with
      | none => rfl
      | some d => exact ih (e.seedChar d)

theorem seedFromText_snd (e : TypingEngine) (text : List WChar) :
    (e.seedFromText text).2 = text.all fun ch => (decomposeVietChar ch).isSome := by
  rw [seedFromText, ← isSome_seedChars e.reset]
  cases e.reset.seedChars text <;> rfl

/-- A text whose characters all come back is rendered again. -/
theorem peek_seedFromText {e : TypingEngine} {text : List WChar}
    (hback : ∀ ch ∈ text, seedsBack ch = true) (hne : ∀ ch ∈ text, ch ≠ 0) :
    (e.seedFromText text).2 = true ∧ (e.seedFromText text).1.peek = text := by
  have hok : (e.seedFromText text).2 = true := by
    rw [seedFromText_snd, List.all_eq_true]
    intro ch hch
    obtain ⟨d, hd, -⟩ := seedsBack_iff.mp (hback ch hch)
    rw [hd]
    rfl
  refine ⟨hok, ?_⟩
  unfold seedFromText at hok ⊢
  cases hseed : e.reset.seedChars text with
  | none =>
      rw [hseed] at hok
      exact Bool.noConfusion hok
  | some e' =>
      have hmap : e'.states.map compose = text := states_seedChars hseed hback
      change composeAll e'.states = text
      rw [composeAll, hmap, List.filter_eq_self]
      simpa using hne

/-! ## Runs -/

theorem lettersFit_of_run (e : TypingEngine) (ops : List Op) :
    LettersFit True (e.reset.performAll ops).states := by
  refine performAll_invariant (fun e => LettersFit True e.states) (fun e op h => ?_) ?_ ops
  · cases op with
    | pushChar key => exact lettersFit_pushChar h fun _ => trivial
    | backspace => exact lettersFit_backspace h
  · simp [LettersFit, reset]

/-- Where the C library converts ASCII letters only, seeding an engine with a composition of
letters gives the same composition exactly if no letter shows a capital `ĩ` or `ũ`. -/
theorem seedFromText_peek_iff (hascii : AsciiOnly) (e e' : TypingEngine) (ops : List Op)
    (hletters : ∀ s ∈ (e.reset.performAll ops).states, s.base ∈ viLetters) :
    ((e'.seedFromText (e.reset.performAll ops).peek).2 = true ∧
      (e'.seedFromText (e.reset.performAll ops).peek).1.peek = (e.reset.performAll ops).peek) ↔
    ∀ s ∈ (e.reset.performAll ops).states, showsCapitalTilde s = false := by
  have hfits := lettersFit_of_run e ops
  have hne : ∀ s ∈ (e.reset.performAll ops).states, compose s ≠ 0 := by
    intro s hs
    have hbase := hletters s hs
    rw [hascii.viLetters_eq] at hbase
    exact compose_ne_zero (viLetters_case hbase).1
  have hmem : ∀ ch, ch ∈ (e.reset.performAll ops).peek ↔
      ∃ s ∈ (e.reset.performAll ops).states, compose s = ch := by
    intro ch
    rw [peek, composeAll, List.mem_filter, List.mem_map]
    constructor
    · exact And.left
    · rintro ⟨s, hs, rfl⟩
      exact ⟨⟨s, hs, rfl⟩, bne_iff_ne.mpr (hne s hs)⟩
  constructor
  · rintro ⟨hok, -⟩ s hs
    obtain ⟨hsome, hback⟩ := hascii.seedsBack_compose (hfits s hs) (hletters s hs)
    rw [seedFromText_snd, List.all_eq_true] at hok
    rw [← Bool.not_eq_true', ← hback, ← hsome]
    exact hok _ ((hmem _).mpr ⟨s, hs, rfl⟩)
  · intro htilde
    apply peek_seedFromText
    · intro ch hch
      obtain ⟨s, hs, rfl⟩ := (hmem ch).mp hch
      rw [(hascii.seedsBack_compose (hfits s hs) (hletters s hs)).2, htilde s hs]
      rfl
    · intro ch hch
      obtain ⟨s, hs, rfl⟩ := (hmem ch).mp hch
      exact hne s hs

end Runs

end TypingEngine

end VKey

namespace VKey.TypingEngine

/-- The composition of `Vieejt` comes back. -/
theorem seedFromText_peek_of_typing_Vieejt :
    ((new {}).seedFromText ((new {}).reset.performAll (typing "Vieejt")).peek).2 = true ∧
      ((new {}).seedFromText ((new {}).reset.performAll (typing "Vieejt")).peek).1.peek =
        ((new {}).reset.performAll (typing "Vieejt")).peek :=
  (seedFromText_peek_iff ⟨fun _ => rfl, fun _ => rfl⟩ _ _ _ (by decide +kernel)).mpr
    (by decide +kernel)

/-- `Ix` of Telex composes a capital `ĩ`, with which no engine can be seeded. -/
theorem not_seedFromText_peek_of_every_run :
    ¬ ∀ (config : TypingConfig) (ops : List Op),
      (∀ s ∈ ((new config).reset.performAll ops).states, s.base ∈ viLetters) →
        ((new config).seedFromText ((new config).reset.performAll ops).peek).2 = true ∧
          ((new config).seedFromText ((new config).reset.performAll ops).peek).1.peek =
            ((new config).reset.performAll ops).peek := by
  intro h
  have hok := (h {} (typing "Ix") (by decide +kernel)).1
  rw [seedFromText_snd] at hok
  revert hok
  decide +kernel

end VKey.TypingEngine
