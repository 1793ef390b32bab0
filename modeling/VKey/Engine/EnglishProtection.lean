import VKey.Engine.CharState
import VKey.Support.Scan

/-!
# English protection

Three tiers keep English words from being composed: impossible onsets and codas (hard bias),
ambiguous `y` + vowel (soft bias), and repeated tone keys (insistence).  A buffer is the list of its
character states; where the source passes a length with the array, the list is cut to that length.
-/

namespace VKey

variable [WideCType]

/-- The state at an index. -/
def stateAt (states : List CharState) (i : Nat) : CharState := states.getD i {}

/-- What is known of the language of the word. -/
inductive LanguageBias where
  | unknown
  | hardEnglish
  | softEnglish
  | vietnamese
  deriving DecidableEq, Repr

/-- The English protection of the engine. -/
structure EnglishProtectionState where
  bias : LanguageBias := .unknown
  lastToneKey : WChar := 0
  sameToneKeyCount : Nat := 0
  deriving DecidableEq, Repr

/-! ## Tier 1: hard English patterns -/

/-- Two consonants that start no Vietnamese word. -/
def isHardEnglishStart (c0 c1 : WChar) : Bool :=
  [(L 'c', L 'l'), (L 'c', L 'r'), (L 'b', L 'r'), (L 'b', L 'l'), (L 'd', L 'r'),
   (L 'f', L 'r'), (L 'f', L 'l'), (L 'g', L 'r'), (L 'g', L 'l'), (L 'p', L 'r'),
   (L 'p', L 'l'), (L 's', L 'm'), (L 's', L 'n'), (L 's', L 'p'), (L 's', L 'w'),
   (L 's', L 't'), (L 's', L 'c'), (L 's', L 'k'), (L 's', L 'l'), (L 'w', L 'h'),
   (L 'w', L 'r'), (L 'k', L 'n'), (L 'p', L 'n'), (L 'p', L 's')].contains
    (towlower c0, towlower c1)

/-- The same test on the first two raw keystrokes. -/
def isHardEnglishRawStart : List WChar → Bool
  | c0 :: c1 :: _ => isHardEnglishStart c0 c1
  | _ => false

/-- A consonant, among the Telex tone keys, that ends no Vietnamese word. -/
def isHardEnglishEnd (c : WChar) : Bool :=
  [L 'x', L 'r', L 'z', L 'f', L 's', L 'j'].contains (towlower c)

/-- `q` without `u`. -/
def isQWithoutU (c0 c1 : WChar) : Bool :=
  towlower c0 == L 'q' && towlower c1 != L 'u'

/-! ## Tier 2: soft English bias -/

/-- `yê`, alone or before `u n m t`. -/
def isValidVietnameseYSequence (states : List CharState) : Bool :=
  if states.length < 2 then false
  else if towlower (stateAt states 0).base ≠ L 'y' then false
  else if (stateAt states 1).base = L 'e' ∧ (stateAt states 1).hasModifier then
    if states.length = 2 then true
    else [L 'u', L 'n', L 'm', L 't'].contains (towlower (stateAt states 2).base)
  else false

/-- `y` + `a`, `e` or `o` without a Vietnamese continuation. -/
def checkSoftEnglishBias (states : List CharState) : Bool :=
  if states.length < 2 then false
  else if towlower (stateAt states 0).base ≠ L 'y' then false
  else
    let c1 := towlower (stateAt states 1).base
    let isAmbiguous :=
      (stateAt states 1).isVowel && (c1 == L 'a' || c1 == L 'o' || c1 == L 'e')
    isAmbiguous && !isValidVietnameseYSequence states

/-! ## Tier 3: same-key insistence -/

/-- Count a tone key; true when it has been pressed at least twice in a row. -/
def updateToneInsistence (toneKey : WChar) (state : EnglishProtectionState) :
    Bool × EnglishProtectionState :=
  let state :=
    if toneKey = state.lastToneKey then
      { state with sameToneKeyCount := state.sameToneKeyCount + 1 }
    else { state with lastToneKey := toneKey, sameToneKeyCount := 1 }
  (decide (2 ≤ state.sameToneKeyCount), state)

/-! ## Vowel and consonant patterns -/

/-- The scan of `hasStructuralVCVPattern` from the next vowel group on.  Every round consumes a
state, so as many rounds as states suffice. -/
def hasVCVFrom : Nat → List CharState → Bool
  | 0, _ => false
  | fuel + 1, states =>
      let rest := states.dropWhile (!·.isVowel)
      let group := rest.takeWhile (·.isVowel)
      let afterVowels := rest.dropWhile (·.isVowel)
      let consonants := afterVowels.takeWhile (!·.isVowel)
      let next := afterVowels.dropWhile (!·.isVowel)
      -- a modified vowel before a single final consonant is a plausible rhyme
      let isException :=
        consonants.length == 1 && group.any (·.hasModifier) &&
          [L 'c', L 'k', L 'm', L 'n', L 'p', L 't'].contains (stateAt consonants 0).base
      if rest.isEmpty then false
      else if !consonants.isEmpty && !next.isEmpty && !isException then true
      else hasVCVFrom fuel next

/-- Vowel, consonants, vowel anywhere in a buffer of at least four states. -/
def hasStructuralVCVPattern (states : List CharState) : Bool :=
  if states.length < 4 then false else hasVCVFrom states.length states

/-- The pattern above, asked for a tone key that is a letter. -/
def isHardEnglishToneContext (states : List CharState) (toneKey : WChar) : Bool :=
  if !isHardEnglishEnd toneKey then false else hasStructuralVCVPattern states

/-- The vowel letter at `i` belongs to the onset: `i` of `gi` + vowel, `u` of `qu`. -/
def isClusterConsonant (states : List CharState) (i : Nat) : Bool :=
  if i = 0 then false
  else if (stateAt states i).base = L 'i' ∧ (stateAt states (i - 1)).base = L 'g' ∧
      i + 1 < states.length ∧ (stateAt states (i + 1)).isVowel then true
  else decide ((stateAt states i).base = L 'u' ∧ (stateAt states (i - 1)).base = L 'q')

/-- The pair of plain vowels at `i` and `i + 1` is no Vietnamese nucleus. -/
def isInvalidVowelPairAt (states : List CharState) (i : Nat) : Bool :=
  let s0 := stateAt states i
  let s1 := stateAt states (i + 1)
  if !s0.isVowel || !s1.isVowel then false
  else if s0.hasModifier || s1.hasModifier then false
  else if isClusterConsonant states i then false
  else
    match diphthongVowelIndex s0.base, diphthongVowelIndex s1.base with
    | some v0, some v1 =>
        -- `ie`, `ya`, `ye` and `oo` are on the way to a nucleus
        if (v0, v1) = (2, 1) ∨ (v0, v1) = (5, 0) ∨ (v0, v1) = (5, 1) ∨ (v0, v1) = (3, 3) then
          false
        else diphthongRule false v0 v1 == 0 && diphthongRule true v0 v1 == 0
    | _, _ => false

/-- Some adjacent pair of plain vowels is no Vietnamese nucleus. -/
def hasInvalidAdjacentVowelPair (states : List CharState) : Bool :=
  (List.range (states.length - 1)).any (isInvalidVowelPairAt states)

/-- The consonants after the last vowel form no Vietnamese coda.  A leading `d` stops the scan
like a vowel. -/
def isInvalidVietnameseCoda (states : List CharState) : Bool :=
  let count := states.length
  if count < 3 then false
  else
    match scanDown (fun i => (stateAt states i).isVowel || ((stateAt states i).isD && i == 0))
        count with
    | none => false
    | some i =>
        let codaLen := count - 1 - i
        if codaLen < 2 then false
        else if 3 ≤ codaLen then true
        else
          let c1 := towlower (stateAt states (count - 2)).base
          let c2 := towlower (stateAt states (count - 1)).base
          !([(L 'c', L 'h'), (L 'n', L 'g'), (L 'n', L 'h')].contains (c1, c2))

/-! ## Combined check -/

/-- The start clusters of the first tier. -/
def hasHardEnglishOnset (states : List CharState) : Bool :=
  decide (2 ≤ states.length) && !(stateAt states 0).isVowel && !(stateAt states 1).isVowel &&
    !(stateAt states 0).isD &&
    (isHardEnglishStart (stateAt states 0).base (stateAt states 1).base ||
      isQWithoutU (stateAt states 0).base (stateAt states 1).base)

/-- The final consonants of the first tier, from three states on and right after a vowel. -/
def hasHardEnglishFinal (states : List CharState) : Bool :=
  let count := states.length
  let last := stateAt states (count - 1)
  decide (3 ≤ count) && !last.isVowel && !last.isD &&
    (stateAt states (count - 2)).isVowel && isHardEnglishEnd last.base

/-- Update the bias after a new state. -/
def checkEnglishBias (states : List CharState) (prot : EnglishProtectionState) :
    EnglishProtectionState :=
  if prot.bias = .vietnamese then prot
  else if hasHardEnglishOnset states then { prot with bias := .hardEnglish }
  else if hasHardEnglishFinal states then { prot with bias := .hardEnglish }
  else if isInvalidVietnameseCoda states then { prot with bias := .hardEnglish }
  else if prot.bias = .unknown ∧ checkSoftEnglishBias states then
    { prot with bias := .softEnglish }
  else prot

/-! ## Raw prefixes of English words -/

/-- Raw prefixes that block a tone. -/
def kBlockedTonePrefixes : List (List WChar) :=
  [[L 'p', L 'a', L 's'], [L 'g', L 'u', L 'e', L 's'], [L 'p', L 'e', L 'r']]

/-- Raw prefixes that block a modifier. -/
def kBlockedModifierPrefixes : List (List WChar) :=
  [[L 'p', L 'o', L 'w'], [L 'u', L 'p', L 'w']]

/-- The raw keystrokes start with one of the patterns. -/
def matchesRawPrefix (raw : List WChar) (rules : List (List WChar)) : Bool :=
  rules.any fun pattern => pattern.isPrefixOf (raw.map towlower)

/-- The raw keystrokes block a tone. -/
def isBlockedEnglishTone (raw : List WChar) : Bool :=
  matchesRawPrefix raw kBlockedTonePrefixes

/-- The raw keystrokes block a modifier. -/
def isBlockedEnglishModifier (raw : List WChar) : Bool :=
  matchesRawPrefix raw kBlockedModifierPrefixes

end VKey
