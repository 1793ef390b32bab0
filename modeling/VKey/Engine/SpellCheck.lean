import VKey.Engine.ToneTarget

/-!
# Spell check, exclusions and English bias

Predicates of the engine's helpers: user exclusions that override the phonotactics, the tentative
application of a modifier, the targets of the stroke, and the automatic restoring of raw keys.
-/

namespace VKey

variable [WideCType]

/-! ## Spell exclusions -/

/-- The buffer lengths that exclusion checks look at. -/
def kMaxBuf : Nat := 16

/-- The lowercase text of the states, one state replaced by a given character. -/
def buildExclusionBuf (states : List CharState) (override : Option (Nat × WChar)) : List WChar :=
  let chars := states.map compose
  let chars :=
    match override with
    | some (idx, ch) => chars.set idx ch
    | none => chars
  ((chars.filter (· != 0)).take kMaxBuf).map towlower

/-- The text starts with an exclusion. -/
def isSpellExcluded (states : List CharState) (exclusions : List (List WChar)) : Bool :=
  let buf := buildExclusionBuf states none
  exclusions.any fun pat => decide (2 ≤ pat.length) && pat.isPrefixOf buf

/-- The buffer and some exclusion agree as far as both go. -/
def matchExclusionBuf (cmp : WChar → WChar → Bool) (buf : List WChar)
    (exclusions : List (List WChar)) : Bool :=
  exclusions.any fun pat =>
    decide (2 ≤ pat.length) && !buf.isEmpty && (pat.zip buf).all fun p => cmp p.1 p.2

/-- Applying the stroke would match an exclusion. -/
def wouldStrokeDMatchExclusionAt (states : List CharState) (exclusions : List (List WChar))
    (dIdx : Nat) : Bool :=
  matchExclusionBuf (· == ·) (buildExclusionBuf states (some (dIdx, L 'đ'))) exclusions

/-- A toned character at an index would match an exclusion. -/
def wouldToneMatchExclusion (states : List CharState) (exclusions : List (List WChar))
    (toneIdx : Nat) (tonedChar : WChar) : Bool :=
  !exclusions.isEmpty && decide (toneIdx < states.length) &&
    matchExclusionBuf (· == ·) (buildExclusionBuf states (some (toneIdx, tonedChar))) exclusions

/-- Applying a modifier at an index would match an exclusion, tones aside. -/
def wouldModifierMatchExclusion (states : List CharState) (exclusions : List (List WChar))
    (targetIdx : Nat) (mod : Modifier) : Bool :=
  let modChar := compose { stateAt states targetIdx with mod }
  matchExclusionBuf (fun a b => stripTone a == stripTone b)
    (buildExclusionBuf states (some (targetIdx, modChar))) exclusions

/-- Applying a modifier to some plain vowel among the given bases would match an exclusion. -/
def wouldAnyModifierMatchExclusion (states : List CharState) (exclusions : List (List WChar))
    (mod : Modifier) (eligibleBases : List WChar) : Bool :=
  !exclusions.isEmpty &&
    (List.range states.length).any fun i =>
      let s := stateAt states i
      s.isVowel && s.mod == .none && eligibleBases.contains s.base &&
        wouldModifierMatchExclusion states exclusions i mod

/-! ## The stroke -/

/-- The first index of the run of `d` that ends at an index. -/
def strokeClusterStart (states : List CharState) : Nat → Nat
  | 0 => 0
  | i + 1 => if (stateAt states i).isD then strokeClusterStart states i else i + 1

/-- The `d` that a stroke key acts on: the last one, unless its cluster follows a vowel. -/
def findStrokeDTarget (states : List CharState) : Option Nat :=
  match scanDown (fun i => (stateAt states i).isD) states.length with
  | none => none
  | some dIdx =>
      let checkIdx := strokeClusterStart states dIdx
      if 0 < checkIdx ∧ (stateAt states (checkIdx - 1)).isVowel then none else some dIdx

/-- Some state is a vowel. -/
def hasVowelState (states : List CharState) : Bool := states.any (·.isVowel)

/-- The stroke would close an impossible cluster. -/
def isStrokeDBlockedByCoda (states : List CharState) (dTarget : Nat) : Bool :=
  if dTarget = 0 ∧ 1 < states.length ∧ (stateAt states 1).isVowel then false
  else (states.getLast?.map fun s => !(s.isVowel || s.isD)).getD false

/-- A stroke key here marks the word as English. -/
def shouldBlockStrokeDAsEnglish (states : List CharState) (dTarget : Nat) : Bool :=
  isStrokeDBlockedByCoda states dTarget || (dTarget == 0 && hasStructuralVCVPattern states)

/-- A stroke key may take the stroke back: from the last letter or from the first. -/
def isStrokeDEscapeAllowed (states : List CharState) (dIdx : Nat) : Bool :=
  (decide (0 < states.length) && dIdx == states.length - 1) ||
    (dIdx == 0 && decide (2 ≤ states.length))

/-- Applying the stroke would match an exclusion. -/
def wouldStrokeDMatchExclusion (states : List CharState) (exclusions : List (List WChar)) : Bool :=
  !exclusions.isEmpty &&
    ((findStrokeDTarget states).map (wouldStrokeDMatchExclusionAt states exclusions)).getD false

/-- The modifier of a key would make the text match an exclusion. -/
def wouldModifierKeyMatchExclusion (states : List CharState) (exclusions : List (List WChar))
    (lower : WChar) : Bool :=
  if lower = L 'd' ∨ lower = L '9' then wouldStrokeDMatchExclusion states exclusions
  else if lower = L 'w' then
    wouldAnyModifierMatchExclusion states exclusions .horn [L 'u', L 'o'] ||
      wouldAnyModifierMatchExclusion states exclusions .breve [L 'a']
  else if lower = L 'a' ∨ lower = L 'e' ∨ lower = L 'o' ∨ lower = L '6' then
    wouldAnyModifierMatchExclusion states exclusions .circumflex [L 'a', L 'e', L 'o']
  else if lower = L '7' then
    wouldAnyModifierMatchExclusion states exclusions .horn [L 'u', L 'o']
  else if lower = L '8' then
    wouldAnyModifierMatchExclusion states exclusions .breve [L 'a']
  else false

/-- Some letter carries a modifier that a key could take back. -/
def hasEscapableModifier (states : List CharState) (mod : Modifier) (isStroke : Bool) : Bool :=
  states.any fun s => (if isStroke then s.isD else s.isVowel) && s.mod == mod

/-- The onset before `u` is `h`, `th` or `kh`, after which `uơ` is a rhyme. -/
def isUOEdgeCasePrefix (states : List CharState) (uIdx : Nat) : Bool :=
  let c0 := towlower (stateAt states 0).base
  let c1 := towlower (stateAt states 1).base
  (uIdx == 1 && c0 == L 'h') ||
    (uIdx == 2 && c1 == L 'h' && (c0 == L 't' || c0 == L 'k'))

/-! ## English bias of a buffer -/

/-- Replay the bias check on every prefix of two states or more. -/
def recalcEnglishBias (states : List CharState) : EnglishProtectionState :=
  (List.range' 2 (states.length - 1)).foldl
    (fun prot len => checkEnglishBias (states.take len) prot) {}

/-- Without the option, a word that starts with `w z j f` is English. -/
def checkZwjfInitialBias (states : List CharState) (config : TypingConfig)
    (engProt : EnglishProtectionState) : EnglishProtectionState :=
  let s0 := stateAt states 0
  if config.allowZwjf || !config.spellCheckEnabled || states.isEmpty then engProt
  else if engProt.bias = .vietnamese then engProt
  else if s0.isVowel then engProt
  else if [L 'w', L 'z', L 'j', L 'f'].contains s0.base then
    { engProt with bias := .hardEnglish }
  else engProt

/-! ## Restoring raw keys -/

/-- The raw keys replace the composed text: it has diacritics, or the raw text is no longer. -/
def shouldAutoRestore (raw composed : List WChar) : Bool :=
  raw != composed &&
    (composed.any (fun ch => decide (0x7F < ch)) || decide (raw.length ≤ composed.length))

/-- The raw keys contain `dd` or `d9`. -/
def hasRawStroke : List WChar → Bool
  | c0 :: c1 :: rest =>
      ((c0 == L 'd' || c0 == L 'D') && (c1 == L 'd' || c1 == L 'D' || c1 == L '9')) ||
        hasRawStroke (c1 :: rest)
  | _ => false

/-- The stroke was typed on purpose: the composed text has `đ` and no plain vowel after it. -/
def hasIntentionalStrokeD (rawInput composed : List WChar) : Bool :=
  hasRawStroke rawInput && composed.any (fun ch => ch == L 'đ' || ch == L 'Đ') &&
    (composed.reverse.takeWhile fun ch => !(ch == L 'đ' || ch == L 'Đ')).all fun ch =>
      !([L 'a', L 'e', L 'i', L 'o', L 'u', L 'y'].contains (towlower ch))

/-! ## The engine's spell state -/

namespace TypingEngine

/-- Revalidate the buffer. -/
def updateSpellState (e : TypingEngine) : TypingEngine :=
  { e with
    spellCheckDisabled :=
      if !e.config.spellCheckEnabled || e.states.isEmpty then false
      else if isSpellExcluded e.states e.config.spellExclusions then false
      else Phonology.validateSyllableState e.states e.config.allowZwjf == .invalid }

/-- Recompute the bias of the whole buffer. -/
def recalcBias (e : TypingEngine) : TypingEngine :=
  let engProt := recalcEnglishBias e.states
  { e with
    engProt :=
      if e.config.isTelexMode then checkZwjfInitialBias e.states e.config engProt else engProt }

/-- The modifier of a key would make the text match an exclusion of the configuration. -/
def keyMatchesExclusion (e : TypingEngine) (lower : WChar) : Bool :=
  wouldModifierKeyMatchExclusion e.states e.config.spellExclusions lower

/-- The verdict on tentative states accepts them: no invalid syllable, or one that only a stop
coda under the wrong tone makes invalid. -/
def acceptsTentative (e : TypingEngine) (states : List CharState) : Bool :=
  Phonology.validateSyllableState states e.config.allowZwjf != .invalid ||
    isToneStopCodaMismatch states

/-- The states with a modifier applied and, if asked for, a circumflex cleared. -/
def tentativeStates (states : List CharState) (targetIdx : Nat) (newMod : Modifier)
    (clearCircumflexIdx : Option Nat) : List CharState :=
  let applied := setVowelMod states targetIdx newMod
  match clearCircumflexIdx with
  | some i => if (stateAt applied i).mod = .circumflex then setMod applied i .none else applied
  | none => applied

/-- Applying a modifier gives no invalid syllable, the tone staying on its vowel. -/
def wouldBeValidSyllable (e : TypingEngine) (targetIdx : Nat) (newMod : Modifier)
    (clearCircumflexIdx : Option Nat) : Bool :=
  !e.config.spellCheckEnabled || decide (e.states.length ≤ targetIdx) ||
    e.acceptsTentative (tentativeStates e.states targetIdx newMod clearCircumflexIdx)

/-- Applying a modifier and relocating the tone gives no invalid syllable.  Buffers beyond the
vowel cap are let through. -/
def wouldBeValidRelocated (e : TypingEngine) (targetIdx : Nat) (newMod : Modifier) : Bool :=
  !e.config.spellCheckEnabled || decide (e.states.length ≤ targetIdx) ||
    decide (kVowelCap < e.states.length) ||
    e.acceptsTentative
      (relocateToneToTarget e.config.modernOrtho (setVowelMod e.states targetIdx newMod))

/-- The modifier gives an invalid syllable that is no exclusion either. -/
def shouldRejectModifier (e : TypingEngine) (targetIdx : Nat) (newMod : Modifier) (key : WChar) :
    Bool :=
  e.config.spellCheckEnabled &&
    !e.wouldBeValidSyllable targetIdx newMod none && !e.keyMatchesExclusion key

/-- A tone at an index would make the text match an exclusion. -/
def toneMatchesExclusion (e : TypingEngine) (targetIdx : Option Nat) (requestedTone : Tone) :
    Bool :=
  match targetIdx with
  | none => false
  | some i =>
      wouldToneMatchExclusion e.states e.config.spellExclusions i
        (compose { stateAt e.states i with tone := requestedTone })

end TypingEngine

end VKey
