import VKey.Engine.Modifier
import VKey.Engine.Tone

/-!
# The typing engine

The public operations: push a key, delete the last letter, render and commit.  A key passes the
quick start consonants, is classified, and is offered to the tone rule, the modifier rule and the
quick end consonants; what none of them consumes becomes a letter.
-/

namespace VKey

variable [WideCType]

namespace TypingEngine

/-! ## The provisional tone of `oo` -/

/-- The buffer ends in two literal `o`, the second one toned, and the next key is no coda that
could close the syllable. -/
def hasProvisionalOoTone (e : TypingEngine) (lower : WChar) : Bool :=
  let count := e.states.length
  let firstO := stateAt e.states (count - 2)
  let secondO := stateAt e.states (count - 1)
  decide (2 ≤ count) && firstO.base == L 'o' && secondO.base == L 'o' &&
    firstO.mod == .none && secondO.mod == .none && secondO.hasTone && !firstO.hasTone &&
    lower != L 'c' && lower != L 'n'

/-- Turn a provisional tone back into its literal key.  True when the same key has been pressed
again and is swallowed. -/
def revertProvisionalOoTone (e : TypingEngine) (lower : WChar) : TypingEngine × Bool :=
  if e.hasProvisionalOoTone lower then
    let last := e.states.length - 1
    let consumedRawIdx := (stateAt e.states last).toneRawIdx
    let toneKey := (consumedRawIdx.bind fun idx => e.rawInput[idx]?).getD 0
    let e := e.withStates (setTone e.states last .none none)
    if toneKey = 0 then (e, false)
    else
      let e := e.pushState { base := towlower toneKey, isUpper := iswupper toneKey,
                             rawIdx := consumedRawIdx.getD 0 }
      if towlower toneKey = lower then ({ e with escape := .tone }, true) else (e, false)
  else (e, false)

/-! ## Finishing a letter -/

/-- A leading `ư` made from `w` in front of a hard English onset. -/
def hasSyntheticEnglishStart (e : TypingEngine) : Bool :=
  let s0 := stateAt e.states 0
  e.config.inputMethod == .telex && e.engProt.bias != .hardEnglish && !e.states.isEmpty &&
    s0.synthetic && s0.base == L 'u' && s0.mod == .horn && s0.tone == .none &&
    isHardEnglishRawStart e.rawInput

/-- Turn such a `ư` back into `w`. -/
def revertSyntheticStart (e : TypingEngine) : TypingEngine :=
  if e.hasSyntheticEnglishStart then
    (e.withStates (e.states.modify 0 fun s =>
      { s with base := L 'w', mod := .none, synthetic := false })).setBias .hardEnglish
  else e

/-- The buffer is `úe` or `ué`, typed as `use`. -/
def hasTonedUse (e : TypingEngine) : Bool :=
  let s0 := stateAt e.states 0
  let s1 := stateAt e.states 1
  e.config.effectiveSpellCheck && e.config.isTelexMode && e.engProt.bias != .hardEnglish &&
    e.states.length == 2 && towlower s0.base == L 'u' && s0.mod == .none &&
    towlower s1.base == L 'e' && s1.mod == .none && (s0.tone == .acute || s1.tone == .acute) &&
    decide (3 ≤ e.rawInput.length) && towlower (e.rawInput.getD 0 0) == L 'u' &&
    towlower (e.rawInput.getD 1 0) == L 's' && towlower (e.rawInput.getD 2 0) == L 'e'

/-- Turn it back into the letters `use`. -/
def revertTonedUse (e : TypingEngine) : TypingEngine :=
  if e.hasTonedUse then
    let cleared := setTone (setTone e.states 0 .none none) 1 .none none
    let s : CharState :=
      { base := L 's', isUpper := iswupper (e.rawInput.getD 1 0), rawIdx := 1 }
    (e.withStates (cleared.insertIdx 1 s)).setBias .hardEnglish
  else e

/-- Update the bias for a new letter. -/
def checkBias (e : TypingEngine) : TypingEngine :=
  { e with engProt := checkEnglishBias e.states e.engProt }

/-- Layer the bias of the letters `w z j f` over the bias, in the Telex methods. -/
def checkInitialBias (e : TypingEngine) : TypingEngine :=
  if e.config.isTelexMode then
    { e with engProt := checkZwjfInitialBias e.states e.config e.engProt }
  else e

/-- What follows a letter: relocate the tone, complete `ươ`, and update spelling and bias. -/
def finalizeRegularChar (e : TypingEngine) : TypingEngine :=
  let states := relocateToneToTarget e.config.modernOrtho e.states
  let e := (e.withStates (applyAutoUO e.config.modernOrtho states)).updateSpellState
  e.checkBias.revertSyntheticStart.revertTonedUse.checkInitialBias

/-! ## Quick consonants -/

/-- The two letters of a quick start consonant. -/
def quickStartLetters (lower : WChar) : Option (WChar × WChar) :=
  if lower = L 'f' then some (L 'p', L 'h')
  else if lower = L 'j' then some (L 'g', L 'i')
  else if lower = L 'w' then some (L 'q', L 'u')
  else none

/-- The second letter of a doubled quick consonant. -/
def quickReplacement (base lower : WChar) : Option WChar :=
  if base ≠ lower then none
  else if lower = L 'c' then some (L 'h')
  else if lower = L 'g' then some (L 'i')
  else if lower = L 'n' then some (L 'g')
  else if lower = L 'k' then some (L 'h')
  else if lower = L 'q' then some (L 'u')
  else if lower = L 'p' then some (L 'h')
  else if lower = L 't' then some (L 'h')
  else none

/-- Undo a quick start consonant that no vowel follows. -/
def undoQuickStart (e : TypingEngine) (keyChar : WChar) : TypingEngine :=
  if e.quickStartKey = 0 then e
  else if isVowelChar keyChar then { e with quickStartKey := 0 }
  else
    let cleared : TypingEngine :=
      { e with quickStartKey := 0, states := [], rawInput := [e.quickStartKey] }
    let e := cleared.processKeyChar e.quickStartKey
    { e with rawInput := e.rawInput ++ [keyChar] }

/-- Record an expansion that appends one letter. -/
def recordExpansion (e : TypingEngine) (lower : WChar) : TypingEngine :=
  { e with qc := { e.qc with
      onlyQC := e.qc.onlyQC || e.states.length == 1
      resultIndex := some e.states.length
      lastKey := lower } }

/-- Expand a doubled consonant, or `uu` to `ươ`. -/
def expandQuickConsonant (e : TypingEngine) (lower : WChar) (isUpper : Bool) :
    Option TypingEngine :=
  let last := e.lastState
  if !last.isVowel && !last.isD then
    (quickReplacement last.base lower).map fun replacement =>
      let newKey := if isUpper then towupper replacement else replacement
      ((e.recordExpansion lower).processKeyChar newKey).finalizeRegularChar
  else if last.isVowel ∧ last.base = L 'u' ∧ last.mod = .none ∧ lower = L 'u' ∧
      !e.endsInTriphthong then
    let horned := (e.recordExpansion lower).withStates (setMod e.states (e.states.length - 1) .horn)
    some (horned.pushState
      { base := L 'o', mod := .horn, isUpper, rawIdx := e.nextRawIdx }).updateSpellState
  else none

/-- A backspace or the key of the last expansion keeps the next key from expanding. -/
def isQuickEscaped (e : TypingEngine) (lower : WChar) : Bool :=
  e.qc.escaped || (e.qc.lastKey != 0 && lower == e.qc.lastKey)

/-- Forget the escape of quick consonants, and the last key unless it is repeated. -/
def clearQuickEscape (e : TypingEngine) (lower : WChar) : TypingEngine :=
  { e with qc := { e.qc with
      escaped := false
      lastKey := if e.qc.lastKey != 0 && lower == e.qc.lastKey then e.qc.lastKey else 0 } }

/-- The quick consonant rules before classification; true when they consume the key. -/
def handleQuickStartConsonant (e : TypingEngine) (keyChar lower : WChar) (isUpper : Bool) :
    TypingEngine × Bool :=
  match (if e.config.quickStartConsonant && e.states.isEmpty then quickStartLetters lower
      else none) with
  | some (first, second) =>
      let e := (e.processKeyChar (if isUpper then towupper first else first)).processKeyChar second
      ({ e with quickStartKey := keyChar }.updateSpellState, true)
  | none =>
      let e := e.undoQuickStart keyChar
      let quickEscaped := e.isQuickEscaped lower
      let e := e.clearQuickEscape lower
      if e.config.quickConsonant && !e.states.isEmpty && !quickEscaped then
        match e.expandQuickConsonant lower isUpper with
        | some expanded => (expanded, true)
        | none => (e, false)
      else (e, false)

/-- The two letters of a quick end consonant. -/
def quickEndLetters (lower : WChar) : Option (WChar × WChar) :=
  if lower = L 'g' then some (L 'n', L 'g')
  else if lower = L 'h' then some (L 'n', L 'h')
  else if lower = L 'k' then some (L 'c', L 'h')
  else none

/-- The quick end consonants, after a vowel; true when they consume the key. -/
def handleQuickEndConsonant (e : TypingEngine) (lower : WChar) : TypingEngine × Bool :=
  if e.config.quickEndConsonant && !e.states.isEmpty && e.lastState.isVowel then
    match quickEndLetters lower with
    | some (first, second) =>
        (((e.processKeyChar first).processKeyChar second).updateSpellState, true)
    | none => (e, false)
  else (e, false)

/-! ## Pushing a key -/

/-- A digit right after a literal digit: part of a number. -/
def isVniDigitSequence (e : TypingEngine) (keyChar : WChar) : Bool :=
  e.config.isVniMode && decide (L '0' ≤ keyChar ∧ keyChar ≤ L '9') && !e.states.isEmpty &&
    decide (L '0' ≤ e.lastState.base ∧ e.lastState.base ≤ L '9')

/-- The action of the user's key map. -/
def overrideAction (config : TypingConfig) (lower : WChar) : TypingAction :=
  if lower < 128 ∧ config.inputMethod = .userDefined then
    let action := config.customKeyMap lower
    if action = .none ∧ canonicalBracketKey lower ≠ lower then
      config.customKeyMap (canonicalBracketKey lower)
    else action
  else .none

/-- The action the active method gives a key. -/
def methodAction (config : TypingConfig) (lower : WChar) : TypingAction :=
  if overrideAction config lower ≠ .none then overrideAction config lower
  else classifyKey lower config.isTelexMode config.isVniMode

/-- The action of a key in the buffer. -/
def keyAction (e : TypingEngine) (keyChar lower : WChar) : TypingAction :=
  if e.isVniDigitSequence keyChar then .none else methodAction e.config lower

/-- The tone rule, which an escape other than the circumflex escape keeps out. -/
def applyToneRule (e : TypingEngine) (action : TypingAction) (keyChar lower : WChar)
    (isUpper : Bool) : TypingEngine × Bool :=
  if (e.escape ≠ .none ∧ e.escape ≠ .circumflex) ∨ !action.isToneAction then (e, false)
  else e.handleToneFsm action keyChar lower isUpper

/-- The rules after classification, in the order of their priority. -/
def dispatchPostClassify (e : TypingEngine) (action : TypingAction) (keyChar lower : WChar)
    (isUpper : Bool) : TypingEngine × Bool :=
  let toned := e.applyToneRule action keyChar lower isUpper
  if toned.2 then toned
  else
    let modified := toned.1.handleModifierAction action keyChar lower
    if modified.2 then modified
    else modified.1.handleQuickEndConsonant lower

/-- The engine with a key in its raw histories. -/
def recordKey (e : TypingEngine) (keyChar : WChar) (uppercase : Bool) : TypingEngine :=
  { e with
    rawInput := e.rawInput ++ [keyChar], escRawHistory := e.escRawHistory ++ [keyChar],
    qc := { e.qc with onlyQC := false }, activeKeyUppercase := uppercase }

/-- A key after the provisional tone has been settled. -/
def pushSettled (e : TypingEngine) (keyChar : WChar) (uppercase : Bool) : TypingEngine :=
  let lower := towlower keyChar
  let quick := e.handleQuickStartConsonant keyChar lower uppercase
  if quick.2 then quick.1
  else
    let action := quick.1.keyAction keyChar lower
    let dispatched := quick.1.dispatchPostClassify action keyChar lower uppercase
    if dispatched.2 then dispatched.1
    else (dispatched.1.processChar lower uppercase).finalizeRegularChar

/-- Push a key with its case. -/
def pushKey (e : TypingEngine) (keyChar : WChar) (uppercase : Bool) : TypingEngine :=
  let settled := (e.recordKey keyChar uppercase).revertProvisionalOoTone (towlower keyChar)
  if settled.2 then
    let e := settled.1.updateSpellState
    { e with engProt := recalcEnglishBias e.states }
  else settled.1.pushSettled keyChar uppercase

/-- Push a character. -/
def pushChar (e : TypingEngine) (keyChar : WChar) : TypingEngine :=
  e.pushKey keyChar (iswupper keyChar || keyChar == 0x7B || keyChar == 0x7D)

/-! ## Backspace -/

/-- Delete the last letter and the raw keys that belong to it. -/
def popLetter (e : TypingEngine) : TypingEngine :=
  let rawTarget := e.lastState.rawIdx
  let states := e.states.dropLast
  let escRawHistory := if states.isEmpty then [] else e.escRawHistory.dropLast
  { e with
    states, rawInput := e.rawInput.take rawTarget, escRawHistory }.updateSpellState.recalcBias

/-- Undo a quick consonant expansion: the last letter becomes the key that made it. -/
def undoQuickConsonant (e : TypingEngine) : TypingEngine :=
  let last := e.states.length - 1
  let popped : TypingEngine :=
    { e with states := (undoHornU e.states last).dropLast, qc := e.qc.markEscaped }
  let e := if e.qc.lastKey ≠ 0 then popped.processKeyChar e.qc.lastKey else popped
  e.updateSpellState.recalcBias

/-- Delete the last letter. -/
def backspace (e : TypingEngine) : TypingEngine :=
  if e.states.isEmpty then e
  else
    let e := { e with escape := .none }
    if e.quickStartKey ≠ 0 ∧ e.states.length = 2 then
      let cleared := { e with states := [], rawInput := [e.quickStartKey] }
      { cleared.processKeyChar e.quickStartKey with quickStartKey := 0 }.updateSpellState
    else
      let e := { e with quickStartKey := 0 }
      if e.qc.resultIndex = some (e.states.length - 1) then e.undoQuickConsonant
      else { e with qc := e.qc.clearActive }.popLetter

/-! ## Committing -/

/-- The raw keys with the case of the first composed character. -/
def capitalizedRaw (raw composed : List WChar) : List WChar :=
  match raw, composed with
  | r :: raw, c :: _ => if iswupper c then towupper r :: raw else r :: raw
  | _, _ => raw

/-- The buffer ends as no complete syllable, so the raw keys may be restored. -/
def shouldRestore (e : TypingEngine) : Bool :=
  let isBareCircumflexA := e.states.length == 1 && (stateAt e.states 0).base == L 'a' &&
    (stateAt e.states 0).mod == .circumflex
  e.spellCheckDisabled ||
    (!e.states.isEmpty && !isBareCircumflexA &&
      Phonology.validateSyllableState e.states e.config.allowZwjf == .validPrefix)

/-- An exclusion or an intended `đ` keeps the composed text.  In a prefix that already has a
vowel only an exclusion does. -/
def keepsComposed (e : TypingEngine) (composed : List WChar) : Bool :=
  let unfinishedNucleus := !e.spellCheckDisabled && e.states.any (·.isVowel)
  isSpellExcluded e.states e.config.spellExclusions ||
    (!unfinishedNucleus && hasIntentionalStrokeD e.rawInput composed)

/-- The text of the word: the composed text, or the raw keys where they are restored. -/
def committedText (e : TypingEngine) : List WChar :=
  let composed := composeAll e.states
  let raw := e.rawInput
  if e.quickStartKey ≠ 0 ∧ raw.length = 1 ∧ shouldAutoRestore raw composed then raw
  else if e.qc.onlyQC ∧ shouldAutoRestore raw composed then raw
  else if !e.config.spellCheckEnabled || !e.config.autoRestoreEnabled || e.qc.hasActive then
    composed
  else if e.shouldRestore && !e.keepsComposed composed &&
      shouldAutoRestore (capitalizedRaw raw composed) composed then
    capitalizedRaw raw composed
  else composed

/-- Commit the word: its text, and the engine reset. -/
def commit (e : TypingEngine) : List WChar × TypingEngine :=
  let settled := (e.revertProvisionalOoTone (L ' ')).1
  (settled.committedText, settled.reset)

end TypingEngine

end VKey
