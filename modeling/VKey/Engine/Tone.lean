import VKey.Engine.SpellCheck

/-!
# Tone keys

A tone key puts its tone on the tone target, or takes the tone back if the target already carries
it.  Before that a series of gates decides whether the key is a letter of an English word instead;
a gated key is appended as a letter.

The source keeps the tone target in a cache between the gates.  No gate changes the states, so the
cached target is the target of the current states, and the model computes it where it is used.
-/

namespace VKey

variable [WideCType]

namespace TypingEngine

/-- The tone target of the buffer. -/
def toneTarget (e : TypingEngine) : Option Nat := findToneTarget e.config.modernOrtho e.states

/-- The buffer with another tone on a state is a complete syllable. -/
def wouldValidateWithTone (e : TypingEngine) (i : Nat) (tone : Tone) : Bool :=
  Phonology.validateSyllableState (e.states.modify i fun s => { s with tone }) e.config.allowZwjf
    == .valid

/-! ## Applying and clearing -/

/-- Apply, replace or take back a tone. -/
def processTone (e : TypingEngine) (newTone : Tone) (keyChar : WChar) : TypingEngine × Bool :=
  if newTone = .none then (e, false)
  else
    match e.toneTarget with
    | none => (e, false)
    | some i =>
        let target := stateAt e.states i
        if target.tone = newTone then
          let cleared := { e with states := setTone e.states i .none none }
          ({ cleared.restoreConsumedKeyInPlace target.toneRawIdx keyChar with escape := .tone },
            true)
        else
          ({ e with
              states := setTone e.states i newTone (some (e.rawInput.length - 1))
              escape := .none }, true)

/-- Clear the tone of the target. -/
def processClearTone (e : TypingEngine) : TypingEngine × Bool :=
  match e.toneTarget with
  | none => (e, false)
  | some i =>
      if (stateAt e.states i).tone = .none then (e, false)
      else ({ e with states := setTone e.states i .none none }, true)

/-! ## Gates -/

/-- The spell gate: in an invalid buffer a tone key is a letter unless it takes a tone back,
leads to an exclusion or repairs the syllable. -/
def spellGateRejects (e : TypingEngine) (requestedTone : Tone) : Bool :=
  let isEscape := e.toneTarget.any fun i => (stateAt e.states i).tone == requestedTone
  let wouldRecover := e.toneTarget.any fun i =>
    (stateAt e.states i).hasTone && e.wouldValidateWithTone i requestedTone
  e.config.effectiveSpellCheck && e.spellCheckDisabled &&
    !(isEscape || e.toneMatchesExclusion e.toneTarget requestedTone || wouldRecover)

/-- The raw prefix gate: the raw keys start an English word. -/
def rawPrefixGateRejects (e : TypingEngine) (requestedTone : Tone) (isTelexTone : Bool) : Bool :=
  isTelexTone && e.config.effectiveSpellCheck && isBlockedEnglishTone e.rawInput &&
    !e.toneMatchesExclusion e.toneTarget requestedTone

/-- With the tone the buffer would be a complete syllable. -/
def toneWouldValidate (e : TypingEngine) (requestedTone : Tone) : Bool :=
  e.toneTarget.any fun i =>
    (stateAt e.states i).tone != requestedTone && e.wouldValidateWithTone i requestedTone

/-- The structural gate, which marks the word as English when it rejects. -/
def structureGateRejects (e : TypingEngine) (keyChar : WChar) (isTelexTone : Bool) : Bool :=
  (if isTelexTone then isHardEnglishToneContext e.states keyChar
    else hasStructuralVCVPattern e.states) ||
    hasInvalidAdjacentVowelPair e.states

/-- The English gate: whether it rejects the key, and the engine with the bias updated. -/
def englishGate (e : TypingEngine) (requestedTone : Tone) (keyChar : WChar)
    (isTelexTone : Bool) : TypingEngine × Bool :=
  if e.config.allowEnglishBypass then (e, false)
  else if e.toneWouldValidate requestedTone then (e.setBias .vietnamese, false)
  else if e.engProt.bias = .hardEnglish then (e, true)
  else
    let insistence := updateToneInsistence keyChar e.engProt
    let isSoft := e.engProt.bias == .softEnglish
    let e := if isSoft then { e with engProt := insistence.2 } else e
    if isSoft && !insistence.1 then (e, true)
    else if e.structureGateRejects keyChar isTelexTone then (e.setBias .hardEnglish, true)
    else (e, false)

/-- The stop gate: grave, hook and tilde do not go with a stop coda. -/
def stopGateRejects (e : TypingEngine) (requestedTone : Tone) : Bool :=
  e.config.effectiveSpellCheck && !e.spellCheckDisabled &&
    (requestedTone == .grave || requestedTone == .hook || requestedTone == .tilde) &&
    hasStopFinalCoda e.states

/-- All gates in their order: whether the tone key is a letter, and the engine with the bias
updated. -/
def toneGates (e : TypingEngine) (requestedTone : Tone) (keyChar lower : WChar) :
    TypingEngine × Bool :=
  let isTelexTone := !(decide (L '0' ≤ lower ∧ lower ≤ L '9'))
  if e.spellGateRejects requestedTone then (e, true)
  else if e.escape ≠ .none ∧ e.escape ≠ .circumflex then (e, true)
  else if e.rawPrefixGateRejects requestedTone isTelexTone then (e, true)
  else
    let gated := e.englishGate requestedTone keyChar isTelexTone
    if gated.2 then gated
    else (gated.1, gated.1.stopGateRejects requestedTone)

/-! ## The handler -/

/-- What follows a tone that has been applied or taken back. -/
def finishTone (e : TypingEngine) : TypingEngine :=
  let e := if e.escape.isEscaped then e.recalcBias else e.setBias .vietnamese
  { e with states := applyAutoUO e.config.modernOrtho e.states }.updateSpellState

/-- Handle a tone key other than the clear key. -/
def handleTone (e : TypingEngine) (requestedTone : Tone) (keyChar lower : WChar)
    (isUpper : Bool) : TypingEngine × Bool :=
  let gated := e.toneGates requestedTone keyChar lower
  if gated.2 then ((gated.1.processChar lower isUpper).updateSpellState, true)
  else
    let applied := gated.1.processTone requestedTone keyChar
    if applied.2 then (applied.1.finishTone, true) else (gated.1, false)

/-- Handle a tone key; false when the key is left to the next rule. -/
def handleToneFsm (e : TypingEngine) (action : TypingAction) (keyChar lower : WChar)
    (isUpper : Bool) : TypingEngine × Bool :=
  if e.states.isEmpty then (e, false)
  else if action = .clearTone then
    if e.config.effectiveSpellCheck && e.spellCheckDisabled then
      ((e.processKeyChar keyChar).updateSpellState, true)
    else
      let cleared := e.processClearTone
      if cleared.2 then (cleared.1.updateSpellState, true) else (e, false)
  else if actionToTone action = .none then (e, false)
  else e.handleTone (actionToTone action) keyChar lower isUpper

end TypingEngine

end VKey
