import VKey.Engine.Engine

/-!
# Runs, and the stages of a key

A run performs user actions from an engine without a word.  The stages name the engine with which
a key reaches the rules: the tone rule behind its gates, the modifier rule behind its gates.

The last sections name the branches in which the engine loses track of a raw keystroke or puts a
second tone into the word.  They are tests of the engine before the action.
-/

namespace VKey

variable [WideCType]

/-- A user action that edits the word. -/
inductive Op where
  | pushChar (keyChar : WChar)
  | backspace
  deriving DecidableEq, Repr

namespace TypingEngine

/-- Perform an action. -/
def perform (e : TypingEngine) : Op → TypingEngine
  | .pushChar keyChar => e.pushChar keyChar
  | .backspace => e.backspace

/-- Perform actions one after the other. -/
def performAll (e : TypingEngine) (ops : List Op) : TypingEngine := ops.foldl perform e

/-- Every action of a run meets a test of the engine it is performed on. -/
def RunMeets (test : TypingEngine → Op → Prop) : TypingEngine → List Op → Prop
  | _, [] => True
  | e, op :: ops => test e op ∧ RunMeets test (e.perform op) ops

instance decidableRunMeets {test : TypingEngine → Op → Prop} [∀ e op, Decidable (test e op)] :
    (e : TypingEngine) → (ops : List Op) → Decidable (RunMeets test e ops)
  | _, [] => inferInstanceAs (Decidable True)
  | e, op :: ops =>
      have : Decidable (RunMeets test (e.perform op) ops) := decidableRunMeets _ _
      inferInstanceAs (Decidable (test e op ∧ RunMeets test (e.perform op) ops))

/-- Typing a text. -/
def typing (text : String) : List Op := text.toList.map fun c => .pushChar (L c)

theorem performAll_induction {test : TypingEngine → Op → Prop} (Inv : TypingEngine → Prop)
    (step : ∀ e op, Inv e → test e op → Inv (e.perform op)) {e : TypingEngine} {ops : List Op}
    (h0 : Inv e) (hops : RunMeets test e ops) : Inv (e.performAll ops) := by
  induction ops generalizing e with
  | nil => exact h0
  | cons op ops ih => exact ih (step e op h0 hops.1) hops.2

theorem performAll_invariant (Inv : TypingEngine → Prop)
    (step : ∀ e op, Inv e → Inv (e.perform op)) {e : TypingEngine} (h0 : Inv e)
    (ops : List Op) : Inv (e.performAll ops) := by
  induction ops generalizing e with
  | nil => exact h0
  | cons op ops ih => exact ih (step e op h0)

/-! ## The stages of a key -/

/-- The case a pushed character is taken in. -/
def pushedUppercase (keyChar : WChar) : Bool :=
  iswupper keyChar || keyChar == 0x7B || keyChar == 0x7D

/-- The engine with which a key reaches the rules after classification. -/
def dispatchStage (e : TypingEngine) (keyChar : WChar) (uppercase : Bool) :
    Option TypingEngine :=
  let settled := (e.recordKey keyChar uppercase).revertProvisionalOoTone (towlower keyChar)
  let quick := settled.1.handleQuickStartConsonant keyChar (towlower keyChar) uppercase
  if settled.2 || quick.2 then none else some quick.1

/-- The engine with which a tone key passes its gates, and the tone. -/
def toneStage (e : TypingEngine) (keyChar : WChar) (uppercase : Bool) :
    Option (TypingEngine × Tone) :=
  (e.dispatchStage keyChar uppercase).bind fun d =>
    let lower := towlower keyChar
    let action := d.keyAction keyChar lower
    let gated := d.toneGates (actionToTone action) keyChar lower
    if (d.escape ≠ .none ∧ d.escape ≠ .circumflex) ∨ d.states.isEmpty ∨
        actionToTone action = .none ∨ gated.2 then none
    else some (gated.1, actionToTone action)

/-- The engine with which a modifier key passes its gates, and the action. -/
def modifierStage (e : TypingEngine) (keyChar : WChar) (uppercase : Bool) :
    Option (TypingEngine × TypingAction) :=
  (e.dispatchStage keyChar uppercase).bind fun d =>
    let lower := towlower keyChar
    let action := d.keyAction keyChar lower
    let toned := d.applyToneRule action keyChar lower uppercase
    let gated := toned.1.modifierGates action keyChar lower
    if toned.2 || !gated.2 then none else some (gated.1, action)

/-! ## Branches that lose track of a raw keystroke -/

/-- The raw keys start with `use`. -/
def startsWithUse (rawInput : List WChar) : Bool :=
  decide (3 ≤ rawInput.length) && towlower (rawInput.getD 0 0) == L 'u' &&
    towlower (rawInput.getD 1 0) == L 's' && towlower (rawInput.getD 2 0) == L 'e'

/-- A literal that is put back would stand behind a letter typed after it: the provisional tone
key of `oo`, or the `s` of a reverted `use`. -/
def putsLiteralOutOfOrder (e : TypingEngine) (keyChar : WChar) : Bool :=
  let rawInput := e.rawInput ++ [keyChar]
  (e.hasProvisionalOoTone (towlower keyChar) &&
      e.lastState.toneRawIdx.any fun t =>
        decide (t < e.lastState.rawIdx) && rawInput.getD t 0 != 0) ||
    (e.config.isTelexMode && e.states.length == 1 && decide (2 ≤ e.lastState.rawIdx) &&
      startsWithUse rawInput)

/-- A horn key relocates a tone to the horned vowel. -/
def movesTone (effect : HornEffect) : Bool :=
  match effect with
  | .relocate states => (relocationToHornVowel states).isSome
  | _ => false

/-- The actions that reach the horn handler. -/
def isHornAction (action : TypingAction) : Bool :=
  [.hornW, .hornOrInsertU, .hornOrInsertUNoStart].contains action

/-- The key horns a vowel and relocates a tone to it. -/
def relocatesToHorn (e : TypingEngine) (keyChar : WChar) : Bool :=
  (e.modifierStage keyChar (pushedUppercase keyChar)).any fun m =>
    isHornAction m.2 && movesTone (m.1.hornEffect keyChar)

/-- The key turns `use` into `uê` with an acute. -/
def unrevertsUse (e : TypingEngine) (keyChar : WChar) (test : TypingEngine → Bool) : Bool :=
  (e.modifierStage keyChar (pushedUppercase keyChar)).any fun m =>
    m.2 == .circumflexE && m.1.isLiteralUse && test m.1

/-- The key takes the `s` of `use` for an acute although the method gives it another action. -/
def takesForeignTone (e : TypingEngine) (keyChar : WChar) : Bool :=
  e.unrevertsUse keyChar fun m =>
    actionToTone (methodAction m.config (towlower (m.rawInput.getD 1 0))) != .acute

/-- The base and modifier of the letter an action inserts. -/
def insertedBy (action : TypingAction) : Option (WChar × Modifier) :=
  match action with
  | .hornInsertO => some (L 'o', .horn)
  | .hornInsertU | .hornOrInsertU | .hornOrInsertUNoStart => some (L 'u', .horn)
  | _ => (insertedLetter action).map fun letter => (letter.1, letter.2.1)

/-- The key takes an inserted letter back together with a raw key that another letter's tone came
from. -/
def takesToneKeyBack (e : TypingEngine) (keyChar : WChar) : Bool :=
  (e.modifierStage keyChar (pushedUppercase keyChar)).any fun m =>
    (insertedBy m.2).any (fun letter => m.1.takesInsertBack letter.1 letter.2 keyChar) &&
      m.1.states.dropLast.any fun s => s.toneRawIdx == some m.1.lastState.rawIdx

/-- Backspace deletes the raw keys from the one of the last letter on. -/
def deletesRawKeys (e : TypingEngine) : Bool :=
  !e.states.isEmpty && !(e.quickStartKey != 0 && e.states.length == 2) &&
    e.qc.resultIndex != some (e.states.length - 1)

/-- Backspace deletes a raw key that a remaining letter still refers to. -/
def strandsRawIndex (e : TypingEngine) : Bool :=
  e.deletesRawKeys && e.states.dropLast.any fun s =>
    decide (e.lastState.rawIdx ≤ s.rawIdx) || s.toneRawIdx.any (e.lastState.rawIdx ≤ ·)

/-! ## A second tone -/

/-- Some state other than the one at an index carries a tone. -/
def hasOtherTone (states : List CharState) (i : Nat) : Bool :=
  (List.range states.length).any fun j => j != i && (stateAt states j).hasTone

/-- The key puts a tone on a vowel while another letter carries one. -/
def tonesSecondVowel (e : TypingEngine) (keyChar : WChar) : Bool :=
  ((e.toneStage keyChar (pushedUppercase keyChar)).any fun m =>
    m.1.toneTarget.any fun i =>
      (stateAt m.1.states i).tone != m.2 && hasOtherTone m.1.states i) ||
    e.unrevertsUse keyChar fun m => (stateAt m.states 0).hasTone

end TypingEngine

end VKey
