import VKey.CodeTable.Tables
import VKey.Engine.Phonology
import VKey.Engine.TypingAction

/-!
# The state of the typing engine

The engine keeps the character states of the word being typed and, beside them, the raw keystrokes
that made them.  Every operation is a function from engine to engine; an operation that reports
whether it consumed the key returns the engine together with a Boolean.

Rendering is a function of the character states: `compose` gives the character of one state,
`peek` the text of all of them.
-/

namespace VKey

/-! ## Configuration -/

/-- Input methods. -/
inductive InputMethod where
  | telex
  | vni
  | simpleTelex
  | combined
  | userDefined
  deriving DecidableEq, Repr

/-- The fields of the typing configuration that the engine reads. -/
structure TypingConfig where
  inputMethod : InputMethod := .telex
  spellCheckEnabled : Bool := true
  modernOrtho : Bool := true
  allowZwjf : Bool := false
  autoRestoreEnabled : Bool := true
  quickConsonant : Bool := false
  quickStartConsonant : Bool := false
  quickEndConsonant : Bool := false
  allowEnglishBypass : Bool := false
  /-- Spell check exclusion prefixes, lowercase. -/
  spellExclusions : List (List WChar) := []
  /-- The user's key map, indexed by ASCII code. -/
  customKeyMap : WChar → TypingAction := fun _ => .none

namespace TypingConfig

/-- The method has the Telex keys. -/
def isTelexMode (config : TypingConfig) : Bool :=
  config.inputMethod != .vni && config.inputMethod != .userDefined

/-- The method has the VNI keys. -/
def isVniMode (config : TypingConfig) : Bool :=
  config.inputMethod == .vni || config.inputMethod == .combined

/-- Spell checking drives the literal treatment of keys. -/
def effectiveSpellCheck (config : TypingConfig) : Bool :=
  config.spellCheckEnabled && !config.allowEnglishBypass

end TypingConfig

/-! ## Engine state -/

/-- What the user has cancelled by repeating a key. -/
inductive EscapeKind where
  | none
  | tone
  | circumflex
  | horn
  | breve
  | stroke
  | modifier
  deriving DecidableEq, Repr

/-- An escape is active. -/
def EscapeKind.isEscaped (kind : EscapeKind) : Bool := kind != .none

/-- Quick consonant expansion. -/
structure QuickConsonantState where
  /-- Index of the state an expansion produced. -/
  resultIndex : Option Nat := none
  /-- Key of the last expansion. -/
  lastKey : WChar := 0
  /-- The buffer is an expansion and nothing else. -/
  onlyQC : Bool := false
  /-- A backspace has undone an expansion. -/
  escaped : Bool := false
  deriving DecidableEq, Repr

namespace QuickConsonantState

/-- An expansion is active. -/
def hasActive (qc : QuickConsonantState) : Bool := qc.resultIndex.isSome

/-- Forget the active expansion. -/
def clearActive (qc : QuickConsonantState) : QuickConsonantState :=
  { qc with resultIndex := none, lastKey := 0 }

/-- Forget the active expansion and remember that it was undone. -/
def markEscaped (qc : QuickConsonantState) : QuickConsonantState :=
  { qc.clearActive with escaped := true }

end QuickConsonantState

/-- The typing engine. -/
structure TypingEngine where
  config : TypingConfig
  states : List CharState := []
  /-- Raw keystrokes; keys that an escape took back are erased. -/
  rawInput : List WChar := []
  /-- All keystrokes, for restoring the raw text. -/
  escRawHistory : List WChar := []
  /-- The buffer is no syllable. -/
  spellCheckDisabled : Bool := false
  qc : QuickConsonantState := {}
  escape : EscapeKind := .none
  activeKeyUppercase : Bool := false
  /-- The key a quick start consonant replaced. -/
  quickStartKey : WChar := 0
  engProt : EnglishProtectionState := {}

namespace TypingEngine

/-- An engine without a word. -/
def reset (e : TypingEngine) : TypingEngine :=
  { e with
    states := [], rawInput := [], escRawHistory := [], spellCheckDisabled := false,
    qc := {}, escape := .none, quickStartKey := 0, engProt := {} }

/-- The engine of a configuration. -/
def new (config : TypingConfig) : TypingEngine := { config }

/-- Set the language bias. -/
def setBias (e : TypingEngine) (bias : LanguageBias) : TypingEngine :=
  { e with engProt := { e.engProt with bias } }

end TypingEngine

/-! ## Actions and table indices -/

/-- The tone of a tone key. -/
def actionToTone : TypingAction → Tone
  | .toneAcute => .acute
  | .toneGrave => .grave
  | .toneHook => .hook
  | .toneTilde => .tilde
  | .toneDot => .dot
  | _ => .none

/-- The vowel of a Telex circumflex key. -/
def actionToVowel : TypingAction → WChar
  | .circumflexA => L 'a'
  | .circumflexE => L 'e'
  | .circumflexO => L 'o'
  | _ => 0

/-- The modifier of a VNI key. -/
def actionToVniModifier : TypingAction → Modifier
  | .vniCircumflex => .circumflex
  | .vniHorn => .horn
  | .vniBreve => .breve
  | .vniStroke => .stroke
  | _ => .none

/-- Column of a modifier in `kModifiedVowel`. -/
def modifierIndex : Modifier → Option Nat
  | .circumflex => some 0
  | .breve => some 1
  | .horn => some 2
  | _ => none

/-- Column of a tone in `kTonedVowel`. -/
def toneIndex : Tone → Option Nat
  | .acute => some 0
  | .grave => some 1
  | .hook => some 2
  | .tilde => some 3
  | .dot => some 4
  | .none => none

/-! ## Rendering -/

/-- The vowel with its modifier, if there is such a letter. -/
def applyModifier (s : CharState) : WChar :=
  if s.mod ≠ .none ∧ s.isVowel then
    match vowelBaseIndex s.base, modifierIndex s.mod with
    | some bi, some mi =>
        let modified := (kModifiedVowel.getD bi []).getD mi 0
        if modified ≠ 0 then modified else s.base
    | _, _ => s.base
  else s.base

/-- The letter with its tone, if there is such a letter. -/
def applyTone (ch : WChar) (tone : Tone) : WChar :=
  match toneBaseIndex ch, toneIndex tone with
  | some ti, some si => (kTonedVowel.getD ti []).getD si 0
  | _, _ => ch

variable [WideCType]

/-- The character of a state; `0` for an empty one. -/
def compose (s : CharState) : WChar :=
  if s.base = 0 then 0
  else if s.isD ∧ s.mod = .stroke then (if s.isUpper then L 'Đ' else L 'đ')
  else
    let ch := applyTone (applyModifier s) s.tone
    if s.isUpper then toUpperVietnamese ch else ch

/-- The text of the states; empty states are skipped. -/
def composeAll (states : List CharState) : List WChar :=
  (states.map compose).filter (· != 0)

namespace TypingEngine

/-- The text of the word being typed. -/
def peek (e : TypingEngine) : List WChar := composeAll e.states

/-- The number of states. -/
def count (e : TypingEngine) : Nat := e.states.length

/-! ## Raw keystrokes -/

/-- The index a new state gets in the raw keystrokes. -/
def nextRawIdx (e : TypingEngine) : Nat :=
  if e.rawInput.isEmpty then 0 else e.rawInput.length - 1

/-- Append a state. -/
def pushState (e : TypingEngine) (s : CharState) : TypingEngine :=
  { e with states := e.states ++ [s] }

/-- Append a letter as it is. -/
def processChar (e : TypingEngine) (lower : WChar) (isUpper : Bool) : TypingEngine :=
  e.pushState { base := lower, isUpper, rawIdx := e.nextRawIdx }

/-- Append the letter of a key. -/
def processKeyChar (e : TypingEngine) (keyChar : WChar) : TypingEngine :=
  e.processChar (towlower keyChar) (iswupper keyChar)

end TypingEngine

/-- The state after the raw keystroke at `idx` has been erased. -/
def CharState.shiftRaw (idx : Nat) (s : CharState) : CharState :=
  { s with
    rawIdx := if idx < s.rawIdx then s.rawIdx - 1 else s.rawIdx
    toneRawIdx := s.toneRawIdx.map fun t => if idx < t then t - 1 else t }

/-- Insert a state in front of the first one with a greater raw index. -/
def insertByRawIdx (states : List CharState) (s : CharState) : List CharState :=
  states.insertIdx ((states.findIdx? (s.rawIdx < ·.rawIdx)).getD states.length) s

namespace TypingEngine

/-- Erase a raw keystroke and adjust the indices behind it. -/
def eraseConsumedRaw (e : TypingEngine) (idx : Nat) : TypingEngine :=
  if e.rawInput.length ≤ idx then e
  else
    { e with
      rawInput := e.rawInput.eraseIdx idx
      states := e.states.map (CharState.shiftRaw idx) }

/-- Emit the key of an escape as a letter in the place of the key it takes back.  Without a
usable place, or if the key is not the last raw keystroke, it goes to the end. -/
def restoreConsumedKeyInPlace (e : TypingEngine) (consumedRawIdx : Option Nat)
    (escapeKey : WChar) : TypingEngine :=
  match consumedRawIdx with
  | none => e.processKeyChar escapeKey
  | some idx =>
      if e.rawInput.length ≤ idx then e.processKeyChar escapeKey
      else if e.rawInput.getLast?.map towlower ≠ some (towlower escapeKey) then
        (e.eraseConsumedRaw idx).processKeyChar escapeKey
      else
        let e := e.eraseConsumedRaw (e.rawInput.length - 1)
        let s : CharState :=
          { base := towlower escapeKey, isUpper := iswupper escapeKey, rawIdx := idx }
        { e with
          rawInput := e.rawInput.set idx escapeKey
          states := insertByRawIdx e.states s }

end TypingEngine

end VKey
