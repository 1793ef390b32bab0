import VKey.Text.VietnameseTables

/-!
# Character states

The engine does not store text: it stores one state for each letter of the word being typed.
A position in the raw keystrokes that the source marks absent with `SIZE_MAX` is an option.
-/

namespace VKey

/-- Modifier of a Vietnamese letter. -/
inductive Modifier where
  | none
  | circumflex
  | breve
  | horn
  | stroke
  deriving DecidableEq, Repr

/-- Tone of a Vietnamese vowel. -/
inductive Tone where
  | none
  | acute
  | grave
  | hook
  | tilde
  | dot
  deriving DecidableEq, Repr

/-- The numeric value of a modifier. -/
def Modifier.ordinal : Modifier → Nat
  | .none => 0
  | .circumflex => 1
  | .breve => 2
  | .horn => 3
  | .stroke => 4

/-- State of one letter. -/
structure CharState where
  /-- Base letter, lowercase. -/
  base : WChar := 0
  mod : Modifier := .none
  tone : Tone := .none
  /-- The letter was typed as a capital. -/
  isUpper : Bool := false
  /-- Made from a standalone `w`, not from a letter key. -/
  synthetic : Bool := false
  /-- Index in the raw keystrokes when the state was made. -/
  rawIdx : Nat := 0
  /-- Index in the raw keystrokes of the consumed tone key. -/
  toneRawIdx : Option Nat := .none
  deriving DecidableEq, Repr, Inhabited

namespace CharState

/-- The base is a vowel. -/
def isVowel (s : CharState) : Bool :=
  s.base == L 'a' || s.base == L 'e' || s.base == L 'i' ||
    s.base == L 'o' || s.base == L 'u' || s.base == L 'y'

/-- The base is `d`. -/
def isD (s : CharState) : Bool := s.base == L 'd'

/-- The letter carries a horn. -/
def isHorn (s : CharState) : Bool := s.mod == .horn

/-- The letter carries a modifier. -/
def hasModifier (s : CharState) : Bool := s.mod != .none

/-- The letter carries a tone. -/
def hasTone (s : CharState) : Bool := s.tone != .none

end CharState

end VKey
