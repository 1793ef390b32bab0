import VKey.Text.WideChar

/-!
# Typing actions

The action a key stands for, decided from the key and the input method alone.  Whether an action
applies to the current buffer is left to its handler.
-/

namespace VKey

/-- What a key is classified as before dispatch. -/
inductive TypingAction where
  | none
  | clearTone
  | toneAcute
  | toneGrave
  | toneHook
  | toneTilde
  | toneDot
  | circumflexA
  | circumflexE
  | circumflexO
  | hornW
  | hornInsertO
  | hornInsertU
  | strokeD
  | vniCircumflex
  | vniHorn
  | vniBreve
  | vniStroke
  | hornOrInsertU
  | hornOrInsertUNoStart
  | undoAllMarks
  | insertABreve
  | insertABreveUpper
  | insertACircumflex
  | insertACircumflexUpper
  | insertDStroke
  | insertDStrokeUpper
  | insertECircumflex
  | insertECircumflexUpper
  | insertOCircumflex
  | insertOCircumflexUpper
  | insertOHorn
  | insertOHornUpper
  | insertUHorn
  | insertUHornUpper
  deriving DecidableEq, Repr

namespace TypingAction

/-- The tone keys, the clear-tone key included. -/
def isToneAction (action : TypingAction) : Bool :=
  [clearTone, toneAcute, toneGrave, toneHook, toneTilde, toneDot].contains action

/-- The Telex modifier keys. -/
def isTelexModifierAction (action : TypingAction) : Bool :=
  [circumflexA, circumflexE, circumflexO, hornW, hornInsertO, hornInsertU, strokeD].contains action

/-- The VNI modifier keys. -/
def isVniModifierAction (action : TypingAction) : Bool :=
  [vniCircumflex, vniHorn, vniBreve, vniStroke].contains action

/-- The actions only a custom key map can produce. -/
def isUserDefinedOnlyAction : TypingAction → Bool
  | hornOrInsertU | hornOrInsertUNoStart | undoAllMarks
  | insertABreve | insertABreveUpper | insertACircumflex | insertACircumflexUpper
  | insertDStroke | insertDStrokeUpper | insertECircumflex | insertECircumflexUpper
  | insertOCircumflex | insertOCircumflexUpper | insertOHorn | insertOHornUpper
  | insertUHorn | insertUHornUpper => true
  | _ => false

end TypingAction

/-- Shifted brackets stand for the plain ones in action lookup. -/
def canonicalBracketKey (key : WChar) : WChar :=
  if key = 0x7B then L '[' else if key = 0x7D then L ']' else key

/-- The Telex meaning of a lowercase key. -/
def telexAction (lower : WChar) : TypingAction :=
  if lower = L 'z' then .clearTone
  else if lower = L 's' then .toneAcute
  else if lower = L 'f' then .toneGrave
  else if lower = L 'r' then .toneHook
  else if lower = L 'x' then .toneTilde
  else if lower = L 'j' then .toneDot
  else if lower = L 'a' then .circumflexA
  else if lower = L 'e' then .circumflexE
  else if lower = L 'o' then .circumflexO
  else if lower = L 'w' then .hornW
  else if lower = L '[' then .hornInsertO
  else if lower = L ']' then .hornInsertU
  else if lower = L 'd' then .strokeD
  else .none

/-- The VNI meaning of a key. -/
def vniAction (lower : WChar) : TypingAction :=
  if lower = L '0' then .clearTone
  else if lower = L '1' then .toneAcute
  else if lower = L '2' then .toneGrave
  else if lower = L '3' then .toneHook
  else if lower = L '4' then .toneTilde
  else if lower = L '5' then .toneDot
  else if lower = L '6' then .vniCircumflex
  else if lower = L '7' then .vniHorn
  else if lower = L '8' then .vniBreve
  else if lower = L '9' then .vniStroke
  else .none

/-- Classify a lowercase key under the mode flags: Telex first, then VNI. -/
def classifyKey (lower : WChar) (isTelex isVni : Bool) : TypingAction :=
  let lower := canonicalBracketKey lower
  if isTelex && telexAction lower != .none then telexAction lower
  else if isVni then vniAction lower
  else .none

end VKey
