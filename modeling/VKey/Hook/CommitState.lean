import VKey.Hook.Keys

/-!
# The commit-undo state

After a commit the last words stay on a stack, so that Backspace can bring them back.  The hook
cannot read the host: it counts the keys of the gap behind the last word and gives up when the count
may be wrong.  The decisions are functions of the key and of a few counters.
-/

namespace VKey

namespace HookEngine

/-! ## The state -/

inductive CommitUndoState where
  /-- No pending undo. -/
  | idle
  /-- A word has been committed: waiting for the first Backspace. -/
  | ready
  /-- The gap has been deleted: the next key may bring the word back. -/
  | primed
  deriving DecidableEq, Repr

/-- A committed word. -/
structure CommitEntry where
  /-- The keys of the word, for replay. -/
  history : List WChar
  /-- The text on screen. -/
  text : List WChar
  rawInput : List WChar
  /-- The encoded widths of the text in a legacy code table. -/
  widths : List Nat
  /-- Extra spaces in front of the word. -/
  extraLeadingTriggers : Nat
  /-- Every key since the commit has been counted.  Only the statements about the hook read this
  field. -/
  anchored : Bool := true
  deriving DecidableEq, Repr

/-- The marker of a Backspace in a history. -/
def kBackspaceMarker : WChar := 8

/-- The most words on the stack. -/
def kMaxStack : Nat := 3

/-- The commit-undo state.  The top of the stack comes first. -/
structure CommitState where
  state : CommitUndoState := .idle
  stack : List CommitEntry := []
  pushedToStack : Bool := false
  gapEndsInGlyph : Bool := false
  prevKeyGlyph : WChar := 0
  wordOpenGlyph : WChar := 0
  pendingTriggerCount : Nat := 0
  leadingTriggersForCurrentWord : Nat := 0
  inputHistory : List WChar := []
  deriving DecidableEq, Repr

namespace CommitState

/-- Count one more space of the gap, up to 255. -/
def incrementPendingTriggers (c : CommitState) : CommitState :=
  { c with pendingTriggerCount :=
      if c.pendingTriggerCount < 0xFF then c.pendingTriggerCount + 1 else c.pendingTriggerCount }

/-- Drop the undo window and the stack. -/
def cancel (c : CommitState) : CommitState :=
  { c with
    state := .idle, pendingTriggerCount := 0, leadingTriggersForCurrentWord := 0,
    gapEndsInGlyph := false, stack := [] }

/-- Drop the keys of the current word as well. -/
def discardReplayContext (c : CommitState) : CommitState :=
  { c.cancel with inputHistory := [], pushedToStack := false }

/-- Push a word; the oldest one makes room for it. -/
def pushEntry (c : CommitState) (entry : CommitEntry) : CommitState :=
  { c with stack := entry :: if kMaxStack ≤ c.stack.length then c.stack.dropLast else c.stack }

/-- Open the undo window.  The spaces in front of the current word belong to the gap now. -/
def setCommitUndoReady (c : CommitState) : CommitState :=
  { c with
    state := .ready, pendingTriggerCount := c.leadingTriggersForCurrentWord,
    leadingTriggersForCurrentWord := 0, gapEndsInGlyph := false }

/-- Start a word behind the gap: the stack is kept, and the extra spaces are remembered. -/
def startWord (c : CommitState) : CommitState :=
  { c with
    state := .idle, leadingTriggersForCurrentWord := c.pendingTriggerCount,
      pendingTriggerCount := 0,
    gapEndsInGlyph := false }

/-- Forget that the words stand where the counters say. -/
def loseAnchors (c : CommitState) : CommitState :=
  { c with stack := c.stack.map fun entry => { entry with anchored := false } }

end CommitState

/-! ## What a commit does to the undo window -/

inductive CommitUndoArm where
  | arm
  | skip
  | clear
  deriving DecidableEq, Repr

/-- Decide by the key that committed a word. -/
def decideCommitUndoArm (vkCode : Nat) : CommitUndoArm :=
  if isReplayContextBoundary vkCode then .clear
  else if isCaretNavigationKey vkCode || vkCode == vkEscape || vkCode == vkDelete ||
      vkCode == vkInsert then .skip
  else .arm

/-- The host replaces a word between colons. -/
def isHostReplacedWord (openGlyph closeTrigger : WChar) : Bool :=
  openGlyph == L ':' && closeTrigger == L ':'

/-- A printable trigger that keeps the word as it was typed: any but the punctuation of
sentences. -/
def isVerbatimCommitTrigger (triggerChar : WChar) : Bool :=
  decide (L ' ' < triggerChar) &&
    !([L '.', L ',', L ';', L ':', L '!', L '?', L ')'].contains triggerChar)

/-! ## Keys in the gap -/

inductive ReadyGapAction where
  | trackSpace
  | cancel
  | startWord
  deriving DecidableEq, Repr

/-- Decide what a key in the gap does. -/
def decideReadyGapKey (isCommitTrigger : Bool) (triggerChar : WChar) (pendingTriggers : Nat)
    (gapEndsInGlyph : Bool) : ReadyGapAction :=
  if isCommitTrigger then if triggerChar = L ' ' then .trackSpace else .cancel
  else if pendingTriggers = 0 ∧ gapEndsInGlyph then .cancel
  else .startWord

inductive PrimedTriggerAction where
  | cancel
  | reEnterReady
  | idle
  deriving DecidableEq, Repr

/-- Decide what a key right behind the word does that does not bring the word back. -/
def decidePrimedTriggerAction (isCommitTrigger : Bool) (triggerChar : WChar) :
    PrimedTriggerAction :=
  if !isCommitTrigger then .idle
  else if triggerChar = L ' ' then .reEnterReady
  else if L ' ' < triggerChar then .cancel
  else .idle

/-! ## Keys that bring a word back -/

/-- The actions that change the word before the caret. -/
def isCommitUndoExemptAction (action : TypingAction) : Bool :=
  action.isToneAction || action.isTelexModifierAction || action.isVniModifierAction ||
    action == .hornOrInsertU || action == .hornOrInsertUNoStart || action == .undoAllMarks

/-- The keys that change the word before the caret. -/
def isCommitUndoExemptKey (vkCode : Nat) (method : InputMethod)
    (shiftHeld escIsCancelTrigger isCustomModifier : Bool) : Bool :=
  let isTelexModifierLetter :=
    (method == .telex || method == .simpleTelex || method == .combined) &&
      [L 'S', L 'F', L 'R', L 'X', L 'J', L 'Z', L 'A', L 'E', L 'O', L 'W', L 'D'].contains vkCode
  let isVniModifierDigit :=
    (method == .vni || method == .combined) && isDigitVk vkCode && !shiftHeld
  let isUserDefinedModifier := method == .userDefined && isCustomModifier
  let isEscRestoreRawKey := vkCode == vkEscape && escIsCancelTrigger
  isTelexModifierLetter || isVniModifierDigit || isUserDefinedModifier || isEscRestoreRawKey

/-! ## Words that begin with a digit -/

inductive DigitLedDecision where
  | continue
  | arm
  | bypass
  | reset
  | resetAndContinue
  deriving DecidableEq, Repr

/-- The keys that end a word that begins with a digit. -/
def isDigitLedBoundary (vkCode : Nat) : Bool :=
  vkCode == vkSpace || vkCode == vkReturn || vkCode == vkTab || vkCode == vkEscape ||
    vkCode == vkBack || vkCode == vkDelete || isCaretNavigationKey vkCode

/-- Decide what the rule of words that begin with a digit does with a key. -/
def decideDigitLed (vkCode : Nat) (shift engineEmpty : Bool) (method : InputMethod)
    (currentlyArmed : Bool) : DigitLedDecision :=
  if currentlyArmed then
    if !engineEmpty then .resetAndContinue
    else if isDigitLedBoundary vkCode then .reset
    else .bypass
  else if shift || !engineEmpty || !isDigitVk vkCode then .continue
  else if method = .vni ∨ method = .combined ∨ method = .userDefined then .arm
  else .continue

/-! ## Bound keys -/

/-- The actions that make a letter of their own. -/
def isInsertTypeAction (action : TypingAction) : Bool :=
  [.hornInsertO, .hornInsertU, .hornOrInsertU, .hornW, .insertABreve, .insertABreveUpper,
    .insertACircumflex, .insertACircumflexUpper, .insertDStroke, .insertDStrokeUpper,
    .insertECircumflex, .insertECircumflexUpper, .insertOCircumflex, .insertOCircumflexUpper,
    .insertOHorn, .insertOHornUpper, .insertUHorn, .insertUHornUpper].contains action

/-- The character and the case of a bracket key. -/
def resolveBracketKey (base : WChar) (shift capsLock : Bool) : WChar × Bool :=
  let canonical := canonicalBracketKey base
  let physical :=
    if shift ∧ canonical = L '[' then 0x7B
    else if shift ∧ canonical = L ']' then 0x7D
    else canonical
  (physical, shift != capsLock)

end HookEngine

end VKey
