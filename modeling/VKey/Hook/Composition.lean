import Mathlib.Algebra.Ring.Nat
import VKey.CodeTable.Converter
import VKey.Hook.CommitState
import VKey.Hook.InputEngine
import VKey.Macro.ContextMatch
import VKey.Macro.PrefixIndex

/-!
# The composition on screen

The hook shows the word of the engine by editing the text of the host: it remembers what is on
screen and replaces the part that has changed.  No synthetic event is ever pending, and the injector
delivers what it is given.
-/

namespace VKey

namespace HookEngine

/-! ## Configuration and state -/

/-- The mask of the modifiers of a key. -/
def Key.currentMods (key : Key) : Nat :=
  (computeModMask key.ctrl key.shift key.alt key.win).toNat

/-- What the key path reads from the configuration. -/
structure Config where
  typing : TypingConfig := {}
  currentCodeTable : CodeTable := .unicode
  /-- The key with these modifiers cancels the composition. -/
  cancelComposition : Nat → Nat → Bool := fun vkCode mods => vkCode == vkEscape && mods == 0
  /-- The key with these modifiers skips the next macro. -/
  skipMacro : Nat → Nat → Bool := fun _ _ => false
  macroEnabled : Bool := false
  macroTable : MacroTable := ⟨[], List.nodup_nil⟩
  mapper : CaseMapper := ⟨id, id, fun _ => rfl, fun _ => rfl⟩
  macroTriggerSpace : Bool := true
  macroTriggerEnter : Bool := true
  macroTriggerTab : Bool := true
  macroTriggerDir : Bool := true
  autoCapsMacro : Bool := false
  macroTitleCase : Bool := false
  macroUndoOnBackspace : Bool := false

/-- The macro keys that contain a space. -/
def Config.spaceMacroKeys (config : Config) : List (List WChar) :=
  (config.macroTable.entries.map Prod.fst).filter (·.contains (L ' '))

/-- What Backspace takes back right after an expansion. -/
structure MacroUndoState where
  shortcut : List WChar
  expansionLength : Nat
  hasTrailingTrigger : Bool

/-- The state of the hook, and the text of the host it types into. -/
structure State (E : Type) where
  engine : E
  host : CaretText WChar := {}
  previousComposition : List WChar := []
  previousEncodedWidths : List Nat := []
  commitState : CommitState := {}
  digitLedWord : Bool := false
  rawMacroBuffer : List WChar := []
  macroCrossCommit : Bool := false
  tempMacroOff : Bool := false
  wasFirstCharAutoCapped : Bool := false
  macroUndo : Option MacroUndoState := none

/-- What becomes of a key. -/
inductive KeyOutcome where
  | fallthrough
  | eat
  | pass
  deriving DecidableEq, Repr

namespace State

variable {E : Type} [InputEngine E] [WideCType] (config : Config)

/-- The number of characters in the engine. -/
def count (s : State E) : Nat := InputEngine.count s.engine

/-! ## Replacing what is on screen -/

/-- The width of a character on screen. -/
def encodedWidth (ch : WChar) : Nat :=
  (CodeTableConverter.convertChar ch config.currentCodeTable).units.length

/-- Cut a list of widths to a length, or fill it with zeros. -/
def resize (widths : List Nat) (n : Nat) : List Nat :=
  (widths ++ List.replicate (n - widths.length) 0).take n

/-- Replace the composition on screen.  With `reinject` the key reaches the host first. -/
def replaceComposition (newText : List WChar) (reinject : Option WChar) (s : State E) : State E :=
  let commonLen := commonLength s.previousComposition newText
  let added := newText.drop commonLen
  if config.currentCodeTable ≠ .unicode then
    { s with
      host := s.host.replace (s.previousEncodedWidths.drop commonLen).sum
        (added.flatMap fun ch => (CodeTableConverter.convertChar ch config.currentCodeTable).units)
      previousEncodedWidths := resize s.previousEncodedWidths commonLen ++
        added.map (encodedWidth config)
      previousComposition := newText }
  else
    let host := (reinject.map fun ch => s.host.insert [ch]).getD s.host
    { s with
      host := host.replace (s.previousComposition.length - commonLen) added
      previousComposition := newText }

/-- Delete the composition on screen. -/
def erasePrevious (s : State E) : State E :=
  if s.previousComposition.isEmpty then s
  else
    let bsCount :=
      if config.currentCodeTable ≠ .unicode then s.previousEncodedWidths.sum
      else s.previousComposition.length
    { s with
      host := s.host.eraseBefore bsCount, previousComposition := [], previousEncodedWidths := [] }

/-! ## Keys of the word -/

/-- Add a key to the history of the word. -/
def appendHistory (s : State E) (ch : WChar) : State E :=
  { s with commitState :=
      { s.commitState with inputHistory := s.commitState.inputHistory ++ [ch] } }

/-- The character that a letter key gives the engine. -/
def letter (key : Key) (s : State E) : WChar :=
  if key.capitalizes && s.count == 0 then towupper key.originalCh else key.originalCh

/-- A new word forgets what an old one has left behind. -/
def clearStale (s : State E) : State E :=
  if s.count = 0 ∧ s.previousComposition ≠ [] then
    { s with previousComposition := [], previousEncodedWidths := [] }
  else s

/-- The engine has appended the key to the word and changed nothing. -/
def isSimpleAppend (key : Key) (composition : List WChar) (s : State E) : Bool :=
  composition.length == s.previousComposition.length + 1 &&
    composition.getLast? == some key.originalCh && s.previousComposition.isPrefixOf composition

/-- A letter key is pushed to the engine. -/
def pushLetter (key : Key) (s : State E) : State E :=
  let ch := s.letter key
  let s :=
    if ch ≠ key.originalCh ∧ s.rawMacroBuffer.length = 1 then
      { s with wasFirstCharAutoCapped := true }
    else s
  let s := s.clearStale.appendHistory ch
  { s with engine := InputEngine.pushChar s.engine ch }

/-- A letter key: the engine takes it, and it is passed through if it changes nothing else. -/
def handleAlphaKey (key : Key) (s : State E) : State E × KeyOutcome :=
  let autoCapped := s.letter key != key.originalCh
  let s := s.pushLetter key
  let composition := InputEngine.peek s.engine
  let isSimpleAppend := s.isSimpleAppend key composition
  if !autoCapped && config.currentCodeTable == .unicode && !key.lockstep && !key.syncChannel &&
      isSimpleAppend then
    ({ s with previousComposition := composition }, .pass)
  else if key.gameReinject && !isSimpleAppend && !autoCapped &&
      config.currentCodeTable == .unicode && !key.syncChannel then
    (replaceComposition config composition (some key.originalCh)
      { s with previousComposition := s.previousComposition ++ [key.originalCh] }, .eat)
  else (s.replaceComposition config composition none, .eat)

/-- A digit key in the VNI methods. -/
def handleVniDigitKey (key : Key) (s : State E) : State E :=
  let s := s.appendHistory key.vkCode
  let s := { s with engine := InputEngine.pushChar s.engine key.vkCode }
  s.replaceComposition config (InputEngine.peek s.engine) none

/-- The engine takes a letter back. -/
def backspaced (s : State E) : State E :=
  { s.appendHistory kBackspaceMarker with engine := InputEngine.backspace s.engine }

/-- Show what a Backspace has left of the word.  Behind the last letter the undo window of the words
before it opens. -/
def showShortened (s : State E) : State E :=
  if 0 < s.count then s.replaceComposition config (InputEngine.peek s.engine) none
  else
    let s := s.erasePrevious config
    if s.commitState.stack ≠ [] then
      { s with commitState := s.commitState.setCommitUndoReady } else s

/-- Backspace in a word. -/
def handleBackspace (s : State E) : State E := s.backspaced.showShortened config

/-! ## The end of a word -/

/-- Forget the keys of a macro. -/
def clearMacroBuffer (s : State E) : State E :=
  { s with rawMacroBuffer := [], wasFirstCharAutoCapped := false, macroCrossCommit := false }

/-- Forget the word. -/
def clearWordState (s : State E) : State E :=
  let s := { s with
    engine := InputEngine.reset s.engine, previousComposition := [], previousEncodedWidths := []
    commitState := { s.commitState with inputHistory := [] } }
  { s.clearMacroBuffer with tempMacroOff := false, digitLedWord := false }

/-- Forget the word and the committed words. -/
def resetComposition (s : State E) : State E :=
  let s := { s with engine := InputEngine.clearContext s.engine }.clearWordState
  { s with commitState := s.commitState.cancel, macroUndo := none }

/-- The text of the word, as it stands after the commit.  A verbatim commit takes no correction. -/
def committedText (verbatim : Bool) (s : State E) : List WChar :=
  let committed := InputEngine.commit s.engine
  if InputEngine.lastCommitWasCorrected committed.2 && verbatim then InputEngine.peek s.engine
  else committed.1

/-- The committed text is not what stands on screen. -/
def isAutoRestored (verbatim : Bool) (s : State E) : Bool :=
  !s.previousComposition.isEmpty && s.committedText verbatim != s.previousComposition

/-- The engine commits the word, and its text replaces the text on screen if they differ. -/
def showCommitted (verbatim : Bool) (s : State E) : State E :=
  let left := { s with engine := (InputEngine.commit s.engine).2 }
  if s.isAutoRestored verbatim then
    left.replaceComposition config (s.committedText verbatim) none
  else left

/-- Push a stack entry for the committed word, unless it ends in a quick consonant or has no
keys. -/
def pushCommitted (wasQuickConsonant : Bool) (rawSnapshot text : List WChar)
    (s : State E) : State E :=
  let c := s.commitState
  if !wasQuickConsonant && !c.inputHistory.isEmpty then
    let entry : CommitEntry :=
      { history := c.inputHistory
        text
        rawInput := rawSnapshot
        widths := s.previousEncodedWidths
        extraLeadingTriggers := c.leadingTriggersForCurrentWord }
    { s with
        commitState :=
          { { c with leadingTriggersForCurrentWord := 0 }.pushEntry entry with
            pushedToStack := true } }
  else { s with commitState := { c with pushedToStack := false } }

/-- Commit the word: its text replaces the text on screen if they differ, and it goes to the stack.
True if the text on screen has been replaced. -/
def commitComposition (verbatim : Bool) (s : State E) : State E × Bool :=
  let shown := s.showCommitted config verbatim
  let pushed := shown.pushCommitted (InputEngine.hasActiveQuickConsonant s.engine)
    (InputEngine.peekRaw s.engine) shown.previousComposition
  (pushed.clearWordState, s.isAutoRestored verbatim)

end State

end HookEngine

end VKey
