import VKey.Hook.AutoCaps
import VKey.Support.Run

/-!
# Compositions in a document

A text service composes a word in the document itself: it starts a composition at the caret or over
a word that is already there, gives it a new text with every key, and ends it when the word is
committed.  The host performs a call, or refuses it and leaves the document as it is.  Macros are
off.
-/

namespace VKey

open HookEngine (CommitUndoState isVerbatimCommitTrigger computeShouldAutoCap)

namespace TextService

/-! ## The document -/

/-- The text of a document.  The composition, if there is one, ends at the caret, and behind the
caret stands what is selected. -/
structure Document where
  before : List WChar := []
  composition : Option (List WChar) := none
  selected : List WChar := []
  after : List WChar := []
  deriving DecidableEq, Repr

namespace Document

/-- The text before the caret. -/
def front (d : Document) : List WChar := d.before ++ d.composition.getD []

/-- The text behind the caret. -/
def back (d : Document) : List WChar := d.selected ++ d.after

def endComposition (d : Document) : Document :=
  { d with before := d.front, composition := none }

/-- Replace the selection and put the caret behind the text. -/
def insertAtSelection (text : List WChar) (d : Document) : Document :=
  { d with before := d.before ++ text, selected := [] }

/-- Compose over the units before the caret. -/
def composeOver (units : Nat) (d : Document) : Document :=
  { d with before := d.before.rdrop units, composition := some (d.before.rtake units) }

/-- Give the composition a text and put the caret behind it. -/
def setText (text : List WChar) (d : Document) : Document :=
  { d with composition := some text, selected := [], after := d.back }

/-- Replace units before the caret together with the selection, and put the caret behind the
text. -/
def replaceBefore (units : Nat) (text : List WChar) (d : Document) : Document :=
  { d with before := d.before.rdrop units ++ text, selected := [] }

/-- The Vietnamese word that ends at the caret, as far as a number of units reaches. -/
def wordBefore (maxChars : Nat) (d : Document) : List WChar :=
  (d.front.rtake maxChars).rtakeWhile fun c => (decomposeVietChar c).isSome

end Document

/-- What the host does with the calls of one edit session. -/
structure SessionAnswers where
  /-- The session is given the lock. -/
  locks : Bool := true
  /-- The selection and the text before it can be read. -/
  reads : Bool := true
  inserts : Bool := true
  /-- A composition is started on the range. -/
  starts : Bool := true
  /-- The range of the composition takes a text. -/
  writes : Bool := true
  /-- The text of a composition that was not started is removed. -/
  rollsBack : Bool := true
  deriving DecidableEq, Repr

/-- What the host does with the calls that a key leads to: those that read, and the two sessions
that edit. -/
structure Answers where
  /-- The gates of the engine are open: it is on, in Vietnamese mode, and the context is not
  blocked. -/
  gates : Bool := true
  readsWord : Bool := true
  shiftsRange : Bool := true
  knowsStart : Bool := true
  revive : SessionAnswers := {}
  edit : SessionAnswers := {}
  deriving DecidableEq, Repr

/-- The word that was committed last. -/
structure LastCommit where
  text : List WChar := []
  rawInput : List WChar := []
  hasTrailingChar : Bool := false
  deriving DecidableEq, Repr

/-- The word without the character that committed it. -/
def LastCommit.body (last : LastCommit) : List WChar :=
  if last.hasTrailingChar then last.text.dropLast else last.text

end TextService

/-- A text service and the document that it serves. -/
structure TextService (E : Type) where
  engine : E
  document : TextService.Document := {}
  /-- The text that the composition was given last. -/
  currentText : List WChar := []
  digitLedWord : Bool := false
  commitUndoState : CommitUndoState := .idle
  lastCommit : TextService.LastCommit := {}

namespace TextService

variable {E : Type}

def isComposing (s : TextService E) : Bool := s.document.composition.isSome

/-! ## The composition manager -/

def endComposition (s : TextService E) : TextService E :=
  if s.isComposing then { s with document := s.document.endComposition, currentText := [] } else s

/-- The range is composed; its text is known. -/
def compose (document : Document) (text : List WChar) (s : TextService E) : TextService E :=
  { s with document := { document with composition := some text }, currentText := text }

/-- Insert a text and compose it.  The text is taken out again where the host does not compose
it. -/
def startComposition (answers : SessionAnswers) (initialText : List WChar) (s : TextService E) :
    TextService E :=
  if initialText = [] then s
  else
    let s := s.endComposition
    if !answers.inserts then s
    else if answers.starts then s.compose { s.document with selected := [] } initialText
    else if answers.rollsBack then { s with document := s.document.insertAtSelection [] }
    else { s with document := s.document.insertAtSelection initialText }

/-- Compose over a range of units that ends at the caret. -/
def startCompositionOnRange (answers : SessionAnswers) (units : Nat) (existingText : List WChar)
    (s : TextService E) : TextService E :=
  if existingText = [] then s
  else
    let s := s.endComposition
    if answers.starts then
      { s with document := s.document.composeOver units, currentText := existingText }
    else s

def setCompositionText (answers : SessionAnswers) (text : List WChar) (s : TextService E) :
    TextService E :=
  if s.isComposing && answers.writes then
    { s with document := s.document.setText text, currentText := text }
  else s

/-! ## Edit sessions -/

def startCompositionEditSession (answers : SessionAnswers) (text : List WChar) (s : TextService E) :
    TextService E :=
  if answers.locks then s.startComposition answers text else s

def updateCompositionEditSession (answers : SessionAnswers) (text : List WChar)
    (s : TextService E) :
    TextService E :=
  if !answers.locks then s
  else if s.isComposing then s.setCompositionText answers text
  else s.startComposition answers text

/-- Set the final text of the composition, unless it has it, and end the composition. -/
def commitEditSession (answers : SessionAnswers) (finalText : List WChar) (s : TextService E) :
    TextService E :=
  if !answers.locks || !s.isComposing then s
  else if s.currentText = finalText then s.endComposition
  else if answers.writes then (s.setCompositionText answers finalText).endComposition
  else s

/-! ## Commit-undo -/

def resetCommitUndo (s : TextService E) : TextService E :=
  if s.commitUndoState = .idle then s else { s with commitUndoState := .idle, lastCommit := {} }

def recordCommitSnapshot (text rawInput : List WChar) (hasTrailingChar : Bool) (s : TextService E) :
    TextService E :=
  if text = [] ∨ rawInput = [] then { s with commitUndoState := .idle, lastCommit := {} }
  else
    { s with
      lastCommit := { text, rawInput, hasTrailingChar }
      commitUndoState := if hasTrailingChar then .ready else .idle }

/-- The keys of a word, if it is the one that was committed last. -/
def matchingRawForCommittedWord (word : List WChar) (s : TextService E) : List WChar :=
  if word = [] ∨ s.lastCommit.text = [] ∨ s.lastCommit.rawInput = [] then []
  else if s.lastCommit.body = word then s.lastCommit.rawInput
  else []

def transitionUndoReadyToPrimed (s : TextService E) : TextService E :=
  if s.commitUndoState = .ready then { s with commitUndoState := .primed } else s

def onNonRestoreKey (s : TextService E) : TextService E := s.resetCommitUndo

/-- Replace a word before the caret, if it stands there, by its keys. -/
def escRestoreLastCommitSession (answers : SessionAnswers) (textToReplace rawInput : List WChar)
    (s : TextService E) : TextService E × Bool :=
  if !answers.locks || textToReplace.isEmpty || !answers.reads then (s, false)
  else if textToReplace.length ≤ s.document.before.length ∧
      s.document.before.rtake textToReplace.length = textToReplace ∧ answers.writes then
    ({ s with document := s.document.replaceBefore textToReplace.length rawInput }, true)
  else (s, false)

def tryRestoreLastCommitRaw (answers : SessionAnswers) (withinUndoWindow : Bool)
    (s : TextService E) :
    TextService E × Bool :=
  if s.commitUndoState ≠ .primed then (s, false)
  else if !withinUndoWindow || s.lastCommit.text.isEmpty || s.lastCommit.rawInput.isEmpty then
    (s.resetCommitUndo, false)
  else
    let restored := s.escRestoreLastCommitSession answers s.lastCommit.body s.lastCommit.rawInput
    (restored.1.resetCommitUndo, restored.2)

/-! ## Committing -/

variable [InputEngine E]

def hasEngineBuffer (s : TextService E) : Bool := decide (0 < InputEngine.count s.engine)

/-- The engine is reset behind an edit session, whatever has become of the session. -/
def resetEngine (s : TextService E) : TextService E :=
  { s with engine := InputEngine.reset s.engine, digitLedWord := false }

def clearContext (s : TextService E) : TextService E :=
  { s with engine := InputEngine.clearContext s.engine }

def commit (answers : SessionAnswers) (s : TextService E) : TextService E :=
  let rawSnapshot := InputEngine.peekRaw s.engine
  let committed := InputEngine.commit s.engine
  ({ s with engine := committed.2 }.commitEditSession answers
    committed.1).resetEngine.recordCommitSnapshot
    committed.1 rawSnapshot false

/-- What is committed before a character: the rendered text, where the character keeps a word as it
was typed and the engine has corrected it. -/
def committedBefore (appendChar : WChar) (engine : E) : List WChar :=
  let committed := InputEngine.commit engine
  if InputEngine.lastCommitWasCorrected committed.2 && isVerbatimCommitTrigger appendChar then
    InputEngine.peek engine
  else committed.1

def commitWithChar (answers : SessionAnswers) (appendChar : WChar) (s : TextService E) :
    TextService E :=
  let rawSnapshot := InputEngine.peekRaw s.engine
  let committed :=
    committedBefore appendChar s.engine ++ if appendChar ≠ 0 then [appendChar] else []
  ({ s with engine := (InputEngine.commit s.engine).2 }.commitEditSession answers
    committed).resetEngine.recordCommitSnapshot committed rawSnapshot (appendChar ≠ 0)

def commitRawAndEnd (answers : SessionAnswers) (s : TextService E) : TextService E × Bool :=
  let raw := InputEngine.peekRaw s.engine
  if raw = [] then (s, false) else
    ((s.commitEditSession answers raw).resetEngine.clearContext, true)

def endCompositionVerbatim (answers : SessionAnswers) (s : TextService E) : TextService E :=
  (s.commitEditSession answers (InputEngine.peek s.engine)).resetEngine.clearContext.resetCommitUndo

/-- The engine is reset and the composition is given up where it stands. -/
def reset (s : TextService E) : TextService E :=
  ({ s with engine := InputEngine.clearContext (InputEngine.reset s.engine), digitLedWord := false }
    : TextService E).endComposition

/-! ## Typing -/

/-- Show what the engine has composed, in the composition or in a new one. -/
def pushEngineKey (answers : SessionAnswers) (ch : WChar) (uppercase : Bool) (s : TextService E) :
    TextService E × Bool :=
  let s := { s with engine := InputEngine.pushKey s.engine ch uppercase }
  if s.isComposing then (s.updateCompositionEditSession answers (InputEngine.peek s.engine), true)
  else
    let s := s.startCompositionEditSession answers (InputEngine.peek s.engine)
    if s.isComposing then (s, true) else ({ s with engine := InputEngine.reset s.engine }, false)

def pushEngineDigit (answers : SessionAnswers) (ch : WChar) (s : TextService E) : TextService E :=
  let s := { s with engine := InputEngine.pushChar s.engine ch }
  if s.isComposing then s.updateCompositionEditSession answers (InputEngine.peek s.engine) else s

def processBackspace (answers : SessionAnswers) (s : TextService E) : TextService E :=
  let s := { s with engine := InputEngine.backspace s.engine }
  if s.hasEngineBuffer then s.updateCompositionEditSession answers (InputEngine.peek s.engine)
  else s.commitEditSession answers []

/-! ## Reviving a committed word -/

/-- Bring a word back into the engine, by its keys if they still show it. -/
def seedRevivedWord (word rawInput : List WChar) (engine : E) : CommittedTextRestoreResult × E :=
  restoreCommittedText engine word (fun e => rawInput.foldl InputEngine.pushChar e) .replayHistory

/-- Show what a revived engine composes, or end the composition where the host does not take it. -/
def showRevived (answers : SessionAnswers) (s : TextService E) : TextService E :=
  if answers.writes then
    let s := s.setCompositionText answers (InputEngine.peek s.engine)
    if s.hasEngineBuffer then s else s.endComposition
  else { s with engine := InputEngine.reset s.engine }.endComposition

/-- Revive a word and delete its last letter.  Where the host does not compose over its range, the
letter is deleted in the document. -/
def reviveCompositionEditSession (answers : SessionAnswers)
    (word rawInput : List WChar) (units : Nat) (s : TextService E) : TextService E :=
  if !answers.locks || word.isEmpty then s
  else
    let seeded := seedRevivedWord word rawInput s.engine
    let s := { s with engine := seeded.2 }
    if seeded.1 = .failed then s
    else
      let s := s.startCompositionOnRange answers units word
      let s := { s with engine := InputEngine.backspace s.engine }
      if answers.starts then s.showRevived answers
      else
        let document :=
          if answers.writes then s.document.replaceBefore units (InputEngine.peek s.engine)
          else s.document
        { s with document, engine := InputEngine.reset s.engine }

/-- Revive a word and type a key.  Nothing has been done where the session does not revive it. -/
def reviveAndTypeEditSession (answers : SessionAnswers) (word rawInput : List WChar) (ch : WChar)
    (uppercase : Bool) (s : TextService E) : TextService E × Bool :=
  if !answers.locks || word.isEmpty || ch == 0 then (s, false)
  else
    let seeded := seedRevivedWord word rawInput s.engine
    if seeded.1 = .failed then ({ s with engine := InputEngine.reset seeded.2 }, false)
    else if !answers.starts then
      ({ s with engine := InputEngine.reset seeded.2 }.startCompositionOnRange answers
        word.length word, false)
    else
      let s := { s with engine := seeded.2 }.startCompositionOnRange answers word.length word
      ({ s with engine := InputEngine.pushKey s.engine ch uppercase }.showRevived answers,
        answers.writes)

/-! ## Keys -/

/-- The settings of the engine and what is known of the application. -/
structure Settings (E : Type) where
  autoCaps : Bool := false
  escRestoreRaw : Bool := true
  isScintillaApp : Bool := false
  /-- A new engine, which tells whether a word can be seeded. -/
  tempEngine : E
  isEnglishWord : E → Bool := fun _ => false

section Keys

variable (settings : Settings E)

/-- Recover from an engine whose composition has gone, or a composition whose engine is empty. -/
def recoverDesync (answers : SessionAnswers) (s : TextService E) : TextService E :=
  if !s.isComposing && s.hasEngineBuffer then s.reset
  else if s.isComposing && !s.hasEngineBuffer then s.commit answers
  else s

/-- The word before the caret, if it is a Vietnamese one that Backspace may revive. -/
def prepareBackspaceRevive (answers : Answers) (s : TextService E) : Option (List WChar) :=
  if !answers.gates || s.hasEngineBuffer || settings.isScintillaApp || !answers.readsWord ||
      !answers.shiftsRange || !s.document.selected.isEmpty then none
  else
    let word := s.document.wordBefore 16
    let seeded := InputEngine.seedFromText settings.tempEngine word
    if word.isEmpty || !seeded.2 || settings.isEnglishWord seeded.1 then none else some word

/-- Backspace shortens the word, or revives the word before the caret, or is left to the host. -/
def handleBackspace (answers : Answers) (s : TextService E) : TextService E :=
  if s.hasEngineBuffer then s.processBackspace answers.edit
  else
    match prepareBackspaceRevive settings answers s with
    | some word =>
        s.reviveCompositionEditSession answers.revive word
          (s.matchingRawForCommittedWord word) word.length
    | none => s

/-- The word before the caret, if the engine can be seeded with it. -/
def inspectedWord (answers : Answers) (s : TextService E) : List WChar :=
  if !answers.readsWord || !answers.shiftsRange || !s.document.selected.isEmpty then []
  else
    let word := s.document.wordBefore 64
    if (InputEngine.seedFromText settings.tempEngine word).2 then word else []

/-- A sentence begins at the caret. -/
def shouldAutoCap (answers : Answers) (s : TextService E) : Bool :=
  if !answers.readsWord || !s.document.selected.isEmpty then false
  else if s.document.front.isEmpty then answers.knowsStart
  else computeShouldAutoCap (s.document.front.rtake 64)

/-- A letter or a bracket goes on with the word before the caret, where none is composed, or is
typed. -/
def handleLetter [WideCType] (answers : Answers) (ch : WChar) (uppercase isBracket : Bool)
    (s : TextService E) : TextService E :=
  if !s.hasEngineBuffer && !s.isComposing && !settings.isScintillaApp then
    let shouldAutoCap := shouldAutoCap answers s
    let word := inspectedWord settings answers s
    let (s, revived) :=
      s.reviveAndTypeEditSession answers.revive word
        (s.matchingRawForCommittedWord word) ch uppercase
    if revived then s
    else if settings.autoCaps && shouldAutoCap then
      (s.pushEngineKey answers.edit (if isBracket then ch else WideCType.towupper ch) true).1
    else (s.pushEngineKey answers.edit ch uppercase).1
  else (s.pushEngineKey answers.edit ch uppercase).1

def handleDigit (answers : Answers) (ch : WChar) (s : TextService E) : TextService E :=
  if s.hasEngineBuffer then s.pushEngineDigit answers.edit ch else s

/-- Escape gives back the keys of the word, or of the word before the caret, or ends the composition
as it is shown. -/
def handleEscape (answers : SessionAnswers) (withinUndoWindow : Bool) (s : TextService E) :
    TextService E :=
  let (s, restored) :=
    if !settings.escRestoreRaw then (s, false)
    else if s.hasEngineBuffer then s.commitRawAndEnd answers
    else if s.commitUndoState = .primed ∧ withinUndoWindow then
      s.tryRestoreLastCommitRaw answers withinUndoWindow
    else (s, false)
  if restored then s
  else if s.hasEngineBuffer then s.endCompositionVerbatim answers
  else s.clearContext

end Keys

/-! ## Runs -/

/-- What the key events call for. -/
inductive Action where
  | recoverDesync
  | letter (ch : WChar) (uppercase isBracket : Bool)
  | digit (ch : WChar)
  | backspace
  | commit
  | commitWithChar (ch : WChar)
  | escape (withinUndoWindow : Bool)
  | clearContext
  | nonRestoreKey
  | undoReadyToPrimed
  deriving DecidableEq, Repr

section Runs

variable [WideCType] (settings : Settings E)

def act (answers : Answers) (s : TextService E) : Action → TextService E
  | .recoverDesync => s.recoverDesync answers.edit
  | .letter ch uppercase isBracket => handleLetter settings answers ch uppercase isBracket s
  | .digit ch => s.handleDigit answers ch
  | .backspace => handleBackspace settings answers s
  | .commit => s.commit answers.edit
  | .commitWithChar ch => s.commitWithChar answers.edit ch
  -- a recovery comes before Escape, so that no word is given back beside a composition
  | .escape withinUndoWindow =>
      handleEscape settings answers.edit withinUndoWindow (s.recoverDesync answers.revive)
  | .clearContext => s.clearContext
  | .nonRestoreKey => s.onNonRestoreKey
  | .undoReadyToPrimed => s.transitionUndoReadyToPrimed

inductive Event where
  | act (action : Action) (answers : Answers)
  /-- The host or the user changes the text around the composition. -/
  | edited (before selected after : List WChar)
  /-- The host ends the composition, or the focus moves. -/
  | terminated

def next (s : TextService E) : Event → TextService E
  | .act action answers => act settings answers s action
  | .edited before selected after =>
      { s with document := { s.document with before, selected, after } }
  | .terminated => s.reset

def Step (s : TextService E) (event : Event) (s' : TextService E) : Prop :=
  s' = next settings s event

end Runs

/-- A text service that has seen no key yet. -/
def initial (engine : E) (document : Document) : TextService E where
  engine := InputEngine.reset engine
  document := { document with composition := none }

end TextService

end VKey
