import VKey.Support.Run
import VKey.Text.Utf16

/-!
# The clipboard injector

The injector pastes: it saves the text of the clipboard, puts its own there, sends Ctrl+V, and gives
the text back when a timer fires.  Whose text is on the clipboard is told from the sequence number.
Other programs may write whenever the injector does not hold the clipboard; the calls that give the
text back succeed.
-/

namespace VKey.Output

/-- The clipboard and the variables of the injector. -/
structure ClipboardState where
  /-- The text of the clipboard; nothing if there is none. -/
  clipText : List Char16
  sequenceNumber : Nat
  /-- What a program other than VKey has put there last. -/
  foreignText : List Char16
  originalClipText : List Char16 := []
  hasOriginalClip : Bool := false
  /-- No timer is pending if this is zero. -/
  restoreTimerId : Nat := 0
  lastWrittenSeq : Nat := 0

namespace ClipboardState

/-- The clipboard before the first call; its sequence number is not zero. -/
def initial (text : List Char16) (changes : Nat) : ClipboardState where
  clipText := text
  sequenceNumber := changes + 1
  foreignText := text

/-- Another program writes. -/
def foreignWrite (s : ClipboardState) (text : List Char16) : ClipboardState :=
  { s with clipText := text, sequenceNumber := s.sequenceNumber + 1, foreignText := text }

def foreignWrites (s : ClipboardState) (texts : List (List Char16)) : ClipboardState :=
  texts.foldl foreignWrite s

def emptyClipboard (s : ClipboardState) : ClipboardState :=
  { s with clipText := [], sequenceNumber := s.sequenceNumber + 1 }

def setClipboardText (s : ClipboardState) (text : List Char16) : ClipboardState :=
  { s with clipText := text, sequenceNumber := s.sequenceNumber + 1 }

/-- `RestoreOriginalClipboardIfSeqMatches`; other programs may write until the clipboard is open. -/
def restoreOriginalClipboardIfSeqMatches (s : ClipboardState) (beforeOpen : List (List Char16))
    (ourSeq : Nat) : ClipboardState :=
  if s.sequenceNumber ≠ ourSeq then s
  else
    let s := s.foreignWrites beforeOpen
    if s.sequenceNumber ≠ ourSeq then s
    else
      let s := s.emptyClipboard
      if s.originalClipText.isEmpty then s else s.setClipboardText s.originalClipText

def forgetOriginal (s : ClipboardState) : ClipboardState :=
  { s with originalClipText := [], hasOriginalClip := false }

def restoreTimerProc (s : ClipboardState) (idEvent : Nat) (beforeOpen : List (List Char16)) :
    ClipboardState :=
  if idEvent ≠ s.restoreTimerId then s
  else
    let s := { s with restoreTimerId := 0 }
    if !s.hasOriginalClip then s
    else (s.restoreOriginalClipboardIfSeqMatches beforeOpen s.lastWrittenSeq).forgetOriginal

/-- A call of `Replace`: what other programs write between its steps, and what becomes of the
steps. -/
structure PasteCall where
  text : List Char16
  beforeCheck : List (List Char16) := []
  beforeSave : List (List Char16) := []
  beforeWrite : List (List Char16) := []
  beforeSample : List (List Char16) := []
  beforePaste : List (List Char16) := []
  beforeTimer : List (List Char16) := []
  beforeRestore : List (List Char16) := []
  saveOpens : Bool := true
  writeOpens : Bool := true
  allocates : Bool := true
  setsData : Bool := true
  excludesHistory : Bool := true
  /-- What `SetTimer` returns. -/
  timerId : Nat := 1

variable (s : ClipboardState) (call : PasteCall)

/-- The timer is cancelled, and the sequence number is about to be compared. -/
def beginPaste : ClipboardState := { s with restoreTimerId := 0 }.foreignWrites call.beforeCheck

/-- The text of the clipboard is to be saved. -/
def savesOriginal : Bool := !s.hasOriginalClip || s.sequenceNumber != s.lastWrittenSeq

/-- The comparison and the save. -/
def saveOriginal : ClipboardState :=
  if s.savesOriginal then
    let s := s.foreignWrites call.beforeSave
    { s with
        originalClipText := if call.saveOpens then s.clipText else [], hasOriginalClip := true }
  else s.foreignWrites call.beforeSave

/-- The clipboard is emptied and gets the text and the mark for the history. -/
def putText : ClipboardState :=
  let s := s.emptyClipboard
  let s := if call.allocates && call.setsData then s.setClipboardText call.text else s
  if call.excludesHistory then { s with sequenceNumber := s.sequenceNumber + 1 } else s

/-- The write; the sequence number is sampled after the clipboard is closed. -/
def writeText : ClipboardState :=
  if call.writeOpens then
    let s := (s.putText call).foreignWrites call.beforeSample
    { s with lastWrittenSeq := s.sequenceNumber }
  else s

/-- The timer is set, or the text is given back at once. -/
def scheduleRestore : ClipboardState :=
  if call.timerId = 0 ∧ s.hasOriginalClip = true then
    (({ s with restoreTimerId := call.timerId } :
      ClipboardState).restoreOriginalClipboardIfSeqMatches
      call.beforeRestore s.lastWrittenSeq).forgetOriginal
  else { s with restoreTimerId := call.timerId }

/-- The state in which Ctrl+V is sent. -/
def atPaste : ClipboardState :=
  ((((s.beginPaste call).saveOriginal call).foreignWrites call.beforeWrite).writeText
    call).foreignWrites
    call.beforePaste

/-- A replacement with a text; one without a text does not touch the clipboard. -/
def replace : ClipboardState :=
  if call.text.isEmpty then s
  else ((s.atPaste call).foreignWrites call.beforeTimer).scheduleRestore call

inductive Event where
  | replace (call : PasteCall)
  | timer (idEvent : Nat) (beforeOpen : List (List Char16))
  | foreign (text : List Char16)

def next (s : ClipboardState) : Event → ClipboardState
  | .replace call => s.replace call
  | .timer idEvent beforeOpen => s.restoreTimerProc idEvent beforeOpen
  | .foreign text => s.foreignWrite text

end ClipboardState

end VKey.Output
