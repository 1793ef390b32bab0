import VKey.Output.Injectors
import VKey.Support.SelectedText
import VKey.Text.Utf16

/-!
# Edit messages

`ReplaceUnicode` edits some windows by messages: the caret is asked for, the units in front of it
are selected, and the selection is replaced.  A message that times out is reported as failed, and
may be processed all the same.  A failed edit is tried again for a while and then sent as key
events.
-/

namespace VKey.Output

/-! ## Messages -/

/-- What becomes of a message that is sent with a timeout. -/
inductive Delivery where
  | processed
  /-- Reported as failed and not processed. -/
  | lost
  /-- Reported as failed and processed before the next call. -/
  | late
  deriving DecidableEq, Repr

/-- `SendMessageTimeoutW` returns something. -/
def Delivery.isReported : Delivery → Bool
  | processed => true
  | lost | late => false

/-- A window with a text control. -/
structure EditWindow where
  doc : SelectedText Char16
  redraw : Bool := true
  deriving DecidableEq

def sendMessageTimeout (delivery : Delivery) (process : EditWindow → EditWindow) (w : EditWindow) :
    Bool × EditWindow :=
  (delivery.isReported, if delivery = .lost then w else process w)

def wmSetRedraw (redraw : Bool) (w : EditWindow) : EditWindow := { w with redraw }

def emSetSel (first last : Nat) (w : EditWindow) : EditWindow :=
  { w with doc := w.doc.select first last }

def emReplaceSel (text : List Char16) (w : EditWindow) : EditWindow :=
  { w with doc := w.doc.replaceSelection text }

/-- What becomes of the messages of one attempt, and whether the time for retries is over when it
has failed. -/
structure Attempt where
  getSel : Delivery := .processed
  redrawOff : Delivery := .processed
  setSel : Delivery := .processed
  replaceSel : Delivery := .processed
  redrawOn : Delivery := .processed
  isDeadlinePassed : Bool := false

/-- Drawing is switched on again if it was switched off. -/
def restoreRedraw (redrawSuppressed : Bool) (attempt : Attempt) (w : EditWindow) : EditWindow :=
  if redrawSuppressed then (sendMessageTimeout attempt.redrawOn (wmSetRedraw true) w).2 else w

/-- The messages that `RichEditEmReplaceSelInjector::Replace` and `TryEditMessagePaste` send to a
window with a text control: whether the replacement is reported, and the window behind them. -/
def replaceByMessages (attempt : Attempt) (backspaceCount : UInt64)
    (text : List Char16) (w : EditWindow) :
    Bool × EditWindow :=
  if backspaceCount = 0 ∧ text = [] then (true, w)
  else if backspaceCount = 0 then sendMessageTimeout attempt.replaceSel (emReplaceSel text) w
  else if !attempt.getSel.isReported then (false, w)
  else if backspaceCount.toNat > w.doc.selectionEnd then (false, w)
  else
    let selectionEnd := w.doc.selectionEnd
    let (redrawSuppressed, w) := sendMessageTimeout attempt.redrawOff (wmSetRedraw false) w
    let (isSelected, w) :=
      sendMessageTimeout attempt.setSel
        (emSetSel (selectionEnd - backspaceCount.toNat) selectionEnd) w
    if !isSelected then (false, restoreRedraw redrawSuppressed attempt w)
    else
      let (replaceOk, w) := sendMessageTimeout attempt.replaceSel (emReplaceSel text) w
      (replaceOk, restoreRedraw redrawSuppressed attempt w)

/-- The injector in a window with a text control, without a key to pass on. -/
def RichEditEmReplaceSelInjector.replace := replaceByMessages

/-- The same messages from the dispatcher. -/
def tryEditMessagePaste (attempt : Attempt) (text : List Char16)
    (backspaceCount : UInt64) (w : EditWindow) :
    Bool × EditWindow :=
  replaceByMessages attempt backspaceCount text w

/-! ## Key events -/

/-- What a key event does to the document.  Modifiers are released before anything is deleted. -/
def applyInput (doc : SelectedText Char16) (event : Input) : SelectedText Char16 :=
  if event.keyup then doc
  else if event.unicode then doc.replaceSelection [UInt16.ofNat event.wScan]
  else if event.wVk = vkBack then doc.backspace
  else doc

/-- A desktop that takes every event. -/
structure EagerDesktop extends Desktop where
  accepts_eq : ∀ history events, accepts history events = events.length

def fallbackInjector : Win32SendInputInjector := { needsBaitCharPrefix := false }

/-- What `SendInput` is handed for the replacement in one batch. -/
def fallbackTrace (d : Desktop) (backspaceCount : UInt64) (text : List Char16) : Trace :=
  (fallbackInjector.replace d backspaceCount (text.map UInt16.toNat) 0 {}).2

/-- The document behind the events of the batch. -/
def sendInputFallback (d : Desktop) (backspaceCount : UInt64) (text : List Char16)
    (doc : SelectedText Char16) : SelectedText Char16 :=
  (delivered (fallbackTrace d backspaceCount text).actions).foldl applyInput doc

/-- The document behind the backspaces and the paste; without the clipboard the characters are
typed. -/
def clipboardFallback (isClipboardSet : Bool) (backspaceCount : UInt64) (text : List Char16)
    (doc : SelectedText Char16) : SelectedText Char16 :=
  let doc := SelectedText.backspace^[backspaceCount.toNat] doc
  if text = [] then doc
  else if isClipboardSet then doc.replaceSelection text
  else text.foldl (fun doc ch => doc.replaceSelection [ch]) doc

/-! ## The dispatcher -/

def kAsyncRenderMaxWaitMs : Nat := 30

/-- The attempts, from the one of the given number on, with the milliseconds that are left to
wait. -/
def retryLoop {σ : Type} (replace : Attempt → σ → Bool × σ) (attempts : Nat → Attempt) :
    Nat → Nat → σ → Bool × σ
  | remainingMs, i, w =>
      match replace (attempts i) w with
      | (true, w) => (true, w)
      | (false, w) =>
          match remainingMs with
          | 0 => (false, w)
          | remainingMs + 1 =>
              if (attempts i).isDeadlinePassed then (false, w)
              else retryLoop replace attempts remainingMs (i + 1) w

/-- The branches of `ReplaceUnicode` that edit by messages. -/
inductive EditBranch where
  /-- `IsSyncReplaceChannel`, without a key to pass on. -/
  | asyncRender
  /-- `useClipboardPaste_`. -/
  | clipboardPaste
  deriving DecidableEq

/-- What surrounds a call. -/
structure EditHost where
  desktop : EagerDesktop
  attempts : Nat → Attempt
  isClipboardSet : Bool := true

/-- The document behind a call in a window with a text control. -/
def replaceUnicode (host : EditHost) (branch : EditBranch) (backspaceCount : UInt64)
    (text : List Char16) (w : EditWindow) : SelectedText Char16 :=
  match branch with
  | .asyncRender =>
      match retryLoop
        (fun attempt => RichEditEmReplaceSelInjector.replace attempt backspaceCount text)
        host.attempts kAsyncRenderMaxWaitMs 0 w with
      | (true, w) => w.doc
      | (false, w) => sendInputFallback host.desktop.toDesktop backspaceCount text w.doc
  | .clipboardPaste =>
      match tryEditMessagePaste (host.attempts 0) text backspaceCount w with
      | (true, w) => w.doc
      | (false, w) => clipboardFallback host.isClipboardSet backspaceCount text w.doc

end VKey.Output
