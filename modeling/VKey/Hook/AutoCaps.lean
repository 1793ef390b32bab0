import VKey.Hook.KeyPath

/-!
# Capital letters at the start of a sentence

The hook cannot read the host: an automaton over the keys knows whether a sentence begins.  The text
service reads the text before the caret and looks for the end of a sentence or of a line from
behind.
-/

namespace VKey

namespace HookEngine

abbrev vk1 : Nat := 0x31
abbrev vkDecimal : Nat := 0x6E
abbrev vkOem2 : Nat := 0xBF

/-! ## The automaton over keys -/

inductive AutoCapState where
  | idle
  /-- Behind a full stop, a question mark or an exclamation mark. -/
  | afterPunct
  /-- Behind such a mark and a space, or behind a line break. -/
  | readyToCapitalize
  deriving DecidableEq, Repr

def computeAutoCapStateTransition (current : AutoCapState) (vkCode : Nat)
    (shift ctrl alt win : Bool) :
    AutoCapState :=
  if ctrl || alt || win then current
  else if vkCode = vkOemPeriod ∨ (vkCode = vkOem2 ∧ shift = true) ∨
      (vkCode = vk1 ∧ shift = true) then
    .afterPunct
  else if vkCode = vkSpace ∧ (current = .afterPunct ∨ current = .readyToCapitalize) then
    .readyToCapitalize
  else if vkCode = vkReturn then .readyToCapitalize
  else if isAlphaVk vkCode then if current = .readyToCapitalize then current else .idle
  else .idle

/-- The transition of a key. -/
def AutoCapState.move (current : AutoCapState) (key : Key) : AutoCapState :=
  computeAutoCapStateTransition current key.vkCode key.shift key.ctrl key.alt key.win

/-! ## The scan of the text -/

inductive CapTrigger where
  | none
  | docStart
  | lineStart
  | sentenceEnd
  deriving DecidableEq, Repr

/-- The marks that end a sentence. -/
def isSentenceMark (c : WChar) : Bool := c == L '.' || c == L '?' || c == L '!'

/-- Go through the text from its end. -/
def classifyBackwards (skippedWhitespace : Bool) : List WChar → CapTrigger
  | [] => .docStart
  | c :: rest =>
      if c = L ' ' ∨ c = L '\t' then classifyBackwards true rest
      else if c = L '\n' ∨ c = L '\r' then .lineStart
      else if isSentenceMark c && skippedWhitespace then .sentenceEnd
      else .none

def classifyCapTrigger (buf : List WChar) : CapTrigger := classifyBackwards false buf.reverse

def computeShouldAutoCap (buf : List WChar) : Bool := classifyCapTrigger buf != .none

/-! ## Keys on a US layout -/

/-- What the keys other than letters type, without Shift and with it. -/
def usLayout : List (Nat × WChar × WChar) :=
  [(vkSpace, L ' ', L ' '), (vkReturn, L '\n', L '\n'),
    (0x30, L '0', L ')'), (vk1, L '1', L '!'), (0x32, L '2', L '@'), (0x33, L '3', L '#'),
    (0x34, L '4', L '$'), (0x35, L '5', L '%'), (0x36, L '6', L '^'), (0x37, L '7', L '&'),
    (0x38, L '8', L '*'), (0x39, L '9', L '('),
    (vkOem1, L ';', L ':'), (vkOemPlus, L '=', L '+'), (vkOemComma, L ',', L '<'),
    (vkOemMinus, L '-', L '_'), (vkOemPeriod, L '.', L '>'), (vkOem2, L '/', L '?'),
    (vkOem3, 0x60, L '~'), (vkOem4, L '[', 0x7B), (0xDC, L '\\', L '|'), (vkOem6, L ']', 0x7D),
    (0xDE, 0x27, 0x22),
    (0x60, L '0', L '0'), (0x61, L '1', L '1'), (0x62, L '2', L '2'), (0x63, L '3', L '3'),
    (0x64, L '4', L '4'), (0x65, L '5', L '5'), (0x66, L '6', L '6'), (0x67, L '7', L '7'),
    (0x68, L '8', L '8'), (0x69, L '9', L '9'), (0x6A, L '*', L '*'), (0x6B, L '+', L '+'),
    (0x6D, L '-', L '-'), (vkDecimal, L '.', L '.'), (0x6F, L '/', L '/')]

/-- What a key other than a letter types. -/
def usUnit (vkCode : Nat) (shift : Bool) : Option WChar :=
  (usLayout.lookup vkCode).map fun units => if shift then units.2 else units.1

/-- A letter, a digit, a punctuation key, Space or Enter on a US layout, without Ctrl, Alt and
Win. -/
structure UsKey where
  key : Key
  plain : key.shortcut = false
  types : isAlphaVk key.vkCode = true ∨ usUnit key.vkCode key.shift = some key.typed

/-! ## The hook with its automaton -/

namespace State

variable {E : Type} [InputEngine E] [WideCType] [AsciiCType] [WordBreaks] (config : Config)

/-- The stages before the dispatch of a key. -/
def preEngine (key : Key) (s : State E) : State E × KeyOutcome :=
  let s := s.beforeStages config key
  if isTopGuarded key.vkCode then (s, .pass)
  else
    let undoStage := s.handleCommitUndoFsm config key
    if undoStage.2 ≠ .fallthrough then undoStage
    else
      let macroStage := undoStage.1.handleMacro config key
      if macroStage.2 ≠ .fallthrough then macroStage
      else
        let restoreStage := macroStage.1.tryEscRestore config key
        (restoreStage.1, if restoreStage.2 then .eat else .fallthrough)

/-- The key comes to `HandleAlphaKey` from the dispatch. -/
def reachesAlphaKey (key : Key) (s : State E) : Bool :=
  !key.shortcut && isAlphaVk key.vkCode &&
    match decideDigitLed key.vkCode key.shift (s.count == 0)
      config.typing.inputMethod s.digitLedWord with
    | .resetAndContinue => true
    | .continue => true
    | _ => false

end State

/-- The state of the hook, its automaton, and the text that the keys have typed. -/
structure CapsState (E : Type) where
  hook : State E
  autoCapState : AutoCapState := .idle
  text : List WChar := []

namespace CapsState

variable {E : Type} [InputEngine E] [WideCType] [AsciiCType] [WordBreaks] (config : Config)

/-- The key as the letter handler sees it: a letter leaves a pending capital pending. -/
def keyOf (key : Key) (s : CapsState E) : Key :=
  { key with capitalizes := s.autoCapState == .readyToCapitalize }

/-- No stage has consumed the key before the automaton sees it. -/
def reachesAutomaton (key : Key) (s : CapsState E) : Bool :=
  (s.hook.preEngine config (s.keyOf key)).2 == .fallthrough

/-- The automaton behind a key: the letter handler consumes a pending capital at the start of a
word. -/
def autoCapStep (key : Key) (s : CapsState E) : AutoCapState :=
  if s.reachesAutomaton config key then
    let moved := s.autoCapState.move key
    let before := (s.hook.preEngine config (s.keyOf key)).1
    if before.reachesAlphaKey config key && before.count == 0 && moved == .readyToCapitalize then
      .idle
    else moved
  else s.autoCapState

/-- A key is pressed. -/
def press (s : CapsState E) (us : UsKey) : CapsState E where
  hook := s.hook.press config (s.keyOf us.key)
  autoCapState := s.autoCapStep config us.key
  text := s.text ++ [us.key.unit]

/-- Before the first key. -/
def start (engine : E) : CapsState E := { hook := { engine := InputEngine.reset engine } }

end CapsState

end HookEngine

end VKey
