import VKey.Hook.Dispatch

/-!
# Typing sessions

A session is the hook with its host, and the text before the word it is typing.  The committed words
carry a mark as long as the hook has counted everything typed behind them; a session takes the mark
from all of them when a key leaves the hook with a gap it has not counted.
-/

namespace VKey

namespace HookEngine

namespace State

variable {E : Type} [InputEngine E] [WideCType] (config : Config)

/-! ## What a session watches -/

/-- The committed word that the state machine brings back. -/
def replayedAt (key : Key) (s : State E) : Option CommitEntry :=
  if s.commitState.state = .primed ∧ s.count = 0 then
    match s.primedAction config key with
    | .replayAlpha => s.commitState.stack.head?
    | .replayDigit => s.commitState.stack.head?
    | .replayBackspace => s.commitState.stack.head?
    | _ => none
  else none

/-- The committed word that the key brings back into the engine. -/
def replayedEntry (key : Key) (s : State E) : Option CommitEntry :=
  if isTopGuarded key.vkCode then none
  else ((s.beforeStages config key).beforeFsm key).replayedAt config key

/-- Before Backspace a word is brought back by its text, and before any other key by its keys. -/
def replayPreference (key : Key) : CommittedTextRestorePreference :=
  if key.vkCode = vkBack then .visibleText else .replayHistory

/-- The engine shows the word that the key brings back. -/
def isReplayShown (key : Key) (s : State E) : Bool :=
  (((s.beforeStages config key).beforeFsm key).replayCommittedChars (replayPreference key)).2

/-- The key has led from one state to another and has left a gap behind the committed words that is
not the counted one: commit-undo is idle behind a text that has changed, or behind a word that stood
where the next one begins; it is still primed behind a text that has changed; a word has been
started right behind a primed one; or the counter of spaces was full. -/
def losesGap (key : Key) (s s' : State E) : Bool :=
  let changed := s'.host.before != s.host.before
  let c := s.commitState
  let c' := s'.commitState
  (s'.count == 0 && c'.state == .idle && (changed || s.count != 0 || c.state == .primed)) ||
    (s'.count == 0 && c'.state == .primed && c.state != .ready && (changed || s.count != 0)) ||
    ((s.replayedEntry config key).isNone && c.state == .primed && s.count == 0 && s'.count != 0) ||
    (c.state == .ready && c'.state == .ready && decide (0xFF ≤ c.pendingTriggerCount) &&
      c'.pendingTriggerCount == c.pendingTriggerCount && changed)

end State

/-- The hook with its host, and the text before the word. -/
structure Session (E : Type) where
  hook : State E
  preceding : List WChar

namespace Session

variable {E : Type} [InputEngine E] [WideCType] (config : Config)

/-- A hook that has seen no key yet. -/
def start (engine : E) (host : CaretText WChar) : Session E where
  hook := { engine, host }
  preceding := host.before

/-- The text before the word that the key starts or goes on with: a word that has been brought back
stands at the end of the text. -/
def front (key : Key) (t : Session E) : List WChar :=
  match t.hook.replayedEntry config key with
  | some entry => t.hook.host.before.rdrop (onScreen config entry.text).length
  | none => t.preceding

/-- Take the marks from the committed words if the key has lost their gap. -/
def settle (key : Key) (s s' : State E) : State E :=
  if s.losesGap config key s' then { s' with commitState := s'.commitState.loseAnchors } else s'

/-- A key is pressed. -/
def press [AsciiCType] [WordBreaks] (key : Key) (t : Session E) : Session E :=
  let s' := t.hook.press config key
  { hook := settle config key t.hook s'
    preceding := if s'.count = 0 then s'.host.before else t.front config key }

/-- The step of a session. -/
def Step [AsciiCType] [WordBreaks] (t : Session E) (key : Key) (t' : Session E) : Prop :=
  t' = t.press config key

end Session

/-! ## The words behind the caret -/

namespace State

variable {E : Type} {config : Config}

/-- The committed words whose gap has been counted, as they stand on screen, each with the number of
units before it. -/
def segments (config : Config) (stack : List CommitEntry) : List (List WChar × Nat) :=
  (stack.takeWhile (·.anchored)).map fun entry =>
    (onScreen config entry.text, 1 + entry.extraLeadingTriggers)

@[simp] theorem segments_nil : segments config [] = [] := rfl

theorem segments_cons {entry : CommitEntry} (h : entry.anchored = true) (stack : List CommitEntry) :
    segments config (entry :: stack) =
      (onScreen config entry.text, 1 + entry.extraLeadingTriggers) :: segments config stack := by
  simp [segments, h]

/-- Without their marks the words are not laid out anywhere. -/
@[simp] theorem segments_loseAnchors (c : CommitState) :
    segments config c.loseAnchors.stack = [] := by
  cases hstack : c.stack <;> simp [segments, CommitState.loseAnchors, hstack]

theorem prefix_segments {kept stack : List CommitEntry} (h : kept <+: stack) :
    segments config kept <+: segments config stack := by
  obtain ⟨rest, rfl⟩ := h
  refine List.IsPrefix.map _ ?_
  rw [List.takeWhile_append]
  split_ifs
  · exact (List.takeWhile_prefix _).trans (List.prefix_append _ _)
  · exact List.prefix_rfl

/-- The gap behind the committed words, in front of the word or at the caret. -/
def gap [InputEngine E] (s : State E) : Nat :=
  if s.count ≠ 0 then 1 + s.commitState.leadingTriggersForCurrentWord
  else
    match s.commitState.state with
    | .ready => 1 + s.commitState.pendingTriggerCount
    | .primed => 0
    | .idle => 1 + s.commitState.leadingTriggersForCurrentWord

end State

/-- The hook is in step with the screen. -/
structure Session.InStep {E : Type} [InputEngine E] (config : Config) (t : Session E) : Prop where
  word : t.hook.Word config t.preceding
  ready : t.hook.commitState.state = .ready → t.hook.count = 0
  entries : State.EntriesFit config t.hook.commitState.stack
  layout : LaidOut t.preceding (State.segments config t.hook.commitState.stack) t.hook.gap

theorem Session.inStep_start {E : Type} [InputEngine E] {config : Config} {engine : E}
    (hcount : InputEngine.count engine = 0) (host : CaretText WChar) :
    (Session.start engine host).InStep config where
  word := ⟨fun hne => absurd hcount hne, fun hne => absurd hcount hne, fun _ => rfl, fun _ => rfl⟩
  ready := nofun
  entries _ := by simp [Session.start]
  layout := LaidOut.nil

end HookEngine

end VKey
