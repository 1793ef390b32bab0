import VKey.Engine.Seed

/-!
# The input engine interface

The keyboard hook drives its engine through an interface.  The typing engine implements it; so does
an engine from a library, of which only what the interface documents is known.
-/

namespace VKey

/-- An input engine. -/
class InputEngine (E : Type) where
  pushChar : E → WChar → E
  pushKey : E → WChar → Bool → E
  backspace : E → E
  peek : E → List WChar
  commit : E → List WChar × E
  reset : E → E
  clearContext : E → E
  count : E → Nat
  hasActiveQuickConsonant : E → Bool
  seedFromText : E → List WChar → E × Bool
  peekRaw : E → List WChar
  shouldReplayCommittedKey : E → List WChar → WChar → Bool
  lastCommitWasCorrected : E → Bool
  peek_of_count : ∀ e, count e = 0 → peek e = []
  count_reset : ∀ e, count (reset e) = 0
  count_clearContext : ∀ e, count e = 0 → count (clearContext e) = 0

export InputEngine (peek_of_count count_reset count_clearContext)

attribute [simp] InputEngine.count_reset

instance [WideCType] : InputEngine TypingEngine where
  pushChar := TypingEngine.pushChar
  pushKey := TypingEngine.pushKey
  backspace := TypingEngine.backspace
  peek := TypingEngine.peek
  commit := TypingEngine.commit
  reset := TypingEngine.reset
  clearContext e := e
  count := TypingEngine.count
  hasActiveQuickConsonant e := e.qc.hasActive
  seedFromText := TypingEngine.seedFromText
  peekRaw e := e.escRawHistory
  shouldReplayCommittedKey _ _ _ := false
  lastCommitWasCorrected _ := false
  peek_of_count e h := by
    have hnil : e.states = [] := List.length_eq_zero_iff.mp h
    simp [TypingEngine.peek, hnil, composeAll]
  count_reset _ := rfl
  count_clearContext _ h := h

/-! ## Restoring a committed word -/

inductive CommittedTextRestoreResult where
  | failed
  | replayedHistory
  | seededVisibleText
  deriving DecidableEq, Repr

inductive CommittedTextRestorePreference where
  | replayHistory
  | visibleText
  deriving DecidableEq, Repr

section Restore

variable {E : Type} [InputEngine E]

/-- Seed the engine with a text, unless it shows another text afterwards. -/
def seedVisibleText (engine : E) (visibleText : List WChar) : E × Bool :=
  let seeded := InputEngine.seedFromText (InputEngine.reset engine) visibleText
  (seeded.1, seeded.2 && InputEngine.peek seeded.1 == visibleText)

/-- Bring a committed word back into the engine: by its keys, if they still show the word, and by
the text on screen otherwise.  A preference for the visible text tries it first. -/
def restoreCommittedText (engine : E) (visibleText : List WChar) (replay : E → E) :
    CommittedTextRestorePreference → CommittedTextRestoreResult × E
  | .visibleText =>
      let seeded := seedVisibleText engine visibleText
      if seeded.2 then (.seededVisibleText, seeded.1)
      else
        let replayed := replay (InputEngine.reset seeded.1)
        if InputEngine.peek replayed = visibleText then (.replayedHistory, replayed)
        else (.failed, InputEngine.reset replayed)
  | .replayHistory =>
      let replayed := replay (InputEngine.reset engine)
      if InputEngine.peek replayed = visibleText then (.replayedHistory, replayed)
      else
        let seeded := seedVisibleText replayed visibleText
        if seeded.2 then (.seededVisibleText, seeded.1)
        else (.failed, InputEngine.reset seeded.1)

theorem peek_seedVisibleText {engine : E} {visibleText : List WChar}
    (h : (seedVisibleText engine visibleText).2 = true) :
    InputEngine.peek (seedVisibleText engine visibleText).1 = visibleText := by
  simp only [seedVisibleText, Bool.and_eq_true, beq_iff_eq] at h
  exact h.2

/-- A restored engine shows the word. -/
theorem peek_restoreCommittedText {engine : E} {visibleText : List WChar} {replay : E → E}
    {preference : CommittedTextRestorePreference}
    (h : (restoreCommittedText engine visibleText replay preference).1 ≠ .failed) :
    InputEngine.peek (restoreCommittedText engine visibleText replay preference).2 =
      visibleText := by
  revert h
  cases preference with
  | visibleText =>
      simp only [restoreCommittedText]
      split_ifs with hseeded hreplayed
      · exact fun _ => peek_seedVisibleText hseeded
      · exact fun _ => hreplayed
      · exact fun h => absurd rfl h
  | replayHistory =>
      simp only [restoreCommittedText]
      split_ifs with hreplayed hseeded
      · exact fun _ => hreplayed
      · exact fun _ => peek_seedVisibleText hseeded
      · exact fun h => absurd rfl h

theorem count_restoreCommittedText {engine : E} {visibleText : List WChar} {replay : E → E}
    {preference : CommittedTextRestorePreference}
    (h : (restoreCommittedText engine visibleText replay preference).1 = .failed) :
    InputEngine.count (restoreCommittedText engine visibleText replay preference).2 = 0 := by
  revert h
  cases preference with
  | visibleText =>
      simp only [restoreCommittedText]
      split_ifs <;> simp
  | replayHistory =>
      simp only [restoreCommittedText]
      split_ifs <;> simp

end Restore

end VKey
