import VKey.Tsf.CompositionRuns

/-!
# The text that is spared

A text service writes at the caret and takes back a word that ends there.  Whatever the host
refuses, the text up to a character that is no letter of a Vietnamese word stays as it is, and so
does the text behind the selection.  Only Escape may take back more: the word that was committed
last, whatever it is made of.
-/

namespace VKey

open HookEngine

namespace TextService

/-! ## Texts that do not end inside a word -/

/-- What a text ends with is no letter of a Vietnamese word. -/
def EndsOutside (text : List WChar) : Prop := ∀ c ∈ text.getLast?, decomposeVietChar c = none

instance (text : List WChar) : Decidable (EndsOutside text) :=
  inferInstanceAs (Decidable (∀ c ∈ text.getLast?, decomposeVietChar c = none))

section Words

variable {text front word : List WChar}

/-- A text that does not end inside a word reaches no further than to the beginning of the word. -/
theorem EndsOutside.prefix_rdrop (htext : EndsOutside text) (hfront : text <+: front)
    (hword : word <:+ front) (hletters : ∀ c ∈ word, (decomposeVietChar c).isSome = true) :
    text <+: front.rdrop word.length := by
  obtain ⟨rest, rfl⟩ := hword
  have hrest : (rest ++ word).rdrop word.length = rest := by simp [List.rdrop]
  rw [hrest]
  rcases List.prefix_or_prefix_of_prefix hfront
    (List.prefix_append rest word) with hprefix | ⟨tail, rfl⟩
  · exact hprefix
  · -- the text reaches into the word, and would end with one of its letters
    have htail : tail <+: word := (List.prefix_append_right_inj rest).mp hfront
    rcases List.eq_nil_or_concat tail with rfl | ⟨front, last, rfl⟩
    · rw [List.append_nil]
    · have hlast : last ∈ word := htail.subset (by simp)
      have hnone : decomposeVietChar last = none := htext last (by simp)
      exact absurd (hletters last hlast) (by simp [hnone])

theorem wordBefore_suffix (maxChars : Nat) (d : Document) : d.wordBefore maxChars <:+ d.front :=
  List.IsSuffix.trans (List.rtakeWhile_suffix _ _) (List.drop_suffix _ _)

theorem EndsOutside.prefix_wordBefore (htext : EndsOutside text) (maxChars : Nat) {d : Document}
    (hfront : text <+: d.front) : text <+: d.front.rdrop (d.wordBefore maxChars).length :=
  htext.prefix_rdrop hfront (wordBefore_suffix maxChars d) fun _ hc =>
    List.mem_rtakeWhile_imp (p := fun c => (decomposeVietChar c).isSome) hc

end Words

/-! ## Sparing a text -/

variable {E : Type}

/-- A text before the caret and the rest of the document are there. -/
structure Spared (text rest : List WChar) (s : TextService E) : Prop where
  before : text <+: s.document.before
  after : rest <:+ s.document.after

section Spared

variable {text rest : List WChar} {s s' : TextService E}

theorem Spared.front (h : s.Spared text rest) : text <+: s.document.front :=
  h.before.trans (List.prefix_append _ _)

theorem Spared.of_touches (h : s.Spared text rest) (htouches : s.Touches s') :
    s'.Spared text rest where
  before := h.before.trans htouches.before
  after := by
    rcases htouches.after with hback | hafter
    · rw [hback]
      exact h.after.trans (List.suffix_append _ _)
    · rw [hafter]
      exact h.after

theorem before_endComposition (s : TextService E) :
    s.endComposition.document.before = s.document.front := by
  cases hcomposing : s.isComposing with
  | true => simp [endComposition, hcomposing, Document.endComposition]
  | false =>
      rw [endComposition_of_not hcomposing, Document.front,
        isComposing_eq_false.mp hcomposing, Option.getD_none, List.append_nil]

theorem Spared.reopened (h : s.Spared text rest) (word : List WChar) (units : Nat) (engine : E)
    (hunits : text <+: s.document.front.rdrop units) :
    (s.reopened word units engine).Spared text rest where
  before := by
    rw [TextService.reopened]
    dsimp only [Document.composeOver]
    rw [before_endComposition]
    exact hunits
  after := (h.of_touches s.touches_endComposition).after

variable [InputEngine E] (answers : SessionAnswers) (word rawInput : List WChar)

theorem Spared.reviveCompositionEditSession (h : s.Spared text rest) {units : Nat}
    (hunits : text <+: s.document.front.rdrop units) :
    (s.reviveCompositionEditSession answers word rawInput units).Spared text rest := by
  rcases s.reviveCompositionEditSession_cases answers word rawInput units with
    hsame | ⟨-, hengine⟩ | ⟨-, -, -, hreopened⟩ | ⟨-, -, -, hedited⟩
  · rw [hsame]
    exact h
  · rw [hengine]
    exact h.of_touches (s.touches_engine _)
  · rw [hreopened]
    exact (h.reopened word units _ hunits).of_touches (touches_showRevived _ _)
  · have hended := h.of_touches s.touches_endComposition
    have hshortened : text <+: s.endComposition.document.before.rdrop units := by
      rw [before_endComposition]
      exact hunits
    rw [hedited]
    cases answers.writes with
    | true => exact ⟨hshortened.trans (List.prefix_append _ _), hended.after⟩
    | false => exact ⟨hended.before, hended.after⟩

theorem Spared.reviveAndTypeEditSession (h : s.Spared text rest) (ch : WChar) (uppercase : Bool)
    (hword : text <+: s.document.front.rdrop word.length) :
    (s.reviveAndTypeEditSession answers word rawInput ch uppercase).1.Spared text rest := by
  rcases s.reviveAndTypeEditSession_cases answers word rawInput ch uppercase with
    hsame | hengine | hended | ⟨-, -, -, hreopened⟩
  · rw [hsame]
    exact h
  · rw [hengine]
    exact h.of_touches (s.touches_engine _)
  · rw [hended]
    exact h.of_touches (s.touches_endComposition.trans (touches_engine _ _))
  · rw [hreopened]
    exact (h.reopened word word.length _ hword).of_touches (touches_showRevived _ _)

end Spared

/-! ## Runs -/

section Runs

variable [InputEngine E] [WideCType] (settings : Settings E) {text rest : List WChar}

/-- An event that is not meant to change a text and the rest of the document: no Escape that gives
back a committed word, and no edit of the host there. -/
def Event.Spares (text rest : List WChar) : Event → Prop
  | .act (.escape _) _ => settings.escRestoreRaw = false
  | .act _ _ => True
  | .edited before _ after => text <+: before ∧ rest <:+ after
  | .terminated => True

omit [WideCType] in
theorem prefix_inspectedWord (htext : EndsOutside text) (answers : Answers) {s : TextService E}
    (h : s.Spared text rest) :
    text <+: s.document.front.rdrop (inspectedWord settings answers s).length := by
  unfold inspectedWord
  dsimp only
  split_ifs
  · simpa using h.front
  · exact htext.prefix_wordBefore 64 h.front
  · simpa using h.front

theorem Spared.handleLetter (htext : EndsOutside text) (answers : Answers) (ch : WChar)
    (uppercase isBracket : Bool) {s : TextService E} (h : s.Spared text rest) :
    (handleLetter settings answers ch uppercase isBracket s).Spared text rest := by
  have hword := prefix_inspectedWord settings htext answers h
  rcases handleLetter_cases settings answers ch uppercase isBracket s with
    hcase | ⟨-, hcase⟩ | ⟨ch, uppercase, hcase⟩ <;> rw [hcase]
  · exact h.of_touches (s.touches_pushEngineKey _ _ _)
  · exact h.reviveAndTypeEditSession _ _ _ _ _ hword
  · exact (h.reviveAndTypeEditSession _ _ _ _ _ hword).of_touches (touches_pushEngineKey _ _ _ _)

theorem Spared.act (htext : EndsOutside text) {action : Action} {answers : Answers}
    (hevent : (Event.act action answers).Spares settings text rest) {s : TextService E}
    (h : s.Spared text rest) : (act settings answers s action).Spared text rest := by
  cases action with
  | recoverDesync => exact h.of_touches (touches_recoverDesync _ s)
  | letter ch uppercase isBracket =>
        exact h.handleLetter settings htext answers ch uppercase isBracket
  | digit ch =>
      unfold TextService.act handleDigit
      split_ifs
      · exact h.of_touches (s.touches_pushEngineDigit _ _)
      · exact h
  | backspace =>
      change (handleBackspace settings answers s).Spared text rest
      rcases handleBackspace_cases settings answers s with ⟨-, hcase⟩ | ⟨-, hcase⟩ | ⟨-, hcase⟩ <;>
        rw [hcase]
      · exact h.of_touches (s.touches_processBackspace _)
      · exact h
      · exact h.reviveCompositionEditSession _ _ _ (htext.prefix_wordBefore 16 h.front)
  | commit => exact h.of_touches (s.touches_commit _)
  | commitWithChar ch => exact h.of_touches (s.touches_commitWithChar _ _)
  | escape within =>
      have hrecovered := h.of_touches (touches_recoverDesync answers.revive s)
      change (handleEscape settings answers.edit within (s.recoverDesync answers.revive)).Spared
        text rest
      rcases handleEscape_cases settings answers.edit within (s.recoverDesync answers.revive) with
        ⟨-, hcase⟩ | hcase | ⟨-, henabled, -⟩ | ⟨-, hcase⟩
      · rw [hcase]
        exact hrecovered.of_touches (touches_commitRawAndEnd _ _)
      · rw [hcase]
        exact hrecovered.of_touches (touches_endCompositionVerbatim _ _)
      · exact absurd (henabled.symm.trans hevent) Bool.false_ne_true.symm
      · rw [hcase]
        exact hrecovered.of_touches (touches_clearContext _)
  | clearContext => exact h.of_touches s.touches_clearContext
  | nonRestoreKey => exact h.of_touches s.touches_resetCommitUndo
  | undoReadyToPrimed =>
      unfold TextService.act transitionUndoReadyToPrimed
      split_ifs
      · exact ⟨h.before, h.after⟩
      · exact h

theorem Spared.next (htext : EndsOutside text) {event : Event}
    (hevent : event.Spares settings text rest)
    {s : TextService E} (h : s.Spared text rest) : (next settings s event).Spared text rest := by
  cases event with
  | act action answers => exact h.act settings htext hevent
  | edited before selected after => exact ⟨hevent.1, hevent.2⟩
  | terminated => exact h.of_touches s.touches_reset

/-- In every run, whatever the host has refused, a text before the caret that does not end inside a
word and the rest of the document stay as they are. -/
theorem spared_of_run (htext : EndsOutside text) {start s : TextService E}
    (hstart : start.Spared text rest)
    {events : List Event} (hevents : ∀ event ∈ events, event.Spares settings text rest)
    (hrun : Run (Step settings) start events s) : s.Spared text rest := by
  induction hrun with
  | nil => exact hstart
  | snoc _ hstep ih =>
      rw [hstep]
      exact (ih fun event hevent => hevents event (List.mem_append_left _ hevent)).next
        settings htext
        (hevents _ (by simp))

end Runs

/-- A letter is typed behind a comma and a `v`, and the host does not compose over the `v`. -/
theorem spared_of_run_comma :
    (next { tempEngine := TypingEngine.new {} }
      (initial (.new {}) { before := [L ',', L 'v'], after := [L 'x'] })
      (.act (.letter (L 'i') false false) { revive := { starts := false } })).Spared [L
        ','] [L 'x'] :=
  spared_of_run _ (by decide) ⟨⟨[L 'v'], rfl⟩, List.suffix_rfl⟩
    (by simp [Event.Spares]) (.single rfl)

end TextService

end VKey
