import VKey.Tsf.RevivedWords

/-!
# Runs of a text service

Whatever the host refuses, an engine that holds letters has a composition.  The two may lose each
other all the same: a text that was refused is not shown.  A key whose calls are all performed
brings them together.
-/

namespace VKey

open HookEngine

namespace TextService

variable {E : Type} [InputEngine E] (settings : Settings E)

/-! ## The engine has its composition -/

section Steady

variable (answers : Answers) {s : TextService E}

theorem steady_handleBackspace (h : s.Steady) : (handleBackspace settings answers s).Steady := by
  rcases handleBackspace_cases settings answers s with
    ⟨hbuffer, hcase⟩ | ⟨-, hcase⟩ | ⟨-, hcase⟩ <;> rw [hcase]
  · exact steady_processBackspace _ h hbuffer
  · exact h
  · exact steady_reviveCompositionEditSession _ _ _ _ h

theorem steady_handleDigit (ch : WChar) (h : s.Steady) : (s.handleDigit answers ch).Steady := by
  unfold handleDigit
  split_ifs with hbuffer
  · exact steady_pushEngineDigit _ _ h hbuffer
  · exact h

theorem steady_handleEscape (answers : SessionAnswers) (within : Bool) (h : s.Steady) :
    (handleEscape settings answers within s).Steady := by
  rcases handleEscape_cases settings answers within s with
    ⟨hraw, hcase⟩ | hcase | ⟨-, -, hcase | hcase⟩ | ⟨-, hcase⟩ <;> rw [hcase]
  · exact h.of_touches (s.touches_commitRawAndEnd _) (count_commitRawAndEnd _ _ hraw)
  · exact h.of_touches (s.touches_endCompositionVerbatim _) (count_endCompositionVerbatim _ _)
  · exact h.tryRestoreLastCommitRaw _ _
  · exact (h.tryRestoreLastCommitRaw _ _).clearContext
  · exact h.clearContext

variable [WideCType]

theorem steady_handleLetter (ch : WChar) (uppercase isBracket : Bool) (h : s.Steady) :
    (handleLetter settings answers ch uppercase isBracket s).Steady := by
  rcases handleLetter_cases settings answers ch uppercase isBracket s with
    hcase | ⟨-, hcase⟩ | ⟨ch, uppercase, hcase⟩ <;> rw [hcase]
  · exact steady_pushEngineKey _ _ _ h
  · exact steady_reviveAndTypeEditSession _ _ _ _ _ h
  · exact steady_pushEngineKey _ _ _ (steady_reviveAndTypeEditSession _ _ _ _ _ h)

theorem steady_act (action : Action) (h : s.Steady) : (act settings answers s action).Steady := by
  cases action with
  | recoverDesync => exact h.recoverDesync _
  | letter ch uppercase isBracket =>
      exact steady_handleLetter settings answers ch uppercase isBracket h
  | digit ch => exact steady_handleDigit answers ch h
  | backspace => exact steady_handleBackspace settings answers h
  | commit => exact h.of_touches (s.touches_commit _) (count_commit _ _)
  | commitWithChar ch =>
      exact h.of_touches (s.touches_commitWithChar _ _) (count_commitWithChar _ _ _)
  | escape within => exact steady_handleEscape settings _ within (h.recoverDesync _)
  | clearContext => exact h.clearContext
  | nonRestoreKey => exact h.resetCommitUndo
  | undoReadyToPrimed =>
      unfold act transitionUndoReadyToPrimed
      split_ifs
      · exact ⟨h.shown, h.empty⟩
      · exact h

theorem steady_next (event : Event) (h : s.Steady) : (next settings s event).Steady := by
  cases event with
  | act action answers => exact steady_act settings answers action h
  | edited before selected after => exact ⟨h.shown, h.empty⟩
  | terminated => exact h.of_touches s.touches_reset (count_engine_reset s)

end Steady

theorem steady_initial (engine : E) (document : Document) : (initial engine document).Steady :=
  .of_none rfl (count_reset _)

/-- In every run, whatever the host has refused, an engine that holds letters has a composition, and
the text of a composition is known. -/
theorem steady_of_run [WideCType] {engine : E} {document : Document}
    {events : List Event} {s : TextService E}
    (hrun : Run (Step settings) (initial engine document) events s) : s.Steady :=
  hrun.invariant (steady_initial engine document) fun _ event _ h hstep =>
    hstep ▸ steady_next settings event h

/-- The host composes a `v`, and refuses the text with the next letter. -/
theorem steady_of_run_refused :
    let settings : Settings TypingEngine := { tempEngine := .new {} }
    (next settings (next settings (initial (.new {}) {}) (.act (.letter (L 'v') false false) {}))
      (.act (.letter (L 'i') false false) { edit := { writes := false } })).Steady :=
  steady_of_run _ (.snoc (.snoc .nil rfl) rfl)

/-! ## Coming together again -/

/-- The composition shows what the engine composes, and there is one if the engine holds letters. -/
structure InStep (s : TextService E) : Prop where
  shows : ∀ text, s.document.composition = some text → text = InputEngine.peek s.engine
  empty : s.document.composition = none → InputEngine.count s.engine = 0

/-- There is a composition just where the engine holds letters. -/
def Level (s : TextService E) : Prop := s.isComposing = s.hasEngineBuffer

theorem InStep.of_none {s : TextService E} (hnone : s.document.composition = none)
    (hcount : InputEngine.count s.engine = 0) : s.InStep :=
  ⟨fun _ htext => by simp [hnone] at htext, fun _ => hcount⟩

theorem InStep.of_some {s : TextService E}
    (h : s.document.composition = some (InputEngine.peek s.engine)) : s.InStep :=
  ⟨fun _ htext => Option.some.inj (htext.symm.trans h), fun hnone => by simp [h] at hnone⟩

theorem Level.of_none {s : TextService E} (hnone : s.document.composition = none)
    (hcount : InputEngine.count s.engine = 0) : s.Level :=
  (isComposing_eq_false.mpr hnone).trans (hasEngineBuffer_eq_false.mpr hcount).symm

theorem Level.isComposing {s : TextService E} (h : s.Level) (hbuffer : s.hasEngineBuffer = true) :
    s.isComposing = true := h.trans hbuffer

theorem Level.composition {s : TextService E} (h : s.Level) (hidle : s.hasEngineBuffer = false) :
    s.document.composition = none := isComposing_eq_false.mp (h.trans hidle)

theorem Level.inStep {s : TextService E} (h : s.Level) (hidle : s.hasEngineBuffer = false) :
    s.InStep :=
  .of_none (h.composition hidle) (hasEngineBuffer_eq_false.mp hidle)

@[simp] theorem composition_resetEngine (s : TextService E) :
    s.resetEngine.document.composition = s.document.composition := rfl

@[simp] theorem composition_clearContext (s : TextService E) :
    s.clearContext.document.composition = s.document.composition := rfl

/-! The host performs every call. -/

omit [InputEngine E] in
@[simp] theorem composition_commitEditSession (text : List WChar) (s : TextService E) :
    (s.commitEditSession {} text).document.composition = none := by
  unfold commitEditSession
  cases hcomposing : s.isComposing with
  | false => simpa using isComposing_eq_false.mp hcomposing
  | true =>
      simp only [Bool.not_true, Bool.or_self, Bool.false_eq_true, if_false, if_true]
      split_ifs <;> exact composition_endComposition _

@[simp] theorem composition_commit (s : TextService E) :
    (s.commit {}).document.composition = none := by
  simp [commit]

@[simp] theorem composition_commitWithChar (ch : WChar) (s : TextService E) :
    (s.commitWithChar {} ch).document.composition = none := by
  simp [commitWithChar]

@[simp] theorem composition_commitRawAndEnd {s : TextService E}
    (h : (s.commitRawAndEnd {}).2 = true) :
    (s.commitRawAndEnd {}).1.document.composition = none := by
  rcases s.commitRawAndEnd_cases with hcase | hcase <;> rw [hcase] at h ⊢
  · exact absurd h Bool.false_ne_true
  · simp

@[simp] theorem composition_endCompositionVerbatim (s : TextService E) :
    (s.endCompositionVerbatim {}).document.composition = none := by
  simp [endCompositionVerbatim]

theorem level_recoverDesync (s : TextService E) : (s.recoverDesync {}).Level := by
  unfold recoverDesync
  cases hcomposing : s.isComposing <;> cases hbuffer : s.hasEngineBuffer
  · exact hcomposing.trans hbuffer.symm
  · exact .of_none (composition_reset s) (count_engine_reset s)
  · exact .of_none (composition_commit s) (count_commit _ s)
  · exact hcomposing.trans hbuffer.symm

/-! ### Typing -/

theorem inStep_updateCompositionEditSession {s : TextService E}
    (hcomposing : s.isComposing = true) :
    (s.updateCompositionEditSession {} (InputEngine.peek s.engine)).InStep := by
  refine .of_some ?_
  simp [updateCompositionEditSession, hcomposing, setCompositionText_of_writes _ hcomposing,
    Document.setText]

theorem inStep_pushEngineKey (ch : WChar) (uppercase : Bool) (s : TextService E) :
    (s.pushEngineKey {} ch uppercase).1.InStep := by
  unfold pushEngineKey
  extract_lets typed started
  cases hcomposing : typed.isComposing with
  | true => exact inStep_updateCompositionEditSession hcomposing
  | false =>
      by_cases hpeek : InputEngine.peek typed.engine = []
      · -- there is nothing to show, and the key is taken back
        have hstarted : started = typed := by
          simp [started, startCompositionEditSession, startComposition, hpeek]
        rw [hstarted, hcomposing, if_neg Bool.false_ne_true, if_neg Bool.false_ne_true]
        exact .of_none (isComposing_eq_false.mp hcomposing) (count_reset _)
      · have hstarted : started =
            typed.compose { typed.document with selected := [] }
              (InputEngine.peek typed.engine) := by
          simp [started, startCompositionEditSession, startComposition, hpeek,
            endComposition_of_not hcomposing]
        have hcomposed : started.isComposing = true := by
          rw [hstarted]
          rfl
        rw [if_neg Bool.false_ne_true, if_pos hcomposed, hstarted]
        exact .of_some rfl

theorem inStep_pushEngineDigit (ch : WChar) {s : TextService E} (h : s.Level)
    (hbuffer : s.hasEngineBuffer = true) : (s.pushEngineDigit {} ch).InStep := by
  have hcomposing :
    ({ s with engine := InputEngine.pushChar s.engine ch } : TextService E).isComposing = true :=
    h.isComposing hbuffer
  rw [pushEngineDigit, if_pos hcomposing]
  exact inStep_updateCompositionEditSession hcomposing

theorem inStep_processBackspace {s : TextService E} (h : s.Level)
    (hbuffer : s.hasEngineBuffer = true) :
    (s.processBackspace {}).InStep := by
  have hcomposing :
    ({ s with engine := InputEngine.backspace s.engine } : TextService E).isComposing = true :=
    h.isComposing hbuffer
  unfold processBackspace
  extract_lets shortened
  cases hleft : shortened.hasEngineBuffer with
  | true => exact inStep_updateCompositionEditSession hcomposing
  | false =>
      refine .of_none (composition_commitEditSession _ _) ?_
      rw [if_neg Bool.false_ne_true, engine_commitEditSession]
      exact hasEngineBuffer_eq_false.mp hleft

theorem inStep_showRevived {s : TextService E} (hcomposing : s.isComposing = true) :
    (s.showRevived {}).InStep := by
  have hshown : s.showRevived {} =
      if s.hasEngineBuffer then
        { s with
          document := s.document.setText (InputEngine.peek s.engine)
          currentText := InputEngine.peek s.engine }
      else ({ s with
          document := s.document.setText (InputEngine.peek s.engine)
          currentText := InputEngine.peek s.engine } : TextService E).endComposition := by
    simp [showRevived, setCompositionText_of_writes _ hcomposing, hasEngineBuffer]
  rw [hshown]
  cases hbuffer : s.hasEngineBuffer with
  | true => exact .of_some rfl
  | false =>
      rw [if_neg Bool.false_ne_true]
      refine .of_none (composition_endComposition _) ?_
      rw [engine_endComposition]
      exact hasEngineBuffer_eq_false.mp hbuffer

theorem inStep_reviveCompositionEditSession (word rawInput : List WChar)
    (units : Nat) {s : TextService E} (h : s.Level) (hidle : s.hasEngineBuffer = false) :
    (s.reviveCompositionEditSession {} word rawInput units).InStep := by
  rcases s.reviveCompositionEditSession_cases {} word rawInput units with
    hsame | ⟨hfailed, hengine⟩ | ⟨-, -, -, hreopened⟩ | ⟨-, -, hstarts, -⟩
  · rw [hsame]
    exact h.inStep hidle
  · rw [hengine]
    exact .of_none (h.composition hidle) (count_seedRevivedWord _ _ hfailed)
  · rw [hreopened]
    exact inStep_showRevived (isComposing_reopened _ _ _ _)
  · exact absurd hstarts.symm Bool.false_ne_true

theorem inStep_handleBackspace {s : TextService E} (h : s.Level) :
    (handleBackspace settings {} s).InStep := by
  rcases handleBackspace_cases settings {} s with
    ⟨hbuffer, hcase⟩ | ⟨hidle, hcase⟩ | ⟨hidle, hcase⟩ <;> rw [hcase]
  · exact inStep_processBackspace h hbuffer
  · exact h.inStep hidle
  · exact inStep_reviveCompositionEditSession _ _ _ h hidle

theorem inStep_handleLetter [WideCType] (ch : WChar) (uppercase isBracket : Bool)
    (s : TextService E) :
    (handleLetter settings {} ch uppercase isBracket s).InStep := by
  rcases handleLetter_cases settings {} ch uppercase isBracket s with
    hcase | ⟨hdone, hcase⟩ | ⟨ch, uppercase, hcase⟩ <;> rw [hcase]
  · exact inStep_pushEngineKey _ _ _
  · rcases s.reviveAndTypeEditSession_cases _ _ _ _ _ with
      hcase | hcase | hcase | ⟨-, -, -, hcase⟩ <;> rw [hcase] at hdone ⊢
    · exact absurd hdone Bool.false_ne_true
    · exact absurd hdone Bool.false_ne_true
    · exact absurd hdone Bool.false_ne_true
    · exact inStep_showRevived (isComposing_reopened _ _ _ _)
  · exact inStep_pushEngineKey _ _ _

theorem inStep_handleEscape (within : Bool) {s : TextService E} (h : s.Level) :
    (handleEscape settings {} within s).InStep := by
  have hrestored (hidle : s.hasEngineBuffer = false) :
      (s.tryRestoreLastCommitRaw {} within).1.document.composition = none ∧
        InputEngine.count (s.tryRestoreLastCommitRaw {} within).1.engine = 0 := by
    have hnone := h.composition hidle
    refine ⟨?_, by rw [engine_tryRestoreLastCommitRaw]; exact hasEngineBuffer_eq_false.mp hidle⟩
    rcases s.tryRestoreLastCommitRaw_cases {} within with
      hcase | hcase | ⟨-, -, hcase⟩ <;> rw [hcase]
    · exact hnone
    · exact (congrArg Document.composition (document_resetCommitUndo s)).trans hnone
    · exact (congrArg Document.composition (document_resetCommitUndo _)).trans hnone
  rcases handleEscape_cases settings {} within s with
    ⟨hraw, hcase⟩ | hcase | ⟨hidle, -, hcase | hcase⟩ | ⟨hidle, hcase⟩ <;> rw [hcase]
  · exact .of_none (composition_commitRawAndEnd hraw) (count_commitRawAndEnd _ _ hraw)
  · exact .of_none (composition_endCompositionVerbatim s) (count_endCompositionVerbatim _ s)
  · exact .of_none (hrestored hidle).1 (hrestored hidle).2
  · exact .of_none (hrestored hidle).1 (count_clearContext_of_count (hrestored hidle).2)
  · exact .of_none (h.composition hidle)
      (count_clearContext_of_count (hasEngineBuffer_eq_false.mp hidle))

/-- The calls that type, shorten, revive or end a word. -/
def Action.edits : Action → Bool
  | .recoverDesync | .clearContext | .nonRestoreKey | .undoReadyToPrimed => false
  | _ => true

/-- A call that edits, all of whose own calls are performed, shows what the engine composes. -/
theorem inStep_act [WideCType] {action : Action} (hedits : action.edits = true) {s : TextService E}
    (h : s.Level) : (act settings {} s action).InStep := by
  cases action with
  | recoverDesync | clearContext | nonRestoreKey | undoReadyToPrimed =>
      exact absurd hedits Bool.false_ne_true
  | letter ch uppercase isBracket => exact inStep_handleLetter settings ch uppercase isBracket s
  | digit ch =>
      unfold act handleDigit
      split_ifs with hbuffer
      · exact inStep_pushEngineDigit ch h hbuffer
      · exact h.inStep (Bool.not_eq_true _ ▸ hbuffer)
  | backspace => exact inStep_handleBackspace settings h
  | commit => exact .of_none (composition_commit s) (count_commit _ s)
  | commitWithChar ch =>
      exact .of_none (composition_commitWithChar ch s) (count_commitWithChar _ s ch)
  | escape within => exact inStep_handleEscape settings within (level_recoverDesync s)

/-- Whatever a host has refused before, a key whose calls it performs brings the composition and the
engine together: it begins with a recovery and goes on with a call that edits. -/
theorem inStep_of_recovery [WideCType] {start s : TextService E}
    {events : List Event} {action : Action} (hedits : action.edits = true)
    (hrun : Run (Step settings) start (events ++ [.act .recoverDesync {}, .act action {}]) s) :
    s.InStep := by
  obtain ⟨s', -, hkey⟩ := hrun.split
  obtain ⟨recovered, hrecovered, hlast⟩ := hkey.of_cons
  have hlevel : recovered.Level := hrecovered ▸ level_recoverDesync s'
  rw [hlast.step_of_singleton]
  exact inStep_act settings hedits hlevel

theorem exists_run [WideCType] (start : TextService E) (events : List Event) :
    ∃ s, Run (Step settings) start events s := by
  induction events generalizing start with
  | nil => exact ⟨start, .nil⟩
  | cons event events ih =>
      obtain ⟨s, hrun⟩ := ih (next settings start event)
      exact ⟨s, .cons rfl hrun⟩

/-- The host refuses the text with the second letter, and takes the one with the third. -/
theorem inStep_of_recovery_refused :
    let settings : Settings TypingEngine := { tempEngine := .new {} }
    let typed := [.act (.letter (L 'v') false false) {},
      .act (.letter (L 'i') false false) { edit := { writes := false } }]
    ∃ s, Run (Step settings) (initial (.new {}) {})
      (typed ++ [.act .recoverDesync {}, .act (.letter (L 't') false false) {}]) s ∧ s.InStep := by
  intro settings typed
  obtain ⟨s, hrun⟩ := exists_run settings (initial (.new {}) {})
    (typed ++ [.act .recoverDesync {}, .act (.letter (L 't') false false) {}])
  exact ⟨s, hrun, inStep_of_recovery settings rfl hrun⟩

end TextService

end VKey
