import VKey.Tsf.Composition

/-!
# What an edit keeps

Whatever the host refuses, an edit leaves the text before the composition and the text behind the
caret as they are, and the service knows the text of its composition.
-/

namespace VKey

open HookEngine

namespace TextService

variable {E : Type}

/-- The service knows the text of its composition. -/
def Shown (s : TextService E) : Prop :=
  ∀ text, s.document.composition = some text → s.currentText = text

/-- One state has come from another by edits at the caret and in the composition. -/
structure Touches (s s' : TextService E) : Prop where
  shown : s.Shown → s'.Shown
  before : s.document.before <+: s'.document.before
  back : s'.document.back = s.document.back ∨ s'.document.back = s.document.after
  after : s'.document.after = s.document.back ∨ s'.document.after = s.document.after

namespace Touches

theorem refl (s : TextService E) : s.Touches s := ⟨id, List.prefix_rfl, .inl rfl, .inr rfl⟩

theorem trans {s s' s'' : TextService E} (h : s.Touches s') (h' : s'.Touches s'') :
    s.Touches s'' where
  shown := h'.shown ∘ h.shown
  before := h.before.trans h'.before
  back := by
    rcases h'.back with hback | hback <;> rw [hback]
    · exact h.back
    · exact h.after
  after := by
    rcases h'.after with hafter | hafter <;> rw [hafter]
    · exact h.back
    · exact h.after

end Touches

/-! ## The composition manager -/

theorem isComposing_eq_false {s : TextService E} :
    s.isComposing = false ↔ s.document.composition = none :=
    Option.isSome_eq_false_iff.trans Option.isNone_iff_eq_none

theorem endComposition_of_not {s : TextService E} (h : s.isComposing = false) :
    s.endComposition = s := by
  simp [endComposition, h]

@[simp] theorem composition_endComposition (s : TextService E) :
    s.endComposition.document.composition = none := by
  cases h : s.isComposing with
  | true => simp [endComposition, h, Document.endComposition]
  | false => rw [endComposition_of_not h, isComposing_eq_false.mp h]

@[simp] theorem engine_endComposition (s : TextService E) : s.endComposition.engine = s.engine := by
  unfold endComposition
  split_ifs <;> rfl

theorem touches_endComposition (s : TextService E) : s.Touches s.endComposition := by
  cases h : s.isComposing with
  | false =>
      rw [endComposition_of_not h]
      exact .refl s
  | true =>
      simp only [endComposition, h, if_true]
      exact ⟨fun _ text htext => by simp [Document.endComposition] at htext,
        List.prefix_append _ _, .inl rfl, .inr rfl⟩

section Manager

variable (answers : SessionAnswers) (text : List WChar) (s : TextService E)

@[simp] theorem engine_startComposition : (s.startComposition answers text).engine = s.engine := by
  unfold startComposition
  split_ifs <;> simp [compose]

theorem touches_startComposition : s.Touches (s.startComposition answers text) := by
  unfold startComposition
  have hended := s.touches_endComposition
  split_ifs
  · exact .refl s
  · exact hended
  · refine hended.trans ⟨fun _ shown hshown => ?_, List.prefix_rfl, .inr rfl, .inr rfl⟩
    exact Option.some.inj hshown
  · refine hended.trans ⟨fun hshown => hshown, ?_, .inr rfl, .inr rfl⟩
    exact List.prefix_append _ _
  · refine hended.trans ⟨fun hshown => hshown, ?_, .inr rfl, .inr rfl⟩
    exact List.prefix_append _ _

@[simp] theorem engine_setCompositionText :
    (s.setCompositionText answers text).engine = s.engine := by
  unfold setCompositionText
  split_ifs <;> rfl

theorem setCompositionText_of_writes {answers : SessionAnswers} {s : TextService E}
    (hcomposing : s.isComposing = true) (hwrites : answers.writes = true) :
    s.setCompositionText answers text =
      { s with document := s.document.setText text, currentText := text } := by
  simp [setCompositionText, hcomposing, hwrites]

theorem touches_setCompositionText : s.Touches (s.setCompositionText answers text) := by
  unfold setCompositionText
  split_ifs
  · exact ⟨fun _ _ hshown => Option.some.inj hshown, List.prefix_rfl,
      .inl (List.nil_append _), .inl rfl⟩
  · exact .refl s

@[simp] theorem engine_startCompositionEditSession :
    (s.startCompositionEditSession answers text).engine = s.engine := by
  unfold startCompositionEditSession
  split_ifs <;> simp

theorem touches_startCompositionEditSession :
    s.Touches (s.startCompositionEditSession answers text) := by
  unfold startCompositionEditSession
  split_ifs
  · exact s.touches_startComposition answers text
  · exact .refl s

@[simp] theorem engine_updateCompositionEditSession :
    (s.updateCompositionEditSession answers text).engine = s.engine := by
  unfold updateCompositionEditSession
  split_ifs <;> simp

theorem touches_updateCompositionEditSession :
    s.Touches (s.updateCompositionEditSession answers text) := by
  unfold updateCompositionEditSession
  split_ifs
  · exact .refl s
  · exact s.touches_setCompositionText answers text
  · exact s.touches_startComposition answers text

@[simp] theorem engine_commitEditSession :
    (s.commitEditSession answers text).engine = s.engine := by
  unfold commitEditSession
  split_ifs <;> simp

theorem touches_commitEditSession : s.Touches (s.commitEditSession answers text) := by
  unfold commitEditSession
  split_ifs
  · exact .refl s
  · exact s.touches_endComposition
  · exact (s.touches_setCompositionText answers text).trans (touches_endComposition _)
  · exact .refl s

end Manager

/-- An update leaves a composition a composition. -/
theorem isComposing_updateCompositionEditSession (answers : SessionAnswers) (text : List WChar)
    {s : TextService E} (h : s.isComposing = true) :
    (s.updateCompositionEditSession answers text).isComposing = true := by
  unfold updateCompositionEditSession setCompositionText
  split_ifs
  · exact h
  · rfl
  · exact h

theorem touches_engine (s : TextService E) (engine : E) : s.Touches { s with engine } :=
  ⟨id, List.prefix_rfl, .inl rfl, .inr rfl⟩

/-! ## Commit-undo -/

theorem touches_resetCommitUndo (s : TextService E) : s.Touches s.resetCommitUndo := by
  unfold resetCommitUndo
  split_ifs <;> exact ⟨id, List.prefix_rfl, .inl rfl, .inr rfl⟩

@[simp] theorem engine_resetCommitUndo (s : TextService E) :
    s.resetCommitUndo.engine = s.engine := by
  unfold resetCommitUndo
  split_ifs <;> rfl

@[simp] theorem document_resetCommitUndo (s : TextService E) :
    s.resetCommitUndo.document = s.document := by
  unfold resetCommitUndo
  split_ifs <;> rfl

theorem touches_recordCommitSnapshot (text rawInput : List WChar) (trailing : Bool)
    (s : TextService E) :
    s.Touches (s.recordCommitSnapshot text rawInput trailing) := by
  unfold recordCommitSnapshot
  split_ifs <;> exact ⟨id, List.prefix_rfl, .inl rfl, .inr rfl⟩

@[simp] theorem engine_recordCommitSnapshot (text rawInput : List WChar) (trailing : Bool)
    (s : TextService E) : (s.recordCommitSnapshot text rawInput trailing).engine = s.engine := by
  unfold recordCommitSnapshot
  split_ifs <;> rfl

@[simp] theorem document_recordCommitSnapshot (text rawInput : List WChar) (trailing : Bool)
    (s : TextService E) :
    (s.recordCommitSnapshot text rawInput trailing).document = s.document := by
  unfold recordCommitSnapshot
  split_ifs <;> rfl

/-! ## The engine and its composition -/

variable [InputEngine E]

/-- An engine that holds letters has a composition, whose text the service knows. -/
structure Steady (s : TextService E) : Prop where
  shown : s.Shown
  empty : s.document.composition = none → InputEngine.count s.engine = 0

theorem hasEngineBuffer_eq_false {s : TextService E} :
    s.hasEngineBuffer = false ↔ InputEngine.count s.engine = 0 := by simp [hasEngineBuffer]

theorem Steady.isComposing {s : TextService E} (h : s.Steady) (hbuffer : s.hasEngineBuffer = true) :
    s.isComposing = true := by
  cases hcomposing : s.isComposing with
  | true => rfl
  | false =>
      rw [hasEngineBuffer_eq_false.mpr (h.empty (isComposing_eq_false.mp hcomposing))] at hbuffer
      exact absurd hbuffer Bool.false_ne_true

/-- Nothing is composed. -/
theorem Steady.of_none {s : TextService E} (hnone : s.document.composition = none)
    (hcount : InputEngine.count s.engine = 0) : s.Steady :=
  ⟨fun _ htext => absurd (htext.symm.trans hnone) (Option.some_ne_none _), fun _ => hcount⟩

/-- An edit behind which the engine is empty. -/
theorem Steady.of_touches {s s' : TextService E} (h : s.Steady) (htouches : s.Touches s')
    (hcount : InputEngine.count s'.engine = 0) : s'.Steady :=
  ⟨htouches.shown h.shown, fun _ => hcount⟩

section Commit

variable (answers : SessionAnswers) (s : TextService E)

theorem touches_resetEngine : s.Touches s.resetEngine :=
  ⟨id, List.prefix_rfl, .inl rfl, .inr rfl⟩

theorem touches_clearContext : s.Touches s.clearContext :=
  ⟨id, List.prefix_rfl, .inl rfl, .inr rfl⟩

theorem count_clearContext_of_count {s : TextService E} (h : InputEngine.count s.engine = 0) :
    InputEngine.count s.clearContext.engine = 0 := count_clearContext _ h

@[simp] theorem count_resetEngine : InputEngine.count s.resetEngine.engine = 0 := count_reset _

theorem touches_commit : s.Touches (s.commit answers) :=
  ((s.touches_engine _).trans (touches_commitEditSession _ _ _)).trans
    ((touches_resetEngine _).trans (touches_recordCommitSnapshot _ _ _ _))

@[simp] theorem count_commit : InputEngine.count (s.commit answers).engine = 0 := by simp [commit]

theorem touches_commitWithChar (ch : WChar) : s.Touches (s.commitWithChar answers ch) :=
  ((s.touches_engine _).trans (touches_commitEditSession _ _ _)).trans
    ((touches_resetEngine _).trans (touches_recordCommitSnapshot _ _ _ _))

@[simp] theorem count_commitWithChar (ch : WChar) :
    InputEngine.count (s.commitWithChar answers ch).engine = 0 := by simp [commitWithChar]

/-- The keys of the word are committed, if the engine has any. -/
theorem commitRawAndEnd_cases {answers : SessionAnswers} {s : TextService E} :
    s.commitRawAndEnd answers = (s, false) ∨
      s.commitRawAndEnd answers =
        ((s.commitEditSession answers (InputEngine.peekRaw s.engine)).resetEngine.clearContext,
          true) := by
  by_cases hraw : InputEngine.peekRaw s.engine = []
  · exact .inl (if_pos hraw)
  · exact .inr (if_neg hraw)

theorem touches_commitRawAndEnd : s.Touches (s.commitRawAndEnd answers).1 := by
  rcases s.commitRawAndEnd_cases with h | h <;> rw [h]
  · exact .refl s
  · exact (s.touches_commitEditSession _ _).trans
      ((touches_resetEngine _).trans (touches_clearContext _))

theorem count_commitRawAndEnd (h : (s.commitRawAndEnd answers).2 = true) :
    InputEngine.count (s.commitRawAndEnd answers).1.engine = 0 := by
  rcases s.commitRawAndEnd_cases with hcase | hcase <;> rw [hcase] at h ⊢
  · exact absurd h Bool.false_ne_true
  · exact count_clearContext_of_count (count_resetEngine _)

theorem commitRawAndEnd_of_false {answers : SessionAnswers} {s : TextService E}
    (h : (s.commitRawAndEnd answers).2 = false) : (s.commitRawAndEnd answers).1 = s := by
  rcases s.commitRawAndEnd_cases with hcase | hcase <;> rw [hcase] at h ⊢
  exact absurd h.symm Bool.false_ne_true

theorem touches_endCompositionVerbatim : s.Touches (s.endCompositionVerbatim answers) :=
  ((s.touches_commitEditSession _ _).trans
    ((touches_resetEngine _).trans (touches_clearContext _))).trans
    (touches_resetCommitUndo _)

@[simp] theorem count_endCompositionVerbatim :
    InputEngine.count (s.endCompositionVerbatim answers).engine = 0 := by
  rw [endCompositionVerbatim, engine_resetCommitUndo]
  exact count_clearContext_of_count (count_resetEngine _)

theorem touches_reset : s.Touches s.reset := by
  have hengine : s.Touches
      { s with
          engine := InputEngine.clearContext (InputEngine.reset s.engine)
          digitLedWord := false } :=
    ⟨id, List.prefix_rfl, .inl rfl, .inr rfl⟩
  exact hengine.trans (touches_endComposition _)

@[simp] theorem count_engine_reset : InputEngine.count s.reset.engine = 0 := by
  rw [reset, engine_endComposition]
  exact count_clearContext _ (count_reset _)

@[simp] theorem composition_reset : s.reset.document.composition = none :=
  composition_endComposition _

/-! ## Typing -/

theorem touches_pushEngineKey (ch : WChar) (uppercase : Bool) :
    s.Touches (s.pushEngineKey answers ch uppercase).1 := by
  unfold pushEngineKey
  dsimp only
  split_ifs
  · exact (s.touches_engine _).trans (touches_updateCompositionEditSession _ _ _)
  · exact (s.touches_engine _).trans (touches_startCompositionEditSession _ _ _)
  · exact ((s.touches_engine _).trans (touches_startCompositionEditSession _ _ _)).trans
      (touches_engine _ _)

theorem touches_pushEngineDigit (ch : WChar) : s.Touches (s.pushEngineDigit answers ch) := by
  unfold pushEngineDigit
  dsimp only
  split_ifs
  · exact (s.touches_engine _).trans (touches_updateCompositionEditSession _ _ _)
  · exact s.touches_engine _

theorem touches_processBackspace : s.Touches (s.processBackspace answers) := by
  unfold processBackspace
  dsimp only
  split_ifs
  · exact (s.touches_engine _).trans (touches_updateCompositionEditSession _ _ _)
  · exact (s.touches_engine _).trans (touches_commitEditSession _ _ _)

end Commit

theorem steady_pushEngineKey (answers : SessionAnswers) (ch : WChar)
    (uppercase : Bool) {s : TextService E}
    (h : s.Steady) : (s.pushEngineKey answers ch uppercase).1.Steady := by
  refine ⟨(s.touches_pushEngineKey answers ch uppercase).shown h.shown, fun hnone => ?_⟩
  rw [← isComposing_eq_false] at hnone
  revert hnone
  unfold pushEngineKey
  dsimp only
  split_ifs with hcomposing hstarted
  · rw [isComposing_updateCompositionEditSession _ _ hcomposing]
    exact fun hnone => absurd hnone.symm Bool.false_ne_true
  · rw [hstarted]
    exact fun hnone => absurd hnone.symm Bool.false_ne_true
  · exact fun _ => count_reset _

theorem steady_pushEngineDigit (answers : SessionAnswers) (ch : WChar)
    {s : TextService E} (h : s.Steady)
    (hbuffer : s.hasEngineBuffer = true) : (s.pushEngineDigit answers ch).Steady := by
  have hcomposing :
    ({ s with engine := InputEngine.pushChar s.engine ch } : TextService E).isComposing = true :=
    h.isComposing hbuffer
  refine ⟨(s.touches_pushEngineDigit answers ch).shown h.shown, fun hnone => ?_⟩
  rw [pushEngineDigit, if_pos hcomposing, ← isComposing_eq_false,
    isComposing_updateCompositionEditSession _ _ hcomposing] at hnone
  exact absurd hnone.symm Bool.false_ne_true

theorem steady_processBackspace (answers : SessionAnswers) {s : TextService E} (h : s.Steady)
    (hbuffer : s.hasEngineBuffer = true) : (s.processBackspace answers).Steady := by
  have hcomposing :
    ({ s with engine := InputEngine.backspace s.engine } : TextService E).isComposing = true :=
    h.isComposing hbuffer
  refine ⟨(s.touches_processBackspace answers).shown h.shown, fun hnone => ?_⟩
  revert hnone
  unfold processBackspace
  dsimp only
  split_ifs with hleft
  · intro hnone
    rw [← isComposing_eq_false, isComposing_updateCompositionEditSession _ _ hcomposing] at hnone
    exact absurd hnone.symm Bool.false_ne_true
  · intro _
    rw [engine_commitEditSession]
    exact hasEngineBuffer_eq_false.mp (Bool.not_eq_true _ ▸ hleft)

end TextService

end VKey
