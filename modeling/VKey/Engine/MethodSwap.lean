import VKey.Engine.EditKey

/-!
# Another method, another history

No rule of the engine reads the history of all keys, and few of them read the method itself.
Exchanging both commutes with whatever the engine does, as long as the rules that tell the two
methods apart stay silent.
-/

namespace VKey

/-- Neither method is one of the two that the modifier keys single out, or both are the same one. -/
structure InputMethod.Alike (m m' : InputMethod) : Prop where
  simple : m = .simpleTelex ↔ m' = .simpleTelex
  user : m = .userDefined ↔ m' = .userDefined

theorem InputMethod.Alike.refl (m : InputMethod) : m.Alike m := ⟨Iff.rfl, Iff.rfl⟩

/-- Both methods have the Telex keys or neither has. -/
def InputMethod.SameTelex (m m' : InputMethod) : Prop :=
  (m != .vni && m != .userDefined) = (m' != .vni && m' != .userDefined)

/-- Both methods have the VNI keys or neither has. -/
def InputMethod.SameVni (m m' : InputMethod) : Prop :=
  (m == .vni || m == .combined) = (m' == .vni || m' == .combined)

namespace TypingEngine

/-- The engine with another method and another history. -/
def swapped (e : TypingEngine) (m : InputMethod) (history : List WChar) : TypingEngine :=
  { e with config := { e.config with inputMethod := m }, escRawHistory := history }

/-- What a rule returns, with another method and another history. -/
def swappedResult (r : TypingEngine × Bool) (m : InputMethod) (history : List WChar) :
    TypingEngine × Bool :=
  (r.1.swapped m history, r.2)

section Fields

variable (e : TypingEngine) (m : InputMethod) (history : List WChar)

theorem swapped_self : e.swapped e.config.inputMethod e.escRawHistory = e := rfl

@[simp] theorem swapped_states : (e.swapped m history).states = e.states := rfl

@[simp] theorem swapped_rawInput : (e.swapped m history).rawInput = e.rawInput := rfl

@[simp] theorem swapped_escRawHistory : (e.swapped m history).escRawHistory = history := rfl

@[simp] theorem swapped_spellCheckDisabled :
    (e.swapped m history).spellCheckDisabled = e.spellCheckDisabled := rfl

@[simp] theorem swapped_qc : (e.swapped m history).qc = e.qc := rfl

@[simp] theorem swapped_escape : (e.swapped m history).escape = e.escape := rfl

@[simp] theorem swapped_activeKeyUppercase :
    (e.swapped m history).activeKeyUppercase = e.activeKeyUppercase := rfl

@[simp] theorem swapped_quickStartKey : (e.swapped m history).quickStartKey = e.quickStartKey := rfl

@[simp] theorem swapped_engProt : (e.swapped m history).engProt = e.engProt := rfl

@[simp] theorem swapped_inputMethod : (e.swapped m history).config.inputMethod = m := rfl

@[simp] theorem swapped_spellCheckEnabled :
    (e.swapped m history).config.spellCheckEnabled = e.config.spellCheckEnabled := rfl

@[simp] theorem swapped_modernOrtho :
    (e.swapped m history).config.modernOrtho = e.config.modernOrtho := rfl

@[simp] theorem swapped_allowZwjf : (e.swapped m history).config.allowZwjf = e.config.allowZwjf :=
  rfl

@[simp] theorem swapped_quickConsonant :
    (e.swapped m history).config.quickConsonant = e.config.quickConsonant := rfl

@[simp] theorem swapped_quickStartConsonant :
    (e.swapped m history).config.quickStartConsonant = e.config.quickStartConsonant := rfl

@[simp] theorem swapped_quickEndConsonant :
    (e.swapped m history).config.quickEndConsonant = e.config.quickEndConsonant := rfl

@[simp] theorem swapped_allowEnglishBypass :
    (e.swapped m history).config.allowEnglishBypass = e.config.allowEnglishBypass := rfl

@[simp] theorem swapped_effectiveSpellCheck :
    (e.swapped m history).config.effectiveSpellCheck = e.config.effectiveSpellCheck := rfl

@[simp] theorem swapped_lastState : (e.swapped m history).lastState = e.lastState := rfl

@[simp] theorem swapped_nextRawIdx : (e.swapped m history).nextRawIdx = e.nextRawIdx := rfl

@[simp] theorem swappedResult_mk (b : Bool) :
    swappedResult (e, b) m history = (e.swapped m history, b) := rfl

@[simp] theorem swappedResult_fst (r : TypingEngine × Bool) :
    (swappedResult r m history).1 = r.1.swapped m history := rfl

@[simp] theorem swappedResult_snd (r : TypingEngine × Bool) : (swappedResult r m history).2 = r.2 :=
  rfl

@[simp] theorem swapped_ite (c : Prop) [Decidable c] (a b : TypingEngine) :
    (if c then a else b).swapped m history = if c then a.swapped m history else
    b.swapped m history :=
  apply_ite (swapped · m history) c a b

@[simp] theorem swappedResult_ite (c : Prop) [Decidable c] (a b : TypingEngine × Bool) :
    swappedResult (if c then a else b) m history =
      if c then swappedResult a m history else swappedResult b m history :=
  apply_ite (swappedResult · m history) c a b

end Fields

variable [WideCType]

/-! ## Letters and marks -/

section Letters

variable (e : TypingEngine) (m : InputMethod) (history : List WChar)

omit [WideCType] in
@[simp] theorem withStates_swapped (states : List CharState) :
    (e.swapped m history).withStates states = (e.withStates states).swapped m history := rfl

omit [WideCType] in
@[simp] theorem pushState_swapped (s : CharState) :
    (e.swapped m history).pushState s = (e.pushState s).swapped m history := rfl

omit [WideCType] in
@[simp] theorem setBias_swapped (bias : LanguageBias) :
    (e.swapped m history).setBias bias = (e.setBias bias).swapped m history := rfl

omit [WideCType] in
@[simp] theorem processChar_swapped (lower : WChar) (isUpper : Bool) :
    (e.swapped m history).processChar lower isUpper =
      (e.processChar lower isUpper).swapped m history :=
  rfl

@[simp] theorem processKeyChar_swapped (c : WChar) :
    (e.swapped m history).processKeyChar c = (e.processKeyChar c).swapped m history := rfl

@[simp] theorem updateSpellState_swapped :
    (e.swapped m history).updateSpellState = e.updateSpellState.swapped m history := rfl

@[simp] theorem relocated_swapped (states : List CharState) :
    (e.swapped m history).relocated states = (e.relocated states).swapped m history := rfl

omit [WideCType] in
@[simp] theorem hornRelocated_swapped (states : List CharState) :
    (e.swapped m history).hornRelocated states = (e.hornRelocated states).swapped m history := rfl

@[simp] theorem escapeTo_swapped (states : List CharState) (c : WChar) (kind : EscapeKind) :
    (e.swapped m history).escapeTo states c kind =
      (e.escapeTo states c kind).swapped m history := rfl

omit [WideCType] in
@[simp] theorem eraseConsumedRaw_swapped (idx : Nat) :
    (e.swapped m history).eraseConsumedRaw idx = (e.eraseConsumedRaw idx).swapped m history := by
  rw [eraseConsumedRaw, eraseConsumedRaw, swapped_ite]
  rfl

@[simp] theorem restoreConsumedKeyInPlace_swapped (consumedRawIdx : Option Nat) (c : WChar) :
    (e.swapped m history).restoreConsumedKeyInPlace consumedRawIdx c =
      (e.restoreConsumedKeyInPlace consumedRawIdx c).swapped m history := by
  cases consumedRawIdx with
  | none => rfl
  | some idx =>
      simp only [restoreConsumedKeyInPlace, swapped_ite, eraseConsumedRaw_swapped]
      rfl

@[simp] theorem insertLetter_swapped (base : WChar) (mod : Modifier) (isUpper : Bool)
    (kind : EscapeKind) (c : WChar) :
    (e.swapped m history).insertLetter base mod isUpper kind c =
      swappedResult (e.insertLetter base mod isUpper kind c) m history := by
  have htakes : (e.swapped m history).takesInsertBack base mod c = e.takesInsertBack base mod c :=
    rfl
  simp only [insertLetter, htakes, swappedResult_ite, withStates_swapped, eraseConsumedRaw_swapped,
    swapped_states, swapped_lastState]
  rfl

@[simp] theorem handleInsertChar_swapped (action : TypingAction) (c : WChar) :
    (e.swapped m history).handleInsertChar action c =
      swappedResult (e.handleInsertChar action c) m history := by
  simp only [handleInsertChar]
  split
  · rfl
  · exact insertLetter_swapped e m history _ _ _ _ c

end Letters

/-! ## Modifier keys -/

section Modifiers

variable {e : TypingEngine} {m : InputMethod} {history : List WChar}

theorem handleHornInsert_swapped (h : e.config.inputMethod.Alike m)
    (action : TypingAction) (c : WChar) :
    (e.swapped m history).handleHornInsert action c =
      swappedResult (e.handleHornInsert action c) m history := by
  simp only [handleHornInsert, swapped_inputMethod, ← h.simple, insertLetter_swapped,
    swappedResult_ite, swappedResult_mk, swapped_activeKeyUppercase]

@[simp] theorem unrevertUse_swapped :
    (e.swapped m history).unrevertUse = e.unrevertUse.swapped m history := rfl

@[simp] theorem circumflexLast_swapped (targetBase c : WChar) :
    (e.swapped m history).circumflexLast targetBase c =
      swappedResult (e.circumflexLast targetBase c) m history := by
  simp only [circumflexLast, swappedResult_ite, swappedResult_mk, swapped_ite]
  rfl

@[simp] theorem freeMarkPlain_swapped (i : Nat) (targetBase : WChar) :
    (e.swapped m history).freeMarkPlain i targetBase =
      swappedResult (e.freeMarkPlain i targetBase) m history := by
  simp only [freeMarkPlain, swappedResult_ite]
  rfl

@[simp] theorem freeMark_swapped (targetBase c : WChar) :
    (e.swapped m history).freeMark targetBase c =
      swappedResult (e.freeMark targetBase c) m history := by
  rw [freeMark, freeMark, swappedResult_ite]
  refine ite_congr rfl (fun _ => rfl) fun _ => ?_
  simp only [swapped_states, freeMarkPlain_swapped]
  split
  · rfl
  · simp only [swappedResult_ite]
    rfl

theorem handleAdjacentCircumflex_swapped (h : e.config.inputMethod.Alike m) (action : TypingAction)
    (c : WChar) :
    (e.swapped m history).handleAdjacentCircumflex action c =
      swappedResult (e.handleAdjacentCircumflex action c) m history := by
  have huse : (e.swapped m history).isLiteralUse = e.isLiteralUse := rfl
  simp only [handleAdjacentCircumflex, swapped_inputMethod, ← h.user, huse, swapped_states,
    swapped_lastState, circumflexLast_swapped, freeMark_swapped,
      unrevertUse_swapped, swappedResult_ite,
    swappedResult_mk]

theorem hornEffect_swapped (h : e.config.inputMethod.Alike m) (c : WChar) :
    (e.swapped m history).hornEffect c = e.hornEffect c := by
  have h8 : (e.swapped m history).hornP8 c = e.hornP8 c := by
    simp only [hornP8, swapped_inputMethod, ne_eq, ← h.simple, ← h.user]
    rfl
  simp only [hornEffect, h8, swapped_inputMethod, ← h.simple]
  rfl

theorem handleHornW_swapped (h : e.config.inputMethod.Alike m) (c : WChar) :
    (e.swapped m history).handleHornW c = swappedResult (e.handleHornW c) m history := by
  rw [handleHornW, handleHornW, hornEffect_swapped h]
  cases e.hornEffect c <;> rfl

@[simp] theorem handleStrokeD_swapped (c : WChar) :
    (e.swapped m history).handleStrokeD c = swappedResult (e.handleStrokeD c) m history := by
  rw [handleStrokeD, handleStrokeD, swappedResult_ite]
  refine ite_congr rfl (fun _ => rfl) fun _ => ?_
  simp only [swapped_states]
  split
  · rfl
  · simp only [swappedResult_ite]
    rfl

@[simp] theorem processVniVowelModifier_swapped (targetMod : Modifier) (key : WChar) :
    (e.swapped m history).processVniVowelModifier targetMod key =
      swappedResult (e.processVniVowelModifier targetMod key) m history := by
  simp only [processVniVowelModifier, swapped_states]
  split
  · simp only [swappedResult_ite]
    rfl
  · split
    · rfl
    · split <;> rfl

theorem handleVniHorn_swapped (c : WChar) :
    (e.swapped m history).handleVniHorn c = swappedResult (e.handleVniHorn c) m history := by
  have huo : (e.swapped m history).vniHornUO c =
    (e.vniHornUO c).map (swappedResult · m history) := by
    simp only [vniHornUO, swapped_states]
    split
    · simp only [apply_ite (Option.map (swappedResult · m history))]
      rfl
    · rfl
  have huu : (e.swapped m history).vniHornUU c =
    (e.vniHornUU c).map (swappedResult · m history) := by
    simp only [vniHornUU, swapped_states]
    split
    · simp only [apply_ite (Option.map (swappedResult · m history))]
      rfl
    · rfl
  rw [handleVniHorn, handleVniHorn, huo, huu, processVniVowelModifier_swapped]
  cases e.vniHornUO c <;> cases e.vniHornUU c <;> rfl

theorem handleHornW_inputMethod (c : WChar) :
    (e.handleHornW c).1.config.inputMethod = e.config.inputMethod :=
  congrArg (·.1.config.inputMethod)
    (@handleHornW_swapped _ e e.config.inputMethod e.escRawHistory (.refl _) c)

theorem handleHornOrInsertU_swapped (h : e.config.inputMethod.Alike m) (action : TypingAction)
    (c : WChar) :
    (e.swapped m history).handleHornOrInsertU action c =
      swappedResult (e.handleHornOrInsertU action c) m history := by
  have hhorned : (e.handleHornW c).1.config.inputMethod.Alike m := by
    rw [handleHornW_inputMethod]
    exact h
  have hinsert := @handleHornInsert_swapped _ (e.handleHornW c).1 m history hhorned .hornInsertU c
  simp only [handleHornOrInsertU, swappedResult_ite, handleHornW_swapped h,
    swappedResult_fst, hinsert]
  rfl

omit [WideCType] in
@[simp] theorem handleUndoAllMarks_swapped :
    (e.swapped m history).handleUndoAllMarks = swappedResult e.handleUndoAllMarks m history := by
  rw [handleUndoAllMarks, handleUndoAllMarks, swappedResult_ite]
  rfl

theorem processModifier_swapped (h : e.config.inputMethod.Alike m)
    (action : TypingAction) (c : WChar) :
    (e.swapped m history).processModifier action c =
      swappedResult (e.processModifier action c) m history := by
  cases action <;>
    simp only [processModifier, handleHornInsert_swapped h, handleHornW_swapped h,
      handleAdjacentCircumflex_swapped h, handleStrokeD_swapped,
        handleVniCircumflex, handleVniBreve,
      handleVniStroke, handleVniHorn_swapped, processVniVowelModifier_swapped,
      handleHornOrInsertU_swapped h, handleUndoAllMarks_swapped, handleInsertChar_swapped]

omit [WideCType] in
@[simp] theorem strokePrecheck_swapped (action strokeAction : TypingAction) :
    (e.swapped m history).strokePrecheck action strokeAction =
      (e.strokePrecheck action strokeAction).swapped m history := by
  rw [strokePrecheck, strokePrecheck, swapped_ite]
  rfl

@[simp] theorem finishModifier_swapped :
    (e.swapped m history).finishModifier = e.finishModifier.swapped m history := rfl

end Modifiers

/-! ## What only the Telex keys ask for -/

section Telex

variable {e : TypingEngine} {m : InputMethod} {history : List WChar}

omit [WideCType] in
theorem isTelexMode_swapped (h : InputMethod.SameTelex e.config.inputMethod m) :
    (e.swapped m history).config.isTelexMode = e.config.isTelexMode := by
  simp only [TypingConfig.isTelexMode, swapped_inputMethod]
  exact h.symm

omit [WideCType] in
theorem isVniMode_swapped (h : InputMethod.SameVni e.config.inputMethod m) :
    (e.swapped m history).config.isVniMode = e.config.isVniMode := by
  simp only [TypingConfig.isVniMode, swapped_inputMethod]
  exact h.symm

/-- No letter stands for a Telex key that starts an English word, nor for `e`. -/
def TelexSilent (states : List CharState) : Prop :=
  ∀ s ∈ states, towlower s.base ∉ [L 'w', L 'z', L 'j', L 'f', L 'e']

theorem TelexSilent.stateAt {states : List CharState} (h : TelexSilent states) {i : Nat}
    (hi : i < states.length) :
    towlower (stateAt states i).base ∉ [L 'w', L 'z', L 'j', L 'f', L 'e'] := by
  rw [stateAt_eq_getElem hi]
  exact h _ (List.getElem_mem hi)

theorem TelexSilent.checkZwjfInitialBias_eq {states : List CharState} (h : TelexSilent states)
    (config : TypingConfig) (prot : EnglishProtectionState) :
    checkZwjfInitialBias states config prot = prot := by
  have hbase : states.isEmpty = false →
      [L 'w', L 'z', L 'j', L 'f'].contains (VKey.stateAt states 0).base = false := by
    intro hne
    rw [Bool.eq_false_iff, ne_eq, List.contains_iff_mem]
    intro hmem
    have hlen : 0 < states.length := List.length_pos_iff.mpr (by simpa using hne)
    have hself : ∀ c ∈ [L 'w', L 'z', L 'j', L 'f'], c < 0x80 ∧ asciiLower c = c := by decide
    obtain ⟨hascii, hlower⟩ := hself _ hmem
    refine h.stateAt hlen ?_
    rw [WideCType.towlower_ascii _ hascii, hlower]
    exact List.mem_append_left [L 'e'] hmem
  rw [checkZwjfInitialBias]
  by_cases hempty : states.isEmpty = true
  · rw [hempty, Bool.or_true, if_pos rfl]
  · rw [hbase (Bool.eq_false_iff.mpr hempty)]
    simp only [Bool.false_eq_true, if_false, ite_self]

/-- The Telex keys ask the same of both methods, or find nothing in the letters. -/
def TelexAgrees (m m' : InputMethod) (states : List CharState) : Prop :=
  m.SameTelex m' ∨ TelexSilent states

theorem checkInitialBias_swapped (h : TelexAgrees e.config.inputMethod m e.states) :
    (e.swapped m history).checkInitialBias = e.checkInitialBias.swapped m history := by
  rcases h with h | h
  · simp only [checkInitialBias, isTelexMode_swapped h, swapped_ite]
    rfl
  · have hsilent (e' : TypingEngine) (he' : TelexSilent e'.states) : e'.checkInitialBias = e' := by
      rw [checkInitialBias, he'.checkZwjfInitialBias_eq, ite_self]
    rw [hsilent e h, hsilent (e.swapped m history) h]

theorem recalcBias_swapped (h : TelexAgrees e.config.inputMethod m e.states) :
    (e.swapped m history).recalcBias = e.recalcBias.swapped m history := by
  rcases h with h | h
  · simp only [recalcBias, isTelexMode_swapped h]
    rfl
  · simp only [recalcBias, swapped_states, h.checkZwjfInitialBias_eq, ite_self]
    rfl

theorem hasTonedUse_of_silent (h : TelexSilent e.states) : e.hasTonedUse = false := by
  rw [Bool.eq_false_iff]
  intro huse
  simp only [hasTonedUse, Bool.and_eq_true, beq_iff_eq] at huse
  obtain ⟨⟨⟨⟨⟨⟨⟨⟨⟨⟨⟨⟨-, -⟩, -⟩, hlen⟩, -⟩, -⟩, he⟩, -⟩, -⟩, -⟩, -⟩, -⟩, -⟩ := huse
  refine h.stateAt (show 1 < e.states.length by omega) ?_
  rw [he]
  decide

theorem hasTonedUse_swapped (h : TelexAgrees e.config.inputMethod m e.states) :
    (e.swapped m history).hasTonedUse = e.hasTonedUse := by
  rcases h with h | h
  · simp only [hasTonedUse, isTelexMode_swapped h]
    rfl
  · have hsilent : (e.swapped m history).hasTonedUse = false := hasTonedUse_of_silent h
    rw [hsilent, hasTonedUse_of_silent h]

theorem revertTonedUse_swapped (h : TelexAgrees e.config.inputMethod m e.states) :
    (e.swapped m history).revertTonedUse = e.revertTonedUse.swapped m history := by
  rw [revertTonedUse, revertTonedUse, hasTonedUse_swapped h, swapped_ite]
  rfl

end Telex

/-! ## Tone keys -/

section Tones

variable {e : TypingEngine} {m : InputMethod} {history : List WChar}

@[simp] theorem processTone_swapped (newTone : Tone) (keyChar : WChar) :
    (e.swapped m history).processTone newTone keyChar =
      swappedResult (e.processTone newTone keyChar) m history := by
  have htarget : (e.swapped m history).toneTarget = e.toneTarget := rfl
  rw [processTone, processTone, htarget, swappedResult_ite]
  refine ite_congr rfl (fun _ => rfl) fun _ => ?_
  cases e.toneTarget with
  | none => rfl
  | some i =>
      have hrestored := restoreConsumedKeyInPlace_swapped
        { e with states := setTone e.states i .none none } m history
      simp only [swappedResult_ite]
      refine ite_congr rfl (fun _ => ?_) fun _ => rfl
      exact congrArg (fun r => ({ r with escape := .tone }, true)) (hrestored _ _)

@[simp] theorem processClearTone_swapped :
    (e.swapped m history).processClearTone = swappedResult e.processClearTone m history := by
  have htarget : (e.swapped m history).toneTarget = e.toneTarget := rfl
  rw [processClearTone, processClearTone, htarget]
  cases e.toneTarget with
  | none => rfl
  | some i =>
      simp only [swappedResult_ite]
      rfl

@[simp] theorem englishGate_swapped (requestedTone : Tone) (keyChar : WChar) (isTelexTone : Bool) :
    (e.swapped m history).englishGate requestedTone keyChar isTelexTone =
      swappedResult (e.englishGate requestedTone keyChar isTelexTone) m history := by
  have hvalidate : (e.swapped m history).toneWouldValidate requestedTone =
      e.toneWouldValidate requestedTone := rfl
  simp only [englishGate, hvalidate, swappedResult_ite]
  refine ite_congr rfl (fun _ => rfl) fun _ => ite_congr rfl (fun _ => rfl) fun _ =>
    ite_congr rfl (fun _ => rfl) fun _ => ?_
  by_cases hsoft : (e.engProt.bias == .softEnglish) = true
  · simp only [swapped_engProt, hsoft, if_true]
    rfl
  · simp only [swapped_engProt, hsoft, Bool.false_eq_true, if_false]
    rfl

@[simp] theorem toneGates_swapped (requestedTone : Tone) (keyChar lower : WChar) :
    (e.swapped m history).toneGates requestedTone keyChar lower =
      swappedResult (e.toneGates requestedTone keyChar lower) m history := by
  simp only [toneGates, englishGate_swapped, swappedResult_ite]
  rfl

/-- The tone that has been applied or taken back is finished. -/
theorem finishTone_swapped (h : TelexAgrees e.config.inputMethod m e.states) :
    (e.swapped m history).finishTone = e.finishTone.swapped m history := by
  by_cases hescaped : e.escape.isEscaped = true
  · simp only [finishTone, swapped_escape, hescaped, if_true, recalcBias_swapped h]
    rfl
  · simp only [finishTone, swapped_escape, hescaped, Bool.false_eq_true, if_false]
    rfl

/-- What the tone key leaves behind its gates. -/
def TonedAgrees (e : TypingEngine) (m : InputMethod) (requestedTone : Tone)
    (keyChar lower : WChar) :
    Prop :=
  TelexAgrees e.config.inputMethod m
    ((e.toneGates requestedTone keyChar lower).1.processTone requestedTone keyChar).1.states

theorem handleTone_swapped {requestedTone : Tone} {keyChar lower : WChar}
    (h : TonedAgrees e m requestedTone keyChar lower) (isUpper : Bool) :
    (e.swapped m history).handleTone requestedTone keyChar lower isUpper =
      swappedResult (e.handleTone requestedTone keyChar lower isUpper) m history := by
  have hmethod : ((e.toneGates requestedTone keyChar lower).1.processTone requestedTone
      keyChar).1.config.inputMethod = e.config.inputMethod := by
    have hgates :=
      @toneGates_swapped _ e e.config.inputMethod e.escRawHistory requestedTone keyChar lower
    have happlied := @processTone_swapped _ (e.toneGates requestedTone keyChar lower).1
      e.config.inputMethod e.escRawHistory requestedTone keyChar
    have hself : (e.toneGates requestedTone keyChar lower).1.swapped e.config.inputMethod
        e.escRawHistory = (e.toneGates requestedTone keyChar lower).1 :=
          (congrArg Prod.fst hgates).symm
    rw [hself] at happlied
    exact congrArg (·.1.config.inputMethod) happlied
  have hagrees : TelexAgrees ((e.toneGates requestedTone keyChar lower).1.processTone requestedTone
      keyChar).1.config.inputMethod m ((e.toneGates requestedTone keyChar lower).1.processTone
        requestedTone keyChar).1.states := by
    rw [hmethod]
    exact h
  have hfinish := @finishTone_swapped _ _ m history hagrees
  simp only [handleTone, toneGates_swapped, swappedResult_fst,
    swappedResult_snd, processTone_swapped,
    hfinish, processChar_swapped, updateSpellState_swapped, swappedResult_ite, swappedResult_mk]

theorem handleToneFsm_swapped {action : TypingAction} {keyChar lower : WChar}
    (h : TonedAgrees e m (actionToTone action) keyChar lower) (isUpper : Bool) :
    (e.swapped m history).handleToneFsm action keyChar lower isUpper =
      swappedResult (e.handleToneFsm action keyChar lower isUpper) m history := by
  simp only [handleToneFsm, processClearTone_swapped, handleTone_swapped h, processKeyChar_swapped,
    updateSpellState_swapped, swappedResult_fst, swappedResult_snd, swappedResult_ite,
    swappedResult_mk]
  rfl

theorem applyToneRule_swapped {action : TypingAction} {keyChar lower : WChar}
    (h : TonedAgrees e m (actionToTone action) keyChar lower) (isUpper : Bool) :
    (e.swapped m history).applyToneRule action keyChar lower isUpper =
      swappedResult (e.applyToneRule action keyChar lower isUpper) m history := by
  rw [applyToneRule, applyToneRule, handleToneFsm_swapped h, swappedResult_ite]
  rfl

end Tones

/-! ## The rules after classification -/

section Dispatch

variable {e : TypingEngine} {m : InputMethod} {history : List WChar}

/-- Both methods let the action reach its handler. -/
structure InputMethod.Serves (m m' : InputMethod) (action : TypingAction) :
    Prop extends m.Alike m' where
  telex : action.isTelexModifierAction = true → m.SameTelex m'
  vni : action.isVniModifierAction = true → m.SameVni m'

theorem modifierGates_swapped {action : TypingAction}
    (h : InputMethod.Serves e.config.inputMethod m action) (keyChar lower : WChar) :
    (e.swapped m history).modifierGates action keyChar lower =
      swappedResult (e.modifierGates action keyChar lower) m history := by
  have huser : (m == .userDefined) = (e.config.inputMethod == .userDefined) := by
    rw [Bool.eq_iff_iff, beq_iff_eq, beq_iff_eq, h.user]
  have htelex : (action.isTelexModifierAction &&
      ((e.swapped m history).config.isTelexMode || e.config.inputMethod == .userDefined)) =
      (action.isTelexModifierAction &&
        (e.config.isTelexMode || e.config.inputMethod == .userDefined)) := by
    cases haction : action.isTelexModifierAction with
    | false => rfl
    | true => rw [isTelexMode_swapped (h.telex haction)]
  have hvni : (action.isVniModifierAction &&
      ((e.swapped m history).config.isVniMode || e.config.inputMethod == .userDefined)) =
      (action.isVniModifierAction &&
        (e.config.isVniMode || e.config.inputMethod == .userDefined)) := by
    cases haction : action.isVniModifierAction with
    | false => rfl
    | true => rw [isVniMode_swapped (h.vni haction)]
  simp only [modifierGates, swapped_inputMethod, htelex, hvni, huser, strokePrecheck_swapped,
    swappedResult_ite]
  rfl

theorem handleModifierAction_swapped {action : TypingAction}
    (h : InputMethod.Serves e.config.inputMethod m action) (keyChar lower : WChar) :
    (e.swapped m history).handleModifierAction action keyChar lower =
      swappedResult (e.handleModifierAction action keyChar lower) m history := by
  have hmethod :
    (e.modifierGates action keyChar lower).1.config.inputMethod = e.config.inputMethod :=
    congrArg TypingConfig.inputMethod (sameBuffer_modifierGates e action keyChar lower).config_eq
  have hmodifier := @processModifier_swapped _ (e.modifierGates action keyChar lower).1 m history
    (by rw [hmethod]; exact h.toAlike) action keyChar
  simp only [handleModifierAction, modifierGates_swapped h, swappedResult_fst, swappedResult_snd,
    hmodifier, finishModifier_swapped, swappedResult_ite, swappedResult_mk]

@[simp] theorem handleQuickEndConsonant_swapped (lower : WChar) :
    (e.swapped m history).handleQuickEndConsonant lower =
      swappedResult (e.handleQuickEndConsonant lower) m history := by
  rw [handleQuickEndConsonant, handleQuickEndConsonant, swappedResult_ite]
  refine ite_congr rfl (fun _ => ?_) fun _ => rfl
  cases quickEndLetters lower <;> rfl

theorem applyToneRule_inputMethod (action : TypingAction) (keyChar lower : WChar) (isUpper : Bool) :
    (e.applyToneRule action keyChar lower isUpper).1.config.inputMethod = e.config.inputMethod :=
  congrArg (·.1.config.inputMethod) (@applyToneRule_swapped _ e e.config.inputMethod e.escRawHistory
    action keyChar lower (.inl rfl) isUpper)

theorem dispatchPostClassify_swapped {action : TypingAction} {keyChar lower : WChar}
    (htone : TonedAgrees e m (actionToTone action) keyChar lower)
    (h : InputMethod.Serves e.config.inputMethod m action) (isUpper : Bool) :
    (e.swapped m history).dispatchPostClassify action keyChar lower isUpper =
      swappedResult (e.dispatchPostClassify action keyChar lower isUpper) m history := by
  have hmodifier :=
    @handleModifierAction_swapped _ (e.applyToneRule action keyChar lower isUpper).1 m
    history action (by rw [applyToneRule_inputMethod]; exact h) keyChar lower
  simp only [dispatchPostClassify, applyToneRule_swapped htone,
    swappedResult_fst, swappedResult_snd,
    hmodifier, handleQuickEndConsonant_swapped, swappedResult_ite]

end Dispatch

/-! ## Finishing a letter -/

section Finish

variable {e : TypingEngine} {m : InputMethod} {history : List WChar}

/-- The marks of a letter that has been appended, before its English starts are looked at. -/
def lettered (e : TypingEngine) : TypingEngine :=
  (e.withStates (applyAutoUO e.config.modernOrtho
    (relocateToneToTarget e.config.modernOrtho e.states))).updateSpellState.checkBias

theorem finalizeRegularChar_eq (e : TypingEngine) :
    e.finalizeRegularChar = e.lettered.revertSyntheticStart.revertTonedUse.checkInitialBias := rfl

/-- Both methods finish the letter alike. -/
structure FinishAgrees (e : TypingEngine) (m : InputMethod) : Prop where
  start : (e.lettered.swapped m []).hasSyntheticEnglishStart = e.lettered.hasSyntheticEnglishStart
  telex : TelexAgrees e.config.inputMethod m e.lettered.revertSyntheticStart.states

@[simp] theorem lettered_swapped : (e.swapped m history).lettered = e.lettered.swapped m history :=
  rfl

theorem revertSyntheticStart_swapped
    (h : (e.swapped m []).hasSyntheticEnglishStart = e.hasSyntheticEnglishStart) :
    (e.swapped m history).revertSyntheticStart = e.revertSyntheticStart.swapped m history := by
  have hstart : (e.swapped m history).hasSyntheticEnglishStart = e.hasSyntheticEnglishStart := h
  rw [revertSyntheticStart, revertSyntheticStart, hstart, swapped_ite]
  rfl

theorem revertSyntheticStart_inputMethod (e : TypingEngine) :
    e.revertSyntheticStart.config.inputMethod = e.config.inputMethod :=
  congrArg (·.config.inputMethod)
    (@revertSyntheticStart_swapped _ e e.config.inputMethod e.escRawHistory rfl)

theorem revertTonedUse_inputMethod (e : TypingEngine) :
    e.revertTonedUse.config.inputMethod = e.config.inputMethod :=
  congrArg (·.config.inputMethod)
    (@revertTonedUse_swapped _ e e.config.inputMethod e.escRawHistory (.inl rfl))

/-- Without an `e` there is no `use` to turn back. -/
theorem TelexAgrees.revertTonedUse (h : TelexAgrees e.config.inputMethod m e.states) :
    TelexAgrees e.revertTonedUse.config.inputMethod m e.revertTonedUse.states := by
  rw [revertTonedUse_inputMethod]
  rcases h with h | h
  · exact .inl h
  · rw [TypingEngine.revertTonedUse, hasTonedUse_of_silent h, if_neg Bool.false_ne_true]
    exact .inr h

theorem finalizeRegularChar_swapped (h : FinishAgrees e m) :
    (e.swapped m history).finalizeRegularChar = e.finalizeRegularChar.swapped m history := by
  have hmethod : e.lettered.revertSyntheticStart.config.inputMethod = e.config.inputMethod :=
    revertSyntheticStart_inputMethod e.lettered
  have htelex : TelexAgrees e.lettered.revertSyntheticStart.config.inputMethod m
      e.lettered.revertSyntheticStart.states := by
    rw [hmethod]
    exact h.telex
  rw [finalizeRegularChar_eq, lettered_swapped, revertSyntheticStart_swapped h.start,
    revertTonedUse_swapped htelex, checkInitialBias_swapped htelex.revertTonedUse,
    finalizeRegularChar_eq]

end Finish

/-! ## Quick consonants -/

section Quick

variable {e : TypingEngine} {m : InputMethod} {history : List WChar}

/-- The letter that expands a doubled consonant. -/
def expandedLetter (e : TypingEngine) (lower : WChar) (isUpper : Bool) : Option TypingEngine :=
  if !e.lastState.isVowel && !e.lastState.isD then
    (quickReplacement e.lastState.base lower).map fun replacement =>
      (e.recordExpansion lower).processKeyChar
        (if isUpper then towupper replacement else replacement)
  else none

omit [WideCType] in
@[simp] theorem recordExpansion_swapped (lower : WChar) :
    (e.swapped m history).recordExpansion lower = (e.recordExpansion lower).swapped m history := rfl

omit [WideCType] in
@[simp] theorem clearQuickEscape_swapped (lower : WChar) :
    (e.swapped m history).clearQuickEscape lower =
      (e.clearQuickEscape lower).swapped m history := rfl

@[simp] theorem undoQuickStart_swapped (keyChar : WChar) :
    (e.swapped m history).undoQuickStart keyChar =
      (e.undoQuickStart keyChar).swapped m history := by
  simp only [undoQuickStart, swapped_ite]
  rfl

theorem expandQuickConsonant_swapped {lower : WChar} {isUpper : Bool}
    (h : ∀ l, e.expandedLetter lower isUpper = some l → FinishAgrees l m) :
    (e.swapped m history).expandQuickConsonant lower isUpper =
      (e.expandQuickConsonant lower isUpper).map (·.swapped m history) := by
  rw [expandQuickConsonant, expandQuickConsonant,
    apply_ite (Option.map fun e : TypingEngine => e.swapped m history)]
  refine ite_congr rfl (fun hconsonant => ?_) fun _ => ?_
  · rw [expandedLetter, if_pos hconsonant] at h
    simp only [swapped_lastState, recordExpansion_swapped, processKeyChar_swapped]
    cases hreplacement : quickReplacement e.lastState.base lower with
    | none => rfl
    | some replacement =>
        rw [hreplacement] at h
        simp only [Option.map_some, Option.some.injEq]
        exact finalizeRegularChar_swapped (h _ rfl)
  · rw [apply_ite (Option.map fun e : TypingEngine => e.swapped m history)]
    rfl

/-- The two letters that a quick start consonant stands for. -/
def quickStart (e : TypingEngine) (lower : WChar) : Option (WChar × WChar) :=
  if e.config.quickStartConsonant && e.states.isEmpty then quickStartLetters lower else none

/-- The rules for doubled consonants, with the start consonants out of the way. -/
def expandUnlessEscaped (e : TypingEngine) (lower : WChar) (isUpper : Bool) : TypingEngine × Bool :=
  let quickEscaped := e.isQuickEscaped lower
  let e := e.clearQuickEscape lower
  if e.config.quickConsonant && !e.states.isEmpty && !quickEscaped then
    match e.expandQuickConsonant lower isUpper with
    | some expanded => (expanded, true)
    | none => (e, false)
  else (e, false)

theorem handleQuickStartConsonant_eq (e : TypingEngine) (keyChar lower : WChar) (isUpper : Bool) :
    e.handleQuickStartConsonant keyChar lower isUpper =
      match e.quickStart lower with
      | some (first, second) =>
          ({ (e.processKeyChar
                  (if isUpper then towupper first else first)).processKeyChar second with
              quickStartKey := keyChar }.updateSpellState, true)
      | none => (e.undoQuickStart keyChar).expandUnlessEscaped lower isUpper := rfl

/-- The letter that a quick consonant rule finishes. -/
def quickLetter (e : TypingEngine) (keyChar lower : WChar) (isUpper : Bool) : Option TypingEngine :=
  let undone := e.undoQuickStart keyChar
  if (e.quickStart lower).isNone && undone.config.quickConsonant && !undone.states.isEmpty &&
      !undone.isQuickEscaped lower then
    (undone.clearQuickEscape lower).expandedLetter lower isUpper
  else none

theorem expandUnlessEscaped_swapped {lower : WChar} {isUpper : Bool}
    (h : (e.config.quickConsonant && !e.states.isEmpty && !e.isQuickEscaped lower) = true →
      ∀ l, (e.clearQuickEscape lower).expandedLetter lower isUpper = some l → FinishAgrees l m) :
    (e.swapped m history).expandUnlessEscaped lower isUpper =
      swappedResult (e.expandUnlessEscaped lower isUpper) m history := by
  have hescaped : (e.swapped m history).isQuickEscaped lower = e.isQuickEscaped lower := rfl
  rw [expandUnlessEscaped, expandUnlessEscaped, swappedResult_ite]
  refine ite_congr rfl (fun hexpands => ?_) fun _ => rfl
  simp only [clearQuickEscape_swapped, expandQuickConsonant_swapped (h hexpands)]
  cases (e.clearQuickEscape lower).expandQuickConsonant lower isUpper <;> rfl

theorem handleQuickStartConsonant_swapped {keyChar lower : WChar} {isUpper : Bool}
    (h : ∀ l, e.quickLetter keyChar lower isUpper = some l → FinishAgrees l m) :
    (e.swapped m history).handleQuickStartConsonant keyChar lower isUpper =
      swappedResult (e.handleQuickStartConsonant keyChar lower isUpper) m history := by
  have hstart : (e.swapped m history).quickStart lower = e.quickStart lower := rfl
  rw [handleQuickStartConsonant_eq, handleQuickStartConsonant_eq, hstart, undoQuickStart_swapped]
  cases hletters : e.quickStart lower with
  | some letters => rfl
  | none =>
      refine expandUnlessEscaped_swapped fun hexpands l hl => h l ?_
      rw [quickLetter, hletters, Option.isNone_none, Bool.true_and, if_pos hexpands, hl]

end Quick

/-! ## A key, a Backspace and the end of the word -/

section Push

variable {e : TypingEngine} {m : InputMethod} {history : List WChar}

/-- The rules after classification leave the key to be a letter, which is to be finished. -/
def settledLetter (e : TypingEngine) (keyChar : WChar) (uppercase : Bool) : Option TypingEngine :=
  let quick := e.handleQuickStartConsonant keyChar (towlower keyChar) uppercase
  let dispatched :=
    quick.1.dispatchPostClassify (quick.1.keyAction keyChar (towlower keyChar)) keyChar
    (towlower keyChar) uppercase
  if quick.2 || dispatched.2 then none
  else some (dispatched.1.processChar (towlower keyChar) uppercase)

/-- The letter comes from the key that no rule has taken. -/
theorem settledLetter_eq {l : TypingEngine} {keyChar : WChar} {uppercase : Bool}
    (h : e.settledLetter keyChar uppercase = some l) :
    (e.handleQuickStartConsonant keyChar (towlower keyChar) uppercase).2 = false ∧
      ((e.handleQuickStartConsonant keyChar (towlower keyChar) uppercase).1.dispatchPostClassify
        ((e.handleQuickStartConsonant keyChar (towlower keyChar) uppercase).1.keyAction keyChar
          (towlower keyChar)) keyChar (towlower keyChar) uppercase).1.processChar (towlower keyChar)
            uppercase = l := by
  rw [settledLetter] at h
  split at h
  · cases h
  · rename_i hleft
    rw [Bool.or_eq_true, not_or] at hleft
    exact ⟨Bool.eq_false_iff.mpr hleft.1, Option.some.inj h⟩

/-- Both methods take the key to the same letter or consume it alike. -/
structure KeyReaches (e : TypingEngine) (m : InputMethod) (keyChar : WChar) (uppercase : Bool) :
    Prop where
  quick : ∀ l, e.quickLetter keyChar (towlower keyChar) uppercase = some l → FinishAgrees l m
  action :
    ((e.handleQuickStartConsonant keyChar (towlower keyChar) uppercase).1.swapped m []).keyAction
      keyChar (towlower keyChar) =
    (e.handleQuickStartConsonant keyChar (towlower keyChar) uppercase).1.keyAction keyChar
      (towlower keyChar)
  serves : InputMethod.Serves (e.handleQuickStartConsonant keyChar (towlower keyChar)
      uppercase).1.config.inputMethod m
    ((e.handleQuickStartConsonant keyChar (towlower keyChar) uppercase).1.keyAction keyChar
      (towlower keyChar))
  tone : TonedAgrees (e.handleQuickStartConsonant keyChar (towlower keyChar) uppercase).1 m
    (actionToTone
      ((e.handleQuickStartConsonant keyChar (towlower keyChar) uppercase).1.keyAction keyChar
      (towlower keyChar))) keyChar (towlower keyChar)

/-- Both methods treat the key alike. -/
structure KeyAgrees (e : TypingEngine) (m : InputMethod) (keyChar : WChar) (uppercase : Bool) : Prop
    extends KeyReaches e m keyChar uppercase where
  letter : ∀ l, e.settledLetter keyChar uppercase = some l → FinishAgrees l m

theorem settledLetter_swapped {keyChar : WChar} {uppercase : Bool}
    (h : KeyReaches e m keyChar uppercase) :
    (e.swapped m history).settledLetter keyChar uppercase =
      (e.settledLetter keyChar uppercase).map fun l => l.swapped m history := by
  have haction : ((e.handleQuickStartConsonant keyChar (towlower keyChar) uppercase).1.swapped m
      history).keyAction keyChar (towlower keyChar) = _ := h.action
  simp only [settledLetter, handleQuickStartConsonant_swapped h.quick, swappedResult_fst,
    swappedResult_snd, haction, dispatchPostClassify_swapped h.tone h.serves, processChar_swapped,
    apply_ite (Option.map fun l : TypingEngine => l.swapped m history), Option.map_none,
    Option.map_some]

theorem pushSettled_swapped {keyChar : WChar} {uppercase : Bool}
    (h : KeyAgrees e m keyChar uppercase) :
    (e.swapped m history).pushSettled keyChar uppercase =
      (e.pushSettled keyChar uppercase).swapped m history := by
  have hletter := h.letter
  have haction : ((e.handleQuickStartConsonant keyChar (towlower keyChar) uppercase).1.swapped m
      history).keyAction keyChar (towlower keyChar) = _ := h.action
  simp only [pushSettled, handleQuickStartConsonant_swapped h.quick, swappedResult_fst,
    swappedResult_snd, haction, dispatchPostClassify_swapped h.tone h.serves, processChar_swapped,
    swapped_ite]
  refine ite_congr rfl (fun _ => rfl) fun hquick =>
    ite_congr rfl (fun _ => rfl) fun hdispatched => ?_
  refine finalizeRegularChar_swapped (hletter _ ?_)
  simp only [settledLetter, hquick, hdispatched, Bool.or_self, Bool.false_eq_true, if_false]

@[simp] theorem revertProvisionalOoTone_swapped (lower : WChar) :
    (e.swapped m history).revertProvisionalOoTone lower =
      swappedResult (e.revertProvisionalOoTone lower) m history := by
  rw [revertProvisionalOoTone, revertProvisionalOoTone, swappedResult_ite]
  refine ite_congr rfl (fun _ => ?_) fun _ => rfl
  simp only [swappedResult_ite]
  refine ite_congr rfl (fun _ => rfl) fun _ => ?_
  exact ite_congr rfl (fun _ => rfl) fun _ => rfl

omit [WideCType] in
theorem recordKey_swapped (keyChar : WChar) (uppercase : Bool) :
    (e.swapped m history).recordKey keyChar uppercase =
      (e.recordKey keyChar uppercase).swapped m (history ++ [keyChar]) := rfl

/-- The engine that the rules meet, with the key in its histories and the provisional tone
settled. -/
def settled (e : TypingEngine) (keyChar : WChar) (uppercase : Bool) : TypingEngine × Bool :=
  (e.recordKey keyChar uppercase).revertProvisionalOoTone (towlower keyChar)

theorem pushKey_swapped {keyChar : WChar} {uppercase : Bool}
    (h : (e.settled keyChar uppercase).2 = false →
      KeyAgrees (e.settled keyChar uppercase).1 m keyChar uppercase) :
    (e.swapped m history).pushKey keyChar uppercase =
      (e.pushKey keyChar uppercase).swapped m (history ++ [keyChar]) := by
  simp only [pushKey, recordKey_swapped, revertProvisionalOoTone_swapped, swappedResult_fst,
    swappedResult_snd, swapped_ite]
  refine ite_congr rfl (fun _ => rfl) fun hsettled => ?_
  exact pushSettled_swapped (h (Bool.eq_false_iff.mpr hsettled))

/-- The letter that the key leaves to be finished, whether typed or expanded. -/
def finishedLetter (e : TypingEngine) (keyChar : WChar) : Option TypingEngine :=
  let settled := e.settled keyChar (pushedUppercase keyChar)
  if settled.2 then none
  else
    (settled.1.quickLetter keyChar (towlower keyChar) (pushedUppercase keyChar)).or
      (settled.1.settledLetter keyChar (pushedUppercase keyChar))

theorem expandedLetter_swapped (lower : WChar) (isUpper : Bool) :
    (e.swapped m history).expandedLetter lower isUpper =
      (e.expandedLetter lower isUpper).map fun l => l.swapped m history := by
  rw [expandedLetter, expandedLetter,
    apply_ite (Option.map fun l : TypingEngine => l.swapped m history), Option.map_map]
  rfl

theorem quickLetter_swapped (keyChar lower : WChar) (isUpper : Bool) :
    (e.swapped m history).quickLetter keyChar lower isUpper =
      (e.quickLetter keyChar lower isUpper).map fun l => l.swapped m history := by
  rw [quickLetter, quickLetter, apply_ite (Option.map fun l : TypingEngine => l.swapped m history)]
  simp only [undoQuickStart_swapped, clearQuickEscape_swapped, expandedLetter_swapped]
  rfl

theorem expandQuickConsonant_of_letter {l : TypingEngine} {lower : WChar} {isUpper : Bool}
    (h : e.expandedLetter lower isUpper = some l) :
    e.expandQuickConsonant lower isUpper = some l.finalizeRegularChar := by
  rw [expandedLetter] at h
  split at h
  · rename_i hconsonant
    obtain ⟨replacement, hreplacement, rfl⟩ := Option.map_eq_some_iff.mp h
    rw [expandQuickConsonant]
    simp only [hconsonant, if_true, hreplacement, Option.map_some]
  · cases h

theorem handleQuickStartConsonant_of_letter {l : TypingEngine}
    {keyChar lower : WChar} {isUpper : Bool} (h : e.quickLetter keyChar lower isUpper = some l) :
    e.handleQuickStartConsonant keyChar lower isUpper = (l.finalizeRegularChar, true) := by
  rw [quickLetter] at h
  split at h
  · rename_i hexpands
    simp only [Bool.and_eq_true, Option.isNone_iff_eq_none, and_assoc] at hexpands
    have hopen : ((e.undoQuickStart keyChar).config.quickConsonant &&
        !(e.undoQuickStart keyChar).states.isEmpty &&
        !(e.undoQuickStart keyChar).isQuickEscaped lower) = true := by
      rw [hexpands.2.1, hexpands.2.2.1, hexpands.2.2.2]
      rfl
    rw [handleQuickStartConsonant_eq, hexpands.1]
    refine Eq.trans (if_pos hopen) ?_
    rw [expandQuickConsonant_of_letter h]
  · cases h

theorem pushSettled_of_quick {l : TypingEngine} {keyChar : WChar} {uppercase : Bool}
    (h : e.quickLetter keyChar (towlower keyChar) uppercase = some l) :
    e.pushSettled keyChar uppercase = l.finalizeRegularChar := by
  rw [pushSettled]
  simp only [handleQuickStartConsonant_of_letter h, if_true]

theorem pushSettled_of_letter {l : TypingEngine} {keyChar : WChar} {uppercase : Bool}
    (h : e.settledLetter keyChar uppercase = some l) :
    e.pushSettled keyChar uppercase = l.finalizeRegularChar := by
  rw [settledLetter] at h
  split at h
  · cases h
  · rename_i hleft
    simp only [Bool.or_eq_true, not_or, Bool.not_eq_true] at hleft
    obtain rfl := Option.some.inj h
    rw [pushSettled]
    simp only [hleft.1, hleft.2, Bool.false_eq_true, if_false]

/-- The finished letter is what the key makes of the word. -/
theorem pushChar_of_letter {l : TypingEngine} {keyChar : WChar}
    (h : e.finishedLetter keyChar = some l) :
    e.pushChar keyChar = l.finalizeRegularChar := by
  rw [finishedLetter] at h
  split at h
  · cases h
  · rename_i hsettled
    refine Eq.trans (if_neg hsettled) ?_
    rcases Option.or_eq_some_iff.mp h with hquick | ⟨-, hletter⟩
    · exact pushSettled_of_quick hquick
    · exact pushSettled_of_letter hletter

/-- The same key in the same case, in a buffer with another method and another history. -/
theorem pushChar_swapped {keyChar : WChar}
    (h : (e.settled keyChar (pushedUppercase keyChar)).2 = false →
      KeyAgrees (e.settled keyChar (pushedUppercase keyChar)).1 m keyChar
      (pushedUppercase keyChar)) :
    (e.swapped m history).pushChar keyChar =
      (e.pushChar keyChar).swapped m (history ++ [keyChar]) :=
  pushKey_swapped h

theorem respelled_swapped (e : TypingEngine)
    (h : TelexAgrees e.config.inputMethod m e.updateSpellState.recalcBias.states) :
    (e.swapped m history).updateSpellState.recalcBias =
      e.updateSpellState.recalcBias.swapped m history :=
  @recalcBias_swapped _ e.updateSpellState m history h

theorem popLetter_swapped (h : TelexAgrees e.config.inputMethod m e.popLetter.states) :
    (e.swapped m history).popLetter = e.popLetter.swapped m
      (if e.states.dropLast.isEmpty then [] else history.dropLast) := by
  rw [popLetter, popLetter]
  exact respelled_swapped { e with
    states := e.states.dropLast
    rawInput := e.rawInput.take e.lastState.rawIdx
    escRawHistory := if e.states.dropLast.isEmpty then [] else e.escRawHistory.dropLast } h

theorem undoQuickConsonant_swapped
    (h : TelexAgrees e.config.inputMethod m e.undoQuickConsonant.states) :
    (e.swapped m history).undoQuickConsonant = e.undoQuickConsonant.swapped m history := by
  let popped : TypingEngine :=
    { e with states := (undoHornU e.states (e.states.length - 1)).dropLast, qc := e.qc.markEscaped }
  let undone := if e.qc.lastKey ≠ 0 then popped.processKeyChar e.qc.lastKey else popped
  have hmethod : undone.config.inputMethod = e.config.inputMethod := by
    by_cases hkey : e.qc.lastKey ≠ 0
    · exact (congrArg (fun e : TypingEngine => e.config.inputMethod) (if_pos hkey)).trans rfl
    · exact (congrArg (fun e : TypingEngine => e.config.inputMethod) (if_neg hkey)).trans rfl
  have hundone : e.undoQuickConsonant = undone.updateSpellState.recalcBias := rfl
  have hswapped : undone.swapped m history =
      if e.qc.lastKey ≠ 0 then (popped.swapped m history).processKeyChar e.qc.lastKey
      else popped.swapped m history := swapped_ite m history _ _ _
  rw [hundone, ← respelled_swapped undone (by rw [hmethod]; exact h), hswapped]
  rfl

/-- Backspace in a buffer with letters. -/
theorem backspace_of_ne {e : TypingEngine} (h : e.states.isEmpty = false) :
    e.backspace =
      if e.quickStartKey ≠ 0 ∧ e.states.length = 2 then
        TypingEngine.updateSpellState
          { ({ e with escape := .none, states := [], rawInput := [e.quickStartKey] } :
              TypingEngine).processKeyChar e.quickStartKey with quickStartKey := 0 }
      else if e.qc.resultIndex = some (e.states.length - 1) then
        ({ e with escape := .none, quickStartKey := 0 } : TypingEngine).undoQuickConsonant
      else
        ({ e with escape := .none, quickStartKey := 0, qc := e.qc.clearActive } :
          TypingEngine).popLetter := by
  rw [backspace, if_neg (Bool.eq_false_iff.mp h)]

/-- A Backspace does the same in both methods. -/
theorem backspace_swapped (h : TelexAgrees e.config.inputMethod m e.backspace.states) :
    ∃ history', (e.swapped m history).backspace = e.backspace.swapped m history' := by
  by_cases hempty : e.states.isEmpty = true
  · refine ⟨history, ?_⟩
    rw [backspace, backspace, if_pos hempty,
      if_pos (show (e.swapped m history).states.isEmpty = true
      from hempty)]
  · have hne : e.states.isEmpty = false := Bool.eq_false_iff.mpr hempty
    have hne' : (e.swapped m history).states.isEmpty = false := hne
    rw [backspace_of_ne hne] at h ⊢
    rw [backspace_of_ne hne']
    by_cases hstart : e.quickStartKey ≠ 0 ∧ e.states.length = 2
    · rw [if_pos hstart]
      exact ⟨history, if_pos hstart⟩
    · rw [if_neg hstart] at h ⊢
      by_cases hquick : e.qc.resultIndex = some (e.states.length - 1)
      · rw [if_pos hquick] at h ⊢
        refine ⟨history, Eq.trans (if_neg hstart) (Eq.trans (if_pos hquick) ?_)⟩
        exact undoQuickConsonant_swapped (e := { e with escape := .none, quickStartKey := 0 }) h
      · rw [if_neg hquick] at h ⊢
        refine ⟨if e.states.dropLast.isEmpty then [] else history.dropLast,
          Eq.trans (if_neg hstart) (Eq.trans (if_neg hquick) ?_)⟩
        exact popLetter_swapped
          (e := { e with escape := .none, quickStartKey := 0, qc := e.qc.clearActive }) h

/-! ## The method itself -/

omit [WideCType] in
theorem InputMethod.Serves.refl (m : InputMethod) (action : TypingAction) :
    InputMethod.Serves m m action :=
  ⟨.refl m, fun _ => rfl, fun _ => rfl⟩

theorem FinishAgrees.of_eq (h : e.config.inputMethod = m) : FinishAgrees e m := by
  subst h
  exact ⟨rfl, .inl rfl⟩

theorem expandedLetter_config {l : TypingEngine} {lower : WChar} {isUpper : Bool}
    (h : e.expandedLetter lower isUpper = some l) : l.config = e.config := by
  rw [expandedLetter] at h
  split at h
  · obtain ⟨replacement, -, rfl⟩ := Option.map_eq_some_iff.mp h
    rfl
  · cases h

theorem quickLetter_config {l : TypingEngine} {keyChar lower : WChar} {isUpper : Bool}
    (h : e.quickLetter keyChar lower isUpper = some l) : l.config = e.config := by
  rw [quickLetter] at h
  split_ifs at h
  exact (expandedLetter_config h).trans (undoQuickStart_config e keyChar)

theorem handleQuickStartConsonant_inputMethod (keyChar lower : WChar) (isUpper : Bool) :
    (e.handleQuickStartConsonant keyChar lower isUpper).1.config.inputMethod =
      e.config.inputMethod :=
  congrArg (·.1.config.inputMethod) (@handleQuickStartConsonant_swapped _ e e.config.inputMethod
    e.escRawHistory keyChar lower isUpper fun _ hl =>
      .of_eq (congrArg TypingConfig.inputMethod (quickLetter_config hl)))

theorem dispatchPostClassify_inputMethod (action : TypingAction) (keyChar lower : WChar)
    (isUpper : Bool) :
    (e.dispatchPostClassify action keyChar lower isUpper).1.config.inputMethod =
      e.config.inputMethod :=
  congrArg (·.1.config.inputMethod) (@dispatchPostClassify_swapped _ e e.config.inputMethod
    e.escRawHistory action keyChar lower (.inl rfl) (.refl _ action) isUpper)

theorem settledLetter_inputMethod {l : TypingEngine} {keyChar : WChar} {uppercase : Bool}
    (h : e.settledLetter keyChar uppercase = some l) :
    l.config.inputMethod = e.config.inputMethod := by
  obtain ⟨-, rfl⟩ := settledLetter_eq h
  exact (dispatchPostClassify_inputMethod _ _ _ _).trans
    (handleQuickStartConsonant_inputMethod _ _ _)

theorem settled_inputMethod (keyChar : WChar) (uppercase : Bool) :
    (e.settled keyChar uppercase).1.config.inputMethod = e.config.inputMethod :=
  congrArg (·.1.config.inputMethod)
    (@revertProvisionalOoTone_swapped _ (e.recordKey keyChar uppercase)
    e.config.inputMethod (e.recordKey keyChar uppercase).escRawHistory (towlower keyChar))

/-- The method agrees with itself on every key. -/
theorem KeyAgrees.of_eq (h : e.config.inputMethod = m) (keyChar : WChar) (uppercase : Bool) :
    KeyAgrees e m keyChar uppercase := by
  have hquick := handleQuickStartConsonant_inputMethod (e := e) keyChar (towlower keyChar) uppercase
  rw [h] at hquick
  refine ⟨⟨?_, ?_, ?_, ?_⟩, ?_⟩
  · intro l hl
    exact .of_eq ((congrArg TypingConfig.inputMethod (quickLetter_config hl)).trans h)
  · rw [← hquick]
    rfl
  · rw [hquick]
    exact .refl m _
  · rw [TonedAgrees, hquick]
    exact .inl rfl
  · intro l hl
    exact .of_eq ((settledLetter_inputMethod hl).trans h)

/-- A key is appended to the history, and no rule reads it. -/
theorem pushChar_withHistory (keyChar : WChar) :
    (e.swapped e.config.inputMethod history).pushChar keyChar =
      (e.pushChar keyChar).swapped e.config.inputMethod (history ++ [keyChar]) :=
  pushChar_swapped fun _ => .of_eq (settled_inputMethod keyChar _) keyChar _

theorem commit_swapped :
    ((e.swapped m history).commit).1 = e.commit.1 := by
  simp only [commit, revertProvisionalOoTone_swapped, swappedResult_fst]
  rfl

end Push

end TypingEngine

end VKey
