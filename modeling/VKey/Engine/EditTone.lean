import VKey.Engine.EditMarks

/-!
# Tone keys are edits

An engine is edited into another one by a sequence of edits of its buffer, the configuration and
the quick consonants being left alone.  A handler that rejects its key leaves the whole buffer
alone.
-/

namespace VKey

variable [WideCType]

/-! ## Engines with the same buffer -/

/-- The engines agree but for spelling, escape and bias. -/
structure SameBuffer (e e' : TypingEngine) : Prop where
  config_eq : e'.config = e.config
  states_eq : e'.states = e.states
  rawInput_eq : e'.rawInput = e.rawInput
  qc_eq : e'.qc = e.qc
  quickStartKey_eq : e'.quickStartKey = e.quickStartKey

omit [WideCType] in
theorem SameBuffer.refl (e : TypingEngine) : SameBuffer e e := ⟨rfl, rfl, rfl, rfl, rfl⟩

omit [WideCType] in
theorem SameBuffer.trans {e e' e'' : TypingEngine} (h : SameBuffer e e')
    (h' : SameBuffer e' e'') : SameBuffer e e'' :=
  ⟨h'.config_eq.trans h.config_eq, h'.states_eq.trans h.states_eq,
    h'.rawInput_eq.trans h.rawInput_eq, h'.qc_eq.trans h.qc_eq,
    h'.quickStartKey_eq.trans h.quickStartKey_eq⟩

/-- The engine is edited into another one. -/
structure Edited (hz : Hazards) (key : WChar) (p p' : Bool) (e e' : TypingEngine) : Prop where
  config_eq : e'.config = e.config
  qc_eq : e'.qc = e.qc
  quickStartKey_eq : e'.quickStartKey = e.quickStartKey
  edits : Edits e.config hz key ⟨p, e.states, e.rawInput⟩ ⟨p', e'.states, e'.rawInput⟩

/-- What a handler of a key may return: the same buffer if it rejects the key, an edited engine if
it consumes the key. -/
def Handled (hz : Hazards) (key : WChar) (e : TypingEngine) (r : TypingEngine × Bool) : Prop :=
  if r.2 then ∃ p', Edited hz key true p' e r.1 else SameBuffer e r.1

section Edited

variable {hz : Hazards} {key : WChar} {p p' p'' : Bool} {e e' e'' : TypingEngine}

theorem SameBuffer.edited (h : SameBuffer e e') : Edited hz key p p e e' :=
  ⟨h.config_eq, h.qc_eq, h.quickStartKey_eq, by rw [h.states_eq, h.rawInput_eq]⟩

theorem Edited.refl (e : TypingEngine) : Edited hz key p p e e := (SameBuffer.refl e).edited

theorem Edited.trans (h : Edited hz key p p' e e') (h' : Edited hz key p' p'' e' e'') :
    Edited hz key p p'' e e'' :=
  ⟨h'.config_eq.trans h.config_eq, h'.qc_eq.trans h.qc_eq,
    h'.quickStartKey_eq.trans h.quickStartKey_eq, h.edits.trans (h.config_eq ▸ h'.edits)⟩

theorem Handled.reject (h : SameBuffer e e') : Handled hz key e (e', false) := h

theorem Handled.accept (h : Edited hz key true p' e e') : Handled hz key e (e', true) := ⟨p', h⟩

theorem Handled.same {r : TypingEngine × Bool} (h : Handled hz key e r) (hr : r.2 = false) :
    SameBuffer e r.1 := by
  simpa [Handled, hr] using h

theorem Handled.edited {r : TypingEngine × Bool} (h : Handled hz key e r) (hr : r.2 = true) :
    ∃ p', Edited hz key true p' e r.1 := by
  simpa [Handled, hr] using h

/-- What a handler does after another one has prepared the engine. -/
theorem Handled.after {r : TypingEngine × Bool} (h : SameBuffer e e')
    (hr : Handled hz key e' r) : Handled hz key e r := by
  unfold Handled at hr ⊢
  split_ifs with hb
  · rw [if_pos hb] at hr
    obtain ⟨p', hedit⟩ := hr
    exact ⟨p', h.edited.trans hedit⟩
  · rw [if_neg hb] at hr
    exact h.trans hr

theorem Edited.of_edits {ss : List CharState}
    (h : Edits e.config hz key ⟨p, e.states, e.rawInput⟩ ⟨p', ss, e.rawInput⟩) :
    Edited hz key p p' e (e.withStates ss) :=
  ⟨rfl, rfl, rfl, h⟩

theorem Edited.of_marks {ss : List CharState} (h : Marks e.config hz key e.states ss) :
    Edited hz key p p e (e.withStates ss) :=
  ⟨rfl, rfl, rfl, h p e.rawInput⟩

end Edited

namespace TypingEngine

/-! ## Functions that keep the buffer -/

omit [WideCType] in
theorem sameBuffer_setBias (e : TypingEngine) (bias : LanguageBias) :
    SameBuffer e (e.setBias bias) := ⟨rfl, rfl, rfl, rfl, rfl⟩

theorem sameBuffer_updateSpellState (e : TypingEngine) : SameBuffer e e.updateSpellState :=
  ⟨rfl, rfl, rfl, rfl, rfl⟩

theorem sameBuffer_recalcBias (e : TypingEngine) : SameBuffer e e.recalcBias :=
  ⟨rfl, rfl, rfl, rfl, rfl⟩

theorem sameBuffer_englishGate (e : TypingEngine) (tone : Tone) (keyChar : WChar)
    (isTelexTone : Bool) : SameBuffer e (e.englishGate tone keyChar isTelexTone).1 := by
  unfold englishGate
  dsimp only
  split_ifs <;> exact ⟨rfl, rfl, rfl, rfl, rfl⟩

theorem sameBuffer_toneGates (e : TypingEngine) (tone : Tone) (keyChar lower : WChar) :
    SameBuffer e (e.toneGates tone keyChar lower).1 := by
  unfold toneGates
  dsimp only
  split_ifs
  · exact .refl e
  · exact .refl e
  · exact .refl e
  · exact sameBuffer_englishGate e tone keyChar _
  · exact sameBuffer_englishGate e tone keyChar _

omit [WideCType] in
theorem sameBuffer_strokePrecheck (e : TypingEngine) (action strokeAction : TypingAction) :
    SameBuffer e (e.strokePrecheck action strokeAction) := by
  unfold strokePrecheck
  dsimp only
  split_ifs
  · exact sameBuffer_setBias e _
  · exact .refl e

theorem sameBuffer_modifierGates (e : TypingEngine) (action : TypingAction)
    (keyChar lower : WChar) : SameBuffer e (e.modifierGates action keyChar lower).1 := by
  unfold modifierGates
  dsimp only
  split_ifs
  · exact sameBuffer_strokePrecheck e action _
  · exact sameBuffer_strokePrecheck e action _
  · exact .refl e
  · exact .refl e

/-! ## Letters -/

omit [WideCType] in
@[simp] theorem nextRawIdx_eq (e : TypingEngine) : e.nextRawIdx = e.rawInput.length - 1 := by
  unfold nextRawIdx
  split_ifs with h
  · simp [List.isEmpty_iff.mp h]
  · rfl

section Letters

variable {hz : Hazards} {key : WChar} {p : Bool} {e : TypingEngine}

theorem edited_pushState {s : CharState} (letter : IsLetter hz s)
    (hidx : s.rawIdx = e.rawInput.length - 1)
    (own : (p = true ∧ s.base = towlower key) ∨ hz.beyondVni) :
    Edited hz key p false e (e.pushState s) :=
  ⟨rfl, rfl, rfl, .single (.append letter hidx own)⟩

theorem isLetter_char {c : WChar} {isUpper : Bool} {rawIdx : Nat} (hnul : c = 0 → hz.nul) :
    IsLetter hz { base := towlower c, isUpper, rawIdx } where
  tone_eq := rfl
  toneRawIdx_eq := rfl
  lower := WideCType.towlower_towlower c
  legal := legalMod_none _
  nul h := hnul (WideCType.towlower_eq_zero c h)

theorem edited_processChar {c : WChar} {isUpper : Bool} (hnul : c = 0 → hz.nul)
    (own : (p = true ∧ towlower c = towlower key) ∨ hz.beyondVni) :
    Edited hz key p false e (e.processChar (towlower c) isUpper) :=
  edited_pushState (isLetter_char hnul) (nextRawIdx_eq e) own

theorem edited_processKeyChar {c : WChar} (hnul : c = 0 → hz.nul)
    (own : (p = true ∧ towlower c = towlower key) ∨ hz.beyondVni) :
    Edited hz key p false e (e.processKeyChar c) :=
  edited_processChar hnul own

/-- Changed states followed by the key as a letter. -/
theorem edited_escapeTo {ss : List CharState} {c : WChar} {kind : EscapeKind}
    (h : Edits e.config hz key ⟨p, e.states, e.rawInput⟩ ⟨p, ss, e.rawInput⟩)
    (hnul : c = 0 → hz.nul)
    (own : (p = true ∧ towlower c = towlower key) ∨ hz.beyondVni) :
    Edited hz key p false e (e.escapeTo ss c kind) := by
  have hstates : Edited hz key p p e (e.withStates ss) := .of_edits h
  have hletter := hstates.trans (edited_processKeyChar hnul own)
  exact ⟨hletter.config_eq, hletter.qc_eq, hletter.quickStartKey_eq, hletter.edits⟩

/-- Taking the tone of a state back: the key becomes a letter in its place or at the end. -/
theorem edited_restoreConsumedKey {i : Nat} (hlast : e.rawInput.getLast? = some key)
    (hnul : key = 0 → hz.nul) (htone : (stateAt e.states i).tone ≠ .none)
    (hclass : actionToTone (methodAction e.config (towlower key)) = (stateAt e.states i).tone) :
    Edited hz key true false e
      ((e.withStates (setTone e.states i .none none)).restoreConsumedKeyInPlace
        (stateAt e.states i).toneRawIdx key) := by
  have happend : Edited hz key true false e
      ((e.withStates (setTone e.states i .none none)).processKeyChar key) :=
    (Edited.of_marks (marks_clearTone e.states i)).trans
      (edited_processKeyChar hnul (.inl ⟨rfl, rfl⟩))
  cases hidx : (stateAt e.states i).toneRawIdx with
  | none => exact happend
  | some idx =>
      unfold restoreConsumedKeyInPlace
      dsimp only
      have hraw : (e.withStates (setTone e.states i .none none)).rawInput = e.rawInput := rfl
      have hne : e.rawInput ≠ [] := by
        rintro hnil
        simp [hnil] at hlast
      rw [hraw]
      split_ifs with hle hkey
      · exact happend
      · simp [hlast] at hkey
      · have herase : (e.withStates (setTone e.states i .none none)).eraseConsumedRaw
            (e.rawInput.length - 1) =
            { e with
              rawInput := e.rawInput.eraseIdx (e.rawInput.length - 1)
              states := (setTone e.states i .none none).map
                (CharState.shiftRaw (e.rawInput.length - 1)) } := by
          unfold eraseConsumedRaw
          have hpos := List.length_pos_iff.mpr hne
          rw [hraw, if_neg (by omega)]
          rfl
        rw [herase]
        exact ⟨rfl, rfl, rfl, .single (.putBack htone hidx (by omega) hclass
          (isLetter_char hnul) rfl rfl)⟩

end Letters

/-! ## The tone handlers -/

section Tone

variable {hz : Hazards} {key : WChar} {e : TypingEngine}

omit [WideCType] in
theorem stateAt_tone_eq_none_of_not_hasOtherTone {ss : List CharState} {i : Nat}
    (h : hasOtherTone ss i = false) (j : Nat) (hj : j ≠ i) : (stateAt ss j).tone = .none := by
  by_cases hlt : j < ss.length
  · simp only [hasOtherTone, List.any_eq_false, List.mem_range, Bool.and_eq_true, bne_iff_ne,
      ne_eq, CharState.hasTone, not_and, not_not] at h
    exact h j hlt hj
  · simp [stateAt, List.getD_eq_getElem?_getD, hlt]

theorem edited_processTone {tone : Tone} {r : TypingEngine}
    (hlast : e.rawInput.getLast? = some key) (hnul : key = 0 → hz.nul) (htone : tone ≠ .none)
    (hclass : actionToTone (methodAction e.config (towlower key)) = tone)
    (hsecond : (e.toneTarget.any fun i =>
      (stateAt e.states i).tone != tone && hasOtherTone e.states i) = true → hz.secondTone)
    (hr : e.processTone tone key = (r, true)) : Edited hz key true false e r := by
  unfold processTone at hr
  rw [if_neg htone] at hr
  cases htarget : e.toneTarget with
  | none => simp [htarget] at hr
  | some i =>
      have hvowel := (findToneTarget_spec htarget).2
      simp only [htarget] at hr
      split_ifs at hr with hsame
      · obtain rfl := (Prod.mk.inj hr).1
        have hedit := edited_restoreConsumedKey (e := e) hlast hnul (hsame ▸ htone)
          (hclass.trans hsame.symm)
        exact ⟨hedit.config_eq, hedit.qc_eq, hedit.quickStartKey_eq, hedit.edits⟩
      · obtain rfl := (Prod.mk.inj hr).1
        refine ⟨rfl, rfl, rfl, .single (.tone htone hvowel hclass ?_)⟩
        cases hother : hasOtherTone e.states i with
        | false => exact .inl (stateAt_tone_eq_none_of_not_hasOtherTone hother)
        | true => exact .inr (hsecond (by simp [htarget, hother, hsame]))

theorem edited_finishTone {p : Bool} (e : TypingEngine) :
    Edited hz key p p e e.finishTone := by
  unfold finishTone
  have hsame :
    SameBuffer e (if e.escape.isEscaped then e.recalcBias else e.setBias .vietnamese) := by
    split_ifs
    · exact sameBuffer_recalcBias e
    · exact sameBuffer_setBias e _
  refine hsame.edited.trans ((Edited.of_marks (marks_applyAutoUO _ _)).trans
    (sameBuffer_updateSpellState _).edited)

theorem handled_processClearTone (hz : Hazards) (key : WChar) (e : TypingEngine) :
    Handled hz key e e.processClearTone := by
  unfold processClearTone
  cases e.toneTarget with
  | none => exact .reject (.refl e)
  | some i =>
      dsimp only
      split_ifs
      · exact .reject (.refl e)
      · exact .accept (Edited.of_marks (p := true) (marks_clearTone e.states i))

theorem handled_clearTone (hnul : key = 0 → hz.nul) (isUpper : Bool) :
    Handled hz key e (e.handleToneFsm .clearTone key (towlower key) isUpper) := by
  unfold handleToneFsm
  rw [if_pos rfl]
  split_ifs with hempty hgate
  · exact .reject (.refl e)
  · exact .accept ((edited_processKeyChar hnul (.inl ⟨rfl, rfl⟩)).trans
      (sameBuffer_updateSpellState _).edited)
  · have hclear := handled_processClearTone hz key e
    generalize e.processClearTone = cleared at hclear ⊢
    dsimp only
    split_ifs with htrue
    · obtain ⟨p', hedit⟩ := hclear.edited htrue
      exact .accept (hedit.trans (sameBuffer_updateSpellState _).edited)
    · exact .reject (.refl e)

theorem handled_handleTone {tone : Tone} (hlast : e.rawInput.getLast? = some key)
    (hnul : key = 0 → hz.nul) (htone : tone ≠ .none)
    (hclass : actionToTone (methodAction e.config (towlower key)) = tone) (isUpper : Bool)
    (hsecond : (e.toneGates tone key (towlower key)).2 = false →
      ((e.toneGates tone key (towlower key)).1.toneTarget.any fun i =>
        (stateAt (e.toneGates tone key (towlower key)).1.states i).tone != tone &&
          hasOtherTone (e.toneGates tone key (towlower key)).1.states i) = true → hz.secondTone) :
    Handled hz key e (e.handleTone tone key (towlower key) isUpper) := by
  have hgates := sameBuffer_toneGates e tone key (towlower key)
  unfold handleTone
  generalize e.toneGates tone key (towlower key) = gated at hgates hsecond ⊢
  refine Handled.after hgates ?_
  dsimp only
  split_ifs with hrejected happlied
  · exact .accept ((edited_processChar hnul (.inl ⟨rfl, rfl⟩)).trans
      (sameBuffer_updateSpellState _).edited)
  · refine .accept ((edited_processTone (hgates.rawInput_eq ▸ hlast) hnul htone
      (hgates.config_eq ▸ hclass) (hsecond (by simpa using hrejected))
      (Prod.ext rfl happlied)).trans (edited_finishTone _))
  · exact .reject (.refl _)

/-- The tone rule either leaves the buffer alone or edits it, with a second tone only if its stage
says so. -/
theorem handled_applyToneRule {action : TypingAction} (hlast : e.rawInput.getLast? = some key)
    (hnul : key = 0 → hz.nul)
    (hclass : actionToTone action ≠ .none → methodAction e.config (towlower key) = action)
    (isUpper : Bool)
    (hsecond : ¬(e.escape ≠ .none ∧ e.escape ≠ .circumflex) → e.states.isEmpty = false →
      actionToTone action ≠ .none →
      (e.toneGates (actionToTone action) key (towlower key)).2 = false →
      ((e.toneGates (actionToTone action) key (towlower key)).1.toneTarget.any fun i =>
        (stateAt (e.toneGates (actionToTone action) key (towlower key)).1.states i).tone !=
            actionToTone action &&
          hasOtherTone (e.toneGates (actionToTone action) key (towlower key)).1.states i) = true →
      hz.secondTone) :
    Handled hz key e (e.applyToneRule action key (towlower key) isUpper) := by
  unfold applyToneRule
  split_ifs with hescape
  · exact .reject (.refl e)
  · rw [not_or] at hescape
    by_cases hclear : action = .clearTone
    · subst hclear
      exact handled_clearTone hnul isUpper
    · unfold handleToneFsm
      rw [if_neg hclear]
      split_ifs with hempty htone
      · exact .reject (.refl e)
      · exact .reject (.refl e)
      · exact handled_handleTone hlast hnul htone (by rw [hclass htone]) isUpper
          (hsecond hescape.1 (by simpa using hempty) htone)

end Tone

end TypingEngine

end VKey
