import VKey.Engine.EditModifier

/-!
# Keys are edits

A pushed key is a sequence of edits of the buffer it is recorded in.  The hazards of the edits are
the branches the stages of the key name.
-/

namespace VKey

variable [WideCType]

/-- No quick consonant is under way. -/
def QuickIdle (e : TypingEngine) : Prop := e.quickStartKey = 0 ∧ e.qc.resultIndex = none

/-- No quick consonant will be. -/
def TypingConfig.IsQuickOff (config : TypingConfig) : Prop :=
  config.quickConsonant = false ∧ config.quickStartConsonant = false

/-- What a key does to an engine: edits of the buffer, and no quick consonant without the
options. -/
structure Pushed (hz : Hazards) (key : WChar) (p p' : Bool) (e e' : TypingEngine) : Prop where
  config_eq : e'.config = e.config
  edits : Edits e.config hz key ⟨p, e.states, e.rawInput⟩ ⟨p', e'.states, e'.rawInput⟩
  idle : e.config.IsQuickOff → QuickIdle e → QuickIdle e'

section Pushed

variable {hz : Hazards} {key : WChar} {p p' p'' : Bool} {e e' e'' : TypingEngine}

theorem Edited.pushed (h : Edited hz key p p' e e') : Pushed hz key p p' e e' :=
  ⟨h.config_eq, h.edits, fun _ hidle =>
    ⟨h.quickStartKey_eq.trans hidle.1, (congrArg _ h.qc_eq).trans hidle.2⟩⟩

theorem Pushed.trans (h : Pushed hz key p p' e e') (h' : Pushed hz key p' p'' e' e'') :
    Pushed hz key p p'' e e'' :=
  ⟨h'.config_eq.trans h.config_eq, h.edits.trans (h.config_eq ▸ h'.edits), fun hoff hidle =>
    h'.idle (h.config_eq ▸ hoff) (h.idle hoff hidle)⟩

end Pushed

omit [WideCType] in
theorem stateAt_rawIdx (ss : List CharState) (i : Nat) :
    (stateAt ss i).rawIdx = (rawIdxs ss).getD i 0 := by
  unfold stateAt rawIdxs
  rw [List.getD_eq_getElem?_getD, List.getD_eq_getElem?_getD, List.getElem?_map]
  cases ss[i]? <;> rfl

namespace TypingEngine

section Keys

variable {hz : Hazards} {key : WChar} {p : Bool} {e : TypingEngine}

/-! ## The provisional tone of `oo` -/

theorem edited_revertProvisionalOoTone {lower : WChar}
    (horder : e.hasProvisionalOoTone lower = true →
      (e.lastState.toneRawIdx.any fun t =>
        decide (t < e.lastState.rawIdx) && e.rawInput.getD t 0 != 0) = true → hz.outOfOrder) :
    Edited hz key p p e (e.revertProvisionalOoTone lower).1 := by
  unfold revertProvisionalOoTone
  split
  · rename_i hprov
    have hnil : e.states ≠ [] := by
      intro hnil
      simp [hasProvisionalOoTone, hnil] at hprov
    dsimp only
    split
    · exact .of_marks (marks_clearTone _ _)
    · rename_i hkey
      cases hidx : (stateAt e.states (e.states.length - 1)).toneRawIdx with
      | none => simp [hidx] at hkey
      | some t =>
          cases hraw : e.rawInput[t]? with
          | none => simp [hidx, hraw] at hkey
          | some k =>
              simp only [hidx, hraw, Option.bind_some, Option.getD_some] at hkey ⊢
              have hletter : IsLetter hz
                  { base := towlower k, isUpper := iswupper k, rawIdx := t } :=
                isLetter_char fun h => absurd h hkey
              have hlit : Edit e.config hz key ⟨p, e.states, e.rawInput⟩
                  ⟨p, setTone e.states (e.states.length - 1) .none none ++
                    [{ base := towlower k, isUpper := iswupper k, rawIdx := t }], e.rawInput⟩ := by
                refine .literal hnil hidx hraw (fun hlt => horder hprov ?_) hletter rfl rfl
                simp [lastState, hidx, List.getD_eq_getElem?_getD, hraw, hlt, hkey]
              split <;> exact ⟨rfl, rfl, rfl, .single hlit⟩
  · exact .refl e

theorem rawInput_revertProvisionalOoTone (e : TypingEngine) (lower : WChar) :
    (e.revertProvisionalOoTone lower).1.rawInput = e.rawInput := by
  unfold revertProvisionalOoTone
  split
  · dsimp only
    split_ifs <;> rfl
  · rfl

/-- A buffer of one letter has no provisional tone. -/
theorem revertProvisionalOoTone_of_length_one {lower : WChar}
    (h : (e.revertProvisionalOoTone lower).1.states.length = 1) :
    (e.revertProvisionalOoTone lower).1 = e := by
  unfold revertProvisionalOoTone at h ⊢
  split at h
  · rename_i hprov
    have hlen : 2 ≤ e.states.length := by
      simp only [hasProvisionalOoTone, Bool.and_eq_true, decide_eq_true_eq] at hprov
      exact hprov.1.1.1.1.1.1.1.1
    dsimp only at h
    split_ifs at h <;>
      simp only [withStates, pushState, List.length_append, length_setTone,
        List.length_singleton] at h <;> omega
  · rename_i hprov
    rw [if_neg hprov]

/-! ## Finishing a letter -/

theorem edited_revertSyntheticStart (hbeyond : e.config.inputMethod ≠ .vni → hz.beyondVni) :
    Edited hz key p p e e.revertSyntheticStart := by
  unfold revertSyntheticStart
  split
  · rename_i hstart
    simp only [hasSyntheticEnglishStart, Bool.and_eq_true, beq_iff_eq] at hstart
    have htone : (stateAt e.states 0).tone = .none := hstart.1.2
    have hmethod : e.config.inputMethod ≠ .vni := by simp [hstart.1.1.1.1.1.1.1]
    exact (Edited.of_edits (.single (.revertStart htone (hbeyond hmethod)))).trans
      (sameBuffer_setBias _ _).edited
  · exact .refl e

theorem rawIdxs_revertSyntheticStart (e : TypingEngine) :
    rawIdxs e.revertSyntheticStart.states = rawIdxs e.states := by
  unfold revertSyntheticStart
  split
  · apply rawIdxs_modify
    intro s
    rfl
  · rfl

theorem rawInput_revertSyntheticStart (e : TypingEngine) :
    e.revertSyntheticStart.rawInput = e.rawInput := by
  unfold revertSyntheticStart
  split <;> rfl

theorem edited_revertTonedUse (hbeyond : e.config.inputMethod ≠ .vni → hz.beyondVni)
    (hlast : e.lastState.rawIdx = e.rawInput.length - 1)
    (horder : e.config.isTelexMode = true → e.states.length = 2 →
      2 ≤ (stateAt e.states 0).rawIdx → startsWithUse e.rawInput = true → hz.outOfOrder) :
    Edited hz key p p e e.revertTonedUse := by
  unfold revertTonedUse
  split
  · rename_i huse
    simp only [hasTonedUse, Bool.and_eq_true, beq_iff_eq, decide_eq_true_eq] at huse
    obtain ⟨⟨⟨⟨⟨⟨⟨⟨⟨⟨⟨⟨-, htelex⟩, -⟩, hlen⟩, -⟩, -⟩, -⟩, -⟩, -⟩, hraw⟩, hu⟩, hs⟩, he⟩ := huse
    have hmethod : e.config.inputMethod ≠ .vni := by
      simp only [TypingConfig.isTelexMode, Bool.and_eq_true, bne_iff_ne] at htelex
      exact htelex.1
    have hsecond : (stateAt e.states 1).rawIdx = e.rawInput.length - 1 := by
      rw [← hlast, lastState, hlen]
    have hlower : towlower (L 's') = L 's' := WideCType.towlower_ascii _ (by decide)
    have hne : L 's' ≠ 0 := by decide
    refine (Edited.of_edits (.single (.revertUse hlen hsecond hraw (fun hfirst =>
      horder htelex hlen hfirst ?_) ⟨rfl, rfl, hlower, legalMod_none _, fun h => absurd h hne⟩ rfl
      (hbeyond hmethod)))).trans (sameBuffer_setBias _ _).edited
    simp only [startsWithUse, hraw, hu, hs, he, decide_true, beq_self_eq_true, Bool.and_true]
  · exact .refl e

omit [WideCType] in
theorem length_of_rawIdxs_eq {e e' : TypingEngine} (h : rawIdxs e'.states = rawIdxs e.states) :
    e'.states.length = e.states.length := by
  simpa [rawIdxs] using congrArg List.length h

omit [WideCType] in
theorem lastState_rawIdx_of_rawIdxs_eq {e e' : TypingEngine}
    (h : rawIdxs e'.states = rawIdxs e.states) : e'.lastState.rawIdx = e.lastState.rawIdx := by
  rw [lastState, lastState, stateAt_rawIdx, stateAt_rawIdx, h, length_of_rawIdxs_eq h]

theorem sameBuffer_checkBias (e : TypingEngine) : SameBuffer e e.checkBias :=
  ⟨rfl, rfl, rfl, rfl, rfl⟩

omit [WideCType] in
theorem sameBuffer_checkInitialBias (e : TypingEngine) : SameBuffer e e.checkInitialBias := by
  unfold checkInitialBias
  split
  · exact ⟨rfl, rfl, rfl, rfl, rfl⟩
  · exact .refl e

/-- What follows a letter that has just been appended. -/
theorem edited_finalizeRegularChar (hbeyond : e.config.inputMethod ≠ .vni → hz.beyondVni)
    (hlast : e.lastState.rawIdx = e.rawInput.length - 1)
    (horder : e.config.isTelexMode = true → e.states.length = 2 →
      2 ≤ (stateAt e.states 0).rawIdx → startsWithUse e.rawInput = true → hz.outOfOrder) :
    Edited hz key p p e e.finalizeRegularChar := by
  have hmarks : Marks e.config hz key e.states (applyAutoUO e.config.modernOrtho
      (relocateToneToTarget e.config.modernOrtho e.states)) :=
    (marks_relocateToneToTarget _ _).trans (marks_applyAutoUO _ _)
  have hmarked : Edited hz key p p e (e.withStates (applyAutoUO e.config.modernOrtho
      (relocateToneToTarget e.config.modernOrtho e.states))).updateSpellState.checkBias :=
    (Edited.of_marks hmarks).trans
      ((sameBuffer_updateSpellState _).trans (sameBuffer_checkBias _)).edited
  have hidxs : rawIdxs (e.withStates (applyAutoUO e.config.modernOrtho
      (relocateToneToTarget e.config.modernOrtho e.states))).updateSpellState.checkBias.states =
      rawIdxs e.states :=
    (rawIdxs_applyAutoUO _ _).trans (rawIdxs_relocateToneToTarget _ _)
  have hraw : (e.withStates (applyAutoUO e.config.modernOrtho
      (relocateToneToTarget e.config.modernOrtho e.states))).updateSpellState.checkBias.rawInput =
      e.rawInput := rfl
  unfold finalizeRegularChar
  dsimp only
  generalize (e.withStates (applyAutoUO e.config.modernOrtho
    (relocateToneToTarget e.config.modernOrtho e.states))).updateSpellState.checkBias = m
    at hmarked hidxs hraw ⊢
  have hstart : Edited hz key p p m m.revertSyntheticStart :=
    edited_revertSyntheticStart (hmarked.config_eq ▸ hbeyond)
  have hidxs' := (rawIdxs_revertSyntheticStart m).trans hidxs
  have hraw' := (rawInput_revertSyntheticStart m).trans hraw
  have hconfig := (hmarked.trans hstart).config_eq
  have huse : Edited hz key p p m.revertSyntheticStart m.revertSyntheticStart.revertTonedUse := by
    apply edited_revertTonedUse
    · rwa [hconfig]
    · rw [lastState_rawIdx_of_rawIdxs_eq hidxs', hraw', hlast]
    · rw [hconfig, length_of_rawIdxs_eq hidxs', stateAt_rawIdx, hidxs', ← stateAt_rawIdx, hraw']
      exact horder
  exact (hmarked.trans hstart).trans (huse.trans (sameBuffer_checkInitialBias _).edited)

theorem edited_letter {c : WChar} (isUpper : Bool) (hnul : c = 0 → hz.nul)
    (own : (p = true ∧ towlower c = towlower key) ∨ hz.beyondVni)
    (hbeyond : e.config.inputMethod ≠ .vni → hz.beyondVni)
    (horder : e.config.isTelexMode = true → e.states.length = 1 →
      2 ≤ e.lastState.rawIdx → startsWithUse e.rawInput = true → hz.outOfOrder) :
    Edited hz key p false e (e.processChar (towlower c) isUpper).finalizeRegularChar := by
  refine (edited_processChar hnul own).trans (edited_finalizeRegularChar hbeyond ?_ ?_)
  · simp [lastState, processChar, pushState, stateAt]
  · intro htelex hlen hfirst huse
    have hlen' : e.states.length = 1 := by simpa [processChar, pushState] using hlen
    refine horder htelex hlen' ?_ huse
    simpa [lastState, processChar, pushState, stateAt, hlen'] using hfirst

/-! ## Quick consonants -/

omit [WideCType] in
theorem quickReplacement_ne_zero {base lower c : WChar}
    (h : quickReplacement base lower = some c) : c ≠ 0 := by
  revert h c
  unfold quickReplacement
  repeat'
    refine iteInduction (motive := fun r => ∀ {c : WChar}, r = some c → c ≠ 0) (fun _ => ?_)
      (fun _ => ?_)
  all_goals decide +revert

/-- The letters of a quick consonant pair. -/
def IsLetterPair (pair : Option (WChar × WChar)) : Prop :=
  ∀ first second, pair = some (first, second) → first ≠ 0 ∧ second ≠ 0

omit [WideCType] in
theorem isLetterPair_none : IsLetterPair none := by simp [IsLetterPair]

omit [WideCType] in
theorem isLetterPair_some {first second : WChar} (h : first ≠ 0 ∧ second ≠ 0) :
    IsLetterPair (some (first, second)) := by
  rintro _ _ ⟨rfl, rfl⟩
  exact h

omit [WideCType] in
theorem isLetterPair_quickStartLetters (lower : WChar) :
    IsLetterPair (quickStartLetters lower) := by
  unfold quickStartLetters
  repeat' refine iteInduction (motive := IsLetterPair) (fun _ => ?_) (fun _ => ?_)
  all_goals first | exact isLetterPair_some (by decide) | exact isLetterPair_none

omit [WideCType] in
theorem isLetterPair_quickEndLetters (lower : WChar) : IsLetterPair (quickEndLetters lower) := by
  unfold quickEndLetters
  repeat' refine iteInduction (motive := IsLetterPair) (fun _ => ?_) (fun _ => ?_)
  all_goals first | exact isLetterPair_some (by decide) | exact isLetterPair_none

theorem edited_letterPair {first second : WChar} (hbeyond : hz.beyondVni) (hfirst : first ≠ 0)
    (hsecond : second ≠ 0) :
    Edited hz key p false e ((e.processKeyChar first).processKeyChar second) :=
  (edited_processKeyChar (absurd · hfirst) (.inr hbeyond)).trans
    (edited_processKeyChar (absurd · hsecond) (.inr hbeyond))

/-- The buffer a quick start consonant leaves to a key: the one before, or the key it replaced
with its letter. -/
theorem undoQuickStart_cases (e : TypingEngine) (key : WChar) :
    ((e.undoQuickStart key).states = e.states ∧ (e.undoQuickStart key).rawInput = e.rawInput) ∨
      (e.quickStartKey ≠ 0 ∧
        (e.undoQuickStart key).states = [{ base := towlower e.quickStartKey,
                                           isUpper := iswupper e.quickStartKey, rawIdx := 0 }] ∧
        (e.undoQuickStart key).rawInput = [e.quickStartKey, key]) := by
  unfold undoQuickStart
  split
  · exact .inl ⟨rfl, rfl⟩
  · rename_i hkey
    split
    · exact .inl ⟨rfl, rfl⟩
    · exact .inr ⟨hkey, rfl, rfl⟩

theorem undoQuickStart_config (e : TypingEngine) (key : WChar) :
    (e.undoQuickStart key).config = e.config := by
  unfold undoQuickStart
  split_ifs <;> rfl

theorem undoQuickStart_of_idle {e : TypingEngine} (h : QuickIdle e) (key : WChar) :
    e.undoQuickStart key = e := by
  unfold undoQuickStart
  rw [if_pos h.1]

theorem pushed_undoQuickStart (hbeyond : ¬ QuickIdle e → hz.beyondVni) :
    Pushed hz key true true e (e.undoQuickStart key) := by
  refine ⟨undoQuickStart_config e key, ?_, fun _ hidle => ?_⟩
  · rcases undoQuickStart_cases e key with ⟨hstates, hraw⟩ | ⟨hne, hstates, hraw⟩
    · rw [hstates, hraw]
    · rw [hstates, hraw]
      exact .single (.restart (isLetter_char (absurd · hne)) rfl
        (hbeyond fun hidle => hne hidle.1))
  · rw [undoQuickStart_of_idle hidle]
    exact hidle

/-- Expanding a doubled consonant or `uu` appends one letter. -/
theorem edits_expandQuickConsonant {lower : WChar} {isUpper : Bool} {e' : TypingEngine}
    (hbeyond : hz.beyondVni)
    (horder : e.config.isTelexMode = true → e.states.length = 1 →
      2 ≤ e.lastState.rawIdx → startsWithUse e.rawInput = true → hz.outOfOrder)
    (h : e.expandQuickConsonant lower isUpper = some e') :
    e'.config = e.config ∧
      Edits e.config hz key ⟨p, e.states, e.rawInput⟩ ⟨false, e'.states, e'.rawInput⟩ := by
  unfold expandQuickConsonant at h
  dsimp only at h
  split at h
  · obtain ⟨replacement, hreplacement, rfl⟩ := Option.map_eq_some_iff.mp h
    have hne := quickReplacement_ne_zero hreplacement
    have hnul : (if isUpper = true then towupper replacement else replacement) = 0 → hz.nul := by
      split
      · exact fun h => absurd (WideCType.towupper_eq_zero _ h) hne
      · exact fun h => absurd h hne
    have hedit : Edited hz key p false (e.recordExpansion lower) _ :=
      edited_letter (iswupper (if isUpper = true then towupper replacement else replacement)) hnul
        (.inr hbeyond) (fun _ => hbeyond) horder
    exact ⟨hedit.config_eq, hedit.edits⟩
  split at h
  · rename_i hu
    obtain rfl := Option.some.inj h
    have hlegal : LegalMod (stateAt e.states (e.states.length - 1)).base .horn := by
      have hbase : (stateAt e.states (e.states.length - 1)).base = L 'u' := hu.2.1
      rw [hbase]
      decide
    have ho : LegalMod (L 'o') .horn := by decide
    have hne : L 'o' ≠ 0 := by decide
    have hlower : towlower (L 'o') = L 'o' := WideCType.towlower_ascii _ (by decide)
    exact ⟨rfl, (marks_setMod hlegal p _).tail (.append
      ⟨rfl, rfl, hlower, ho, fun h => absurd h hne⟩ (nextRawIdx_eq _) (.inr hbeyond))⟩
  · simp at h

/-- What the quick start rules leave to the other rules: the recorded buffer or the restarted
one, with the key still to be used. -/
structure QuickPassed (hz : Hazards) (key : WChar) (e e' : TypingEngine) : Prop where
  pushed : Pushed hz key true true e e'
  last : e.rawInput.getLast? = some key → e'.rawInput.getLast? = some key
  buffer : (e'.states = e.states ∧ e'.rawInput = e.rawInput) ∨ e'.rawInput.length = 2

theorem quickPassed_undoQuickStart (hbeyond : ¬ QuickIdle e → hz.beyondVni) :
    QuickPassed hz key e (e.undoQuickStart key) := by
  refine ⟨pushed_undoQuickStart hbeyond, ?_, ?_⟩
  · rcases undoQuickStart_cases e key with ⟨-, hraw⟩ | ⟨-, -, hraw⟩
    · rw [hraw]
      exact id
    · simp [hraw]
  · rcases undoQuickStart_cases e key with h | ⟨-, -, hraw⟩
    · exact .inl h
    · exact .inr (by simp [hraw])

theorem QuickPassed.clearQuickEscape {e e' : TypingEngine} (h : QuickPassed hz key e e')
    (lower : WChar) : QuickPassed hz key e (e'.clearQuickEscape lower) :=
  ⟨⟨h.pushed.config_eq, h.pushed.edits, h.pushed.idle⟩, h.last, h.buffer⟩

theorem QuickPassed.order {e e' : TypingEngine} (h : QuickPassed hz key e e')
    (horder : e.config.isTelexMode = true → e.states.length = 1 →
      2 ≤ e.lastState.rawIdx → startsWithUse e.rawInput = true → hz.outOfOrder) :
    e'.config.isTelexMode = true → e'.states.length = 1 →
      2 ≤ e'.lastState.rawIdx → startsWithUse e'.rawInput = true → hz.outOfOrder := by
  rcases h.buffer with ⟨hstates, hraw⟩ | hlen
  · rw [h.pushed.config_eq, lastState, hstates, hraw]
    exact horder
  · intro _ _ _ huse
    simp [startsWithUse, hlen] at huse

/-- The quick start rules either consume the key or pass it on. -/
theorem handleQuickStartConsonant_spec (isUpper : Bool)
    (hbeyond : ¬(e.config.IsQuickOff ∧ QuickIdle e) → hz.beyondVni)
    (horder : e.config.isTelexMode = true → e.states.length = 1 →
      2 ≤ e.lastState.rawIdx → startsWithUse e.rawInput = true → hz.outOfOrder) :
    let r := e.handleQuickStartConsonant key (towlower key) isUpper
    (r.2 = true → ∃ p', Pushed hz key true p' e r.1) ∧
      (r.2 = false → QuickPassed hz key e r.1) := by
  unfold handleQuickStartConsonant
  dsimp only
  split
  · rename_i first second hpair
    split at hpair
    · rename_i hon
      simp only [Bool.and_eq_true] at hon
      have hoff : ¬ e.config.IsQuickOff := by simp [TypingConfig.IsQuickOff, hon.1]
      obtain ⟨hfirst, hsecond⟩ := isLetterPair_quickStartLetters _ _ _ hpair
      have hupper : (if isUpper = true then towupper first else first) ≠ 0 := by
        split
        · exact fun h => hfirst (WideCType.towupper_eq_zero _ h)
        · exact hfirst
      have hedit : Edited hz key true false e _ :=
        edited_letterPair (hbeyond fun h => hoff h.1) hupper hsecond
      exact ⟨fun _ => ⟨false, hedit.config_eq, hedit.edits, fun h => absurd h hoff⟩, by simp⟩
    · simp at hpair
  · have hpassed : QuickPassed hz key e
        ((e.undoQuickStart key).clearQuickEscape (towlower key)) :=
      (quickPassed_undoQuickStart fun h => hbeyond fun hoff => h hoff.2).clearQuickEscape _
    generalize (e.undoQuickStart key).isQuickEscaped (towlower key) = quickEscaped
    generalize (e.undoQuickStart key).clearQuickEscape (towlower key) = q at hpassed ⊢
    split
    · rename_i hon
      simp only [Bool.and_eq_true] at hon
      have hoff : ¬ e.config.IsQuickOff := by
        rw [← hpassed.pushed.config_eq]
        simp [TypingConfig.IsQuickOff, hon.1.1]
      split
      · rename_i expanded hexpand
        have hexpanded : expanded.config = q.config ∧ Edits q.config hz key
            ⟨true, q.states, q.rawInput⟩ ⟨false, expanded.states, expanded.rawInput⟩ :=
          edits_expandQuickConsonant (hbeyond fun h => hoff h.1) (hpassed.order horder) hexpand
        refine ⟨fun _ => ⟨false, hexpanded.1.trans hpassed.pushed.config_eq,
          hpassed.pushed.edits.trans ?_, fun h => absurd h hoff⟩, by simp⟩
        rw [← hpassed.pushed.config_eq]
        exact hexpanded.2
      · exact ⟨by simp, fun _ => hpassed⟩
    · exact ⟨by simp, fun _ => hpassed⟩

theorem handled_handleQuickEndConsonant (lower : WChar)
    (hbeyond : e.config.quickEndConsonant = true → hz.beyondVni) :
    Handled hz key e (e.handleQuickEndConsonant lower) := by
  unfold handleQuickEndConsonant
  split
  · rename_i hon
    simp only [Bool.and_eq_true] at hon
    split
    · rename_i first second hpair
      obtain ⟨hfirst, hsecond⟩ := isLetterPair_quickEndLetters _ _ _ hpair
      exact .accept ((edited_letterPair (hbeyond hon.1.1) hfirst hsecond).trans
        (sameBuffer_updateSpellState _).edited)
    · exact .reject (.refl e)
  · exact .reject (.refl e)

/-! ## Dispatch -/

omit [WideCType] in
theorem keyAction_eq (e : TypingEngine) (key lower : WChar) :
    e.keyAction key lower = .none ∨ e.keyAction key lower = methodAction e.config lower := by
  unfold keyAction
  split_ifs
  · exact .inl rfl
  · exact .inr rfl

theorem isVniModifierAction_of_modifierGates {action : TypingAction} {lower : WChar}
    (hmethod : e.config.inputMethod = .vni)
    (h : (e.modifierGates action key lower).2 = true) : action.isVniModifierAction = true := by
  unfold modifierGates at h
  simp only [hmethod, TypingConfig.isTelexMode, bne_self_eq_false, Bool.false_and] at h
  simp only [show (InputMethod.vni == InputMethod.userDefined) = false from rfl, Bool.or_false,
    Bool.and_false, Bool.false_eq_true, if_false] at h
  split at h
  · rename_i hvni
    simp only [Bool.and_eq_true] at hvni
    exact hvni.1
  · simp at h

/-- The hazards of a pushed key. -/
def pushHazards (e : TypingEngine) (key : WChar) : Hazards where
  beyondVni := ¬(e.config.IsPlainVni ∧ QuickIdle e)
  nul := key = 0
  outOfOrder := e.putsLiteralOutOfOrder key = true
  hornTone := e.relocatesToHorn key = true
  foreignTone := e.takesForeignTone key = true
  lostKey := e.takesToneKeyBack key = true
  secondTone := e.tonesSecondVowel key = true

theorem modifierHazards_of_stage {m : TypingEngine} {action : TypingAction}
    (hstage : e.modifierStage key (pushedUppercase key) = some (m, action))
    (hbeyond : action.isVniModifierAction = true ∨ (e.pushHazards key).beyondVni) :
    ModifierHazards (e.pushHazards key) key m action where
  beyond := hbeyond
  nul := id
  foreign haction huse hclass := by
    simp only [pushHazards, takesForeignTone, unrevertsUse, hstage, Option.any_some, haction, huse,
      beq_self_eq_true, Bool.and_self, Bool.true_and, bne_iff_ne]
    exact hclass
  second haction huse htoned := by
    simp only [pushHazards, tonesSecondVowel, unrevertsUse, hstage, Option.any_some, haction, huse,
      beq_self_eq_true, Bool.and_self, htoned, Bool.or_true]
  horn haction hmoves := by
    simp only [pushHazards, relocatesToHorn, hstage, Option.any_some, haction, hmoves,
      Bool.and_self]
  lost letter hletter hback hany := by
    simp only [pushHazards, takesToneKeyBack, hstage, Option.any_some, hletter, hback, hany,
      Bool.and_self]

/-- The rules after classification leave the buffer alone or edit it, with the hazards that the tone
rule, the modifier rule and the quick end rule ask for. -/
theorem handled_rules {d : TypingEngine} {action : TypingAction} (isUpper : Bool)
    (hlast : d.rawInput.getLast? = some key) (hnul : key = 0 → hz.nul)
    (haction : action = .none ∨ action = methodAction d.config (towlower key))
    (hsecond : ¬(d.escape ≠ .none ∧ d.escape ≠ .circumflex) → d.states.isEmpty = false →
      actionToTone action ≠ .none →
      (d.toneGates (actionToTone action) key (towlower key)).2 = false →
      ((d.toneGates (actionToTone action) key (towlower key)).1.toneTarget.any fun i =>
        (stateAt (d.toneGates (actionToTone action) key (towlower key)).1.states i).tone !=
            actionToTone action &&
          hasOtherTone (d.toneGates (actionToTone action) key (towlower key)).1.states i) = true →
      hz.secondTone)
    (hmodifier : ∀ toned, d.applyToneRule action key (towlower key) isUpper = (toned, false) →
      SameBuffer d toned → (toned.modifierGates action key (towlower key)).2 = true →
        ModifierHazards hz key (toned.modifierGates action key (towlower key)).1 action)
    (hquickEnd : d.config.quickEndConsonant = true → hz.beyondVni) :
    Handled hz key d (d.dispatchPostClassify action key (towlower key) isUpper) := by
  have htone : Handled hz key d (d.applyToneRule action key (towlower key) isUpper) := by
    refine handled_applyToneRule hlast hnul (fun hne => ?_) isUpper hsecond
    rcases haction with h | h
    · rw [h] at hne
      exact absurd rfl hne
    · exact h.symm
  unfold dispatchPostClassify
  generalize d.applyToneRule action key (towlower key) isUpper = toned at htone hmodifier
  dsimp only
  split
  · exact htone
  rename_i hnotone
  have hpassed := htone.same (by simpa using hnotone)
  have hmodified :
    Handled hz key toned.1 (toned.1.handleModifierAction action key (towlower key)) := by
    refine handled_handleModifierAction _
      (hmodifier toned.1 (Prod.ext rfl (by simpa using hnotone)) hpassed) ?_
    rw [hpassed.config_eq]
    rcases haction with h | h
    · rw [h]
      intro hcircumflex
      exact absurd hcircumflex (by decide)
    · rw [h]
      exact circumflexKeyNamesVowel _ _
  refine Handled.after hpassed ?_
  split
  · exact hmodified
  · rename_i hnomodifier
    have hleft := hmodified.same (by simpa using hnomodifier)
    refine Handled.after hleft (handled_handleQuickEndConsonant _ ?_)
    rw [hleft.config_eq, hpassed.config_eq]
    exact hquickEnd

/-- The rules after classification, with the hazards of the pushed key. -/
theorem handled_dispatchPostClassify {d : TypingEngine}
    (hstage : e.dispatchStage key (pushedUppercase key) = some d)
    (hconfig : d.config = e.config) (hlast : d.rawInput.getLast? = some key) :
    Handled (e.pushHazards key) key d
      (d.dispatchPostClassify (d.keyAction key (towlower key)) key (towlower key)
        (pushedUppercase key)) := by
  have haction := keyAction_eq d key (towlower key)
  generalize hact : d.keyAction key (towlower key) = action at haction ⊢
  refine handled_rules _ hlast id haction ?_ ?_ ?_
  · intro hescape hempty hne hgate hsecond
    have htoneStage : e.toneStage key (pushedUppercase key) =
        some ((d.toneGates (actionToTone action) key (towlower key)).1, actionToTone action) := by
      have hnil : ¬ d.states = [] := by simpa using hempty
      simp [toneStage, hstage, hact, hnil, hne, hgate, hescape]
    simp only [pushHazards, tonesSecondVowel, htoneStage, Option.any_some, hsecond, Bool.true_or]
  · intro toned htoned hsame hgate
    refine modifierHazards_of_stage ?_ ?_
    · simp [modifierStage, hstage, hact, htoned, hgate]
    · by_cases hmethod : e.config.inputMethod = .vni
      · exact .inl (isVniModifierAction_of_modifierGates
          (by rw [hsame.config_eq, hconfig, hmethod]) hgate)
      · exact .inr fun h => hmethod h.1.1
  · rw [hconfig]
    intro hon h
    simp [TypingConfig.IsPlainVni, hon] at h

/-- A key past the provisional tone is a sequence of edits. -/
theorem pushed_pushSettled {settled : TypingEngine}
    (hsettled : (e.recordKey key (pushedUppercase key)).revertProvisionalOoTone (towlower key) =
      (settled, false))
    (hprov : Pushed (e.pushHazards key) key true true (e.recordKey key (pushedUppercase key))
      settled)
    (hlast : settled.rawInput.getLast? = some key)
    (horder : settled.config.isTelexMode = true → settled.states.length = 1 →
      2 ≤ settled.lastState.rawIdx → startsWithUse settled.rawInput = true →
        (e.pushHazards key).outOfOrder) :
    ∃ p', Pushed (e.pushHazards key) key true p' settled
      (settled.pushSettled key (pushedUppercase key)) := by
  have hconfig : settled.config = e.config := hprov.config_eq
  have hbeyond : ¬(settled.config.IsQuickOff ∧ QuickIdle settled) →
      (e.pushHazards key).beyondVni := by
    intro h hplain
    have hoff : e.config.IsQuickOff := ⟨hplain.1.2.1, hplain.1.2.2.1⟩
    exact h ⟨hconfig ▸ hoff, hprov.idle hoff hplain.2⟩
  obtain ⟨hconsumed, hleft⟩ :=
    handleQuickStartConsonant_spec (pushedUppercase key) hbeyond horder
  unfold pushSettled
  dsimp only
  split
  · exact hconsumed ‹_›
  rename_i hquick
  have hquickFalse : (settled.handleQuickStartConsonant key (towlower key)
      (pushedUppercase key)).2 = false := by simpa using hquick
  have hpassed := hleft hquickFalse
  have hstage : e.dispatchStage key (pushedUppercase key) =
      some (settled.handleQuickStartConsonant key (towlower key) (pushedUppercase key)).1 := by
    simp [dispatchStage, hsettled, hquickFalse]
  generalize (settled.handleQuickStartConsonant key (towlower key) (pushedUppercase key)).1 = d
    at hpassed hstage ⊢
  have hdispatch := handled_dispatchPostClassify hstage
    (hpassed.pushed.config_eq.trans hconfig) (hpassed.last hlast)
  split
  · rename_i htrue
    obtain ⟨p', hedit⟩ := hdispatch.edited htrue
    exact ⟨p', hpassed.pushed.trans hedit.pushed⟩
  · rename_i hfalse
    have hsame := hdispatch.same (by simpa using hfalse)
    refine ⟨false, hpassed.pushed.trans (hsame.edited.trans
      (edited_letter _ id (.inl ⟨rfl, rfl⟩) ?_ ?_)).pushed⟩
    · rw [hsame.config_eq, hpassed.pushed.config_eq, hconfig]
      exact fun hmethod hplain => hmethod hplain.1.1
    · rw [hsame.config_eq, hsame.rawInput_eq, lastState, hsame.states_eq]
      exact hpassed.order horder

/-- A pushed key is a sequence of edits of the buffer it is recorded in. -/
theorem pushed_pushChar (e : TypingEngine) (key : WChar) :
    ∃ p', Pushed (e.pushHazards key) key true p' (e.recordKey key (pushedUppercase key))
      (e.pushChar key) := by
  have hprov : Edited (e.pushHazards key) key true true (e.recordKey key (pushedUppercase key))
      ((e.recordKey key (pushedUppercase key)).revertProvisionalOoTone (towlower key)).1 := by
    refine edited_revertProvisionalOoTone fun hoo hbefore => ?_
    have hoo' : e.hasProvisionalOoTone (towlower key) = true := hoo
    have hbefore' : (e.lastState.toneRawIdx.any fun t =>
      decide (t < e.lastState.rawIdx) && (e.rawInput ++ [key]).getD t 0 != 0) = true := hbefore
    simp only [pushHazards, putsLiteralOutOfOrder, hoo', hbefore', Bool.and_self, Bool.true_or]
  have hraw := rawInput_revertProvisionalOoTone (e.recordKey key (pushedUppercase key))
    (towlower key)
  have horder : ((e.recordKey key (pushedUppercase key)).revertProvisionalOoTone
        (towlower key)).1.config.isTelexMode = true →
      ((e.recordKey key (pushedUppercase key)).revertProvisionalOoTone
        (towlower key)).1.states.length = 1 →
      2 ≤ ((e.recordKey key (pushedUppercase key)).revertProvisionalOoTone
        (towlower key)).1.lastState.rawIdx →
      startsWithUse ((e.recordKey key (pushedUppercase key)).revertProvisionalOoTone
        (towlower key)).1.rawInput = true → (e.pushHazards key).outOfOrder := by
    intro htelex hlen hidx huse
    have hsame := revertProvisionalOoTone_of_length_one hlen
    rw [hsame] at htelex hlen hidx huse
    have htelex' : e.config.isTelexMode = true := htelex
    have hlen' : e.states.length = 1 := hlen
    have hidx' : 2 ≤ e.lastState.rawIdx := hidx
    have huse' : startsWithUse (e.rawInput ++ [key]) = true := huse
    simp only [pushHazards, putsLiteralOutOfOrder, htelex', hlen', hidx', huse',
      beq_self_eq_true, decide_true, Bool.and_self, Bool.or_true]
  have hpush : e.pushChar key = e.pushKey key (pushedUppercase key) := rfl
  rw [hpush]
  unfold pushKey
  dsimp only
  generalize hsettled : (e.recordKey key (pushedUppercase key)).revertProvisionalOoTone
    (towlower key) = settled at hprov hraw horder ⊢
  split
  · exact ⟨true, ⟨hprov.config_eq, hprov.edits, hprov.pushed.idle⟩⟩
  · rename_i hfalse
    have hpair : settled = (settled.1, false) := Prod.ext rfl (by simpa using hfalse)
    have hlast : settled.1.rawInput.getLast? = some key := by
      rw [hraw]
      simp [recordKey]
    obtain ⟨p', hpushed⟩ := pushed_pushSettled (hsettled.trans hpair) hprov.pushed hlast horder
    exact ⟨p', hprov.pushed.trans hpushed⟩

/-! ## Backspace -/

/-- The only hazard of undoing a quick consonant. -/
def undoHazards : Hazards where
  beyondVni := True
  nul := False
  outOfOrder := False
  hornTone := False
  foreignTone := False
  lostKey := False
  secondTone := False

/-- Undoing a quick consonant is a sequence of edits. -/
theorem edits_undoQuickConsonant (e : TypingEngine) (key : WChar) :
    Edits e.config undoHazards key ⟨false, e.states, e.rawInput⟩
      ⟨false, e.undoQuickConsonant.states, e.undoQuickConsonant.rawInput⟩ := by
  have hmarks : Marks e.config undoHazards key e.states
      (undoHornU e.states (e.states.length - 1)) := marks_undoHornU _ _
  have hpop : Edits e.config undoHazards key ⟨false, e.states, e.rawInput⟩
      ⟨false, (undoHornU e.states (e.states.length - 1)).dropLast, e.rawInput⟩ := by
    rw [← List.eraseIdx_length_sub_one]
    exact (hmarks false _).tail (.remove trivial)
  unfold undoQuickConsonant
  dsimp only
  split_ifs with hkey
  · exact hpop.trans (edited_processKeyChar (e := { e with
      states := (undoHornU e.states (e.states.length - 1)).dropLast, qc := e.qc.markEscaped })
      (absurd · hkey) (.inr trivial)).edits
  · exact hpop

/-- What Backspace does: nothing to an empty buffer; it restores the key of a quick start
consonant, undoes another quick consonant, or deletes the last letter with its raw keys. -/
theorem backspace_cases (e : TypingEngine) (key : WChar) :
    e.backspace.config = e.config ∧ (QuickIdle e → QuickIdle e.backspace) ∧
    ((e.backspace.states = e.states ∧ e.backspace.rawInput = e.rawInput ∧ e.states = []) ∨
      (e.quickStartKey ≠ 0 ∧
        e.backspace.states = [{ base := towlower e.quickStartKey,
                                isUpper := iswupper e.quickStartKey, rawIdx := 0 }] ∧
        e.backspace.rawInput = [e.quickStartKey]) ∨
      (¬ QuickIdle e ∧ e.states ≠ [] ∧
        Edits e.config undoHazards key ⟨false, e.states, e.rawInput⟩
          ⟨false, e.backspace.states, e.backspace.rawInput⟩) ∨
      (e.deletesRawKeys = true ∧ e.backspace.states = e.states.dropLast ∧
        e.backspace.rawInput = e.rawInput.take e.lastState.rawIdx)) := by
  unfold backspace
  split
  · rename_i hempty
    exact ⟨rfl, id, .inl ⟨rfl, rfl, List.isEmpty_iff.mp hempty⟩⟩
  rename_i hempty
  have hne : e.states ≠ [] := by simpa using hempty
  dsimp only
  split
  · rename_i hstart
    exact ⟨rfl, fun hidle => absurd hidle.1 hstart.1, .inr (.inl ⟨hstart.1, rfl, rfl⟩)⟩
  rename_i hstart
  split
  · rename_i hresult
    have hidle : ¬ QuickIdle e := fun hidle => by simp [hidle.2] at hresult
    have hedits := edits_undoQuickConsonant { e with escape := .none, quickStartKey := 0 } key
    refine ⟨?_, fun h => absurd h hidle, .inr (.inr (.inl ⟨hidle, hne, hedits⟩))⟩
    unfold undoQuickConsonant
    dsimp only
    split_ifs <;> rfl
  · rename_i hresult
    refine ⟨rfl, fun _ => ⟨rfl, rfl⟩, .inr (.inr (.inr ⟨?_, rfl, rfl⟩))⟩
    simp only [deletesRawKeys, Bool.and_eq_true, Bool.not_eq_true', bne_iff_ne, ne_eq]
    refine ⟨⟨by simpa using hempty, ?_⟩, hresult⟩
    simpa using hstart

end Keys

end TypingEngine

end VKey
