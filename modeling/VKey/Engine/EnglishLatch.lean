import VKey.Engine.DeadEnd
import VKey.Engine.MethodSwap

/-!
# The latched English bias

Once a word counts as English it stays so until Backspace recomputes the bias, and modifier keys are
letters from then on.  The module proves that the engine latches the bias at dead ends only, where
no tone makes the word a complete Vietnamese syllable, with one exception: a leading `ư` without a
tone, typed as `w`, is turned back into `w` in front of a vowel although the option lets words begin
with `w`.
-/

namespace VKey

open Phonology

/-! ## Marks keep the letters -/

section Marks

theorem markFree_base : MarkFree CharState.base := ⟨fun _ _ => rfl, fun _ _ _ => rfl⟩

theorem markFree_synthetic : MarkFree CharState.synthetic := ⟨fun _ _ => rfl, fun _ _ _ => rfl⟩

@[simp] theorem bases_setMod (states : List CharState) (i : Nat) (mod : Modifier) :
    bases (setMod states i mod) = bases states :=
  markFree_base.map_setMod states i mod

@[simp] theorem bases_setTone (states : List CharState) (i : Nat) (tone : Tone)
    (toneRawIdx : Option Nat) : bases (setTone states i tone toneRawIdx) = bases states :=
  markFree_base.map_setTone states i tone toneRawIdx

theorem stateAt_of_map_eq {β : Type} {f : CharState → β} {states states' : List CharState}
    (h : states'.map f = states.map f) (i : Nat) :
    f (stateAt states' i) = f (stateAt states i) := by
  rw [stateAt, stateAt, ← List.getD_map states' {} f, ← List.getD_map states {} f, h]

theorem isVowel_of_bases_eq {states states' : List CharState} (h : bases states' = bases states)
    (i : Nat) : (stateAt states' i).isVowel = (stateAt states i).isVowel := by
  rw [← isVowelBase_base, ← isVowelBase_base, stateAt_of_map_eq h]

end Marks

namespace TypingEngine

section Latch

variable [WideCType]

/-! ## The letter that is finished -/

/-- A leading `ư` would be turned back into `w` in front of a vowel, where words may begin with
`w`. -/
def restoresInitialW (e : TypingEngine) : Bool :=
  e.config.allowZwjf && e.lettered.hasSyntheticEnglishStart && (stateAt e.states 1).isVowel

/-- The action restores no initial `w` in front of a vowel. -/
def KeepsInitialU (e : TypingEngine) : Op → Prop
  | .pushChar keyChar => (e.finishedLetter keyChar).any restoresInitialW = false
  | .backspace => True

instance decidableKeepsInitialU (e : TypingEngine) : (op : Op) → Decidable (e.KeepsInitialU op)
  | .pushChar _ => inferInstanceAs (Decidable (_ = _))
  | .backspace => inferInstanceAs (Decidable True)

/-! ## Latching at dead ends -/

/-- A latched bias stands at a dead end. -/
def Untrapped (e : TypingEngine) : Prop :=
  e.engProt.bias = .hardEnglish → IsDeadEnd e.config.allowZwjf e.states

section Untrapped

variable {e e' : TypingEngine}

omit [WideCType] in
theorem Untrapped.of_bias (h : e.engProt.bias ≠ .hardEnglish) : Untrapped e :=
  fun hard => absurd hard h

omit [WideCType] in
theorem Untrapped.extend (h : Untrapped e) (hconfig : e'.config = e.config)
    (hbias : e'.engProt.bias = .hardEnglish → e.engProt.bias = .hardEnglish)
    (hbegins : bases e.states <+: bases e'.states) : Untrapped e' := by
  intro hard
  rw [hconfig]
  exact (h (hbias hard)).of_isPrefix hbegins

omit [WideCType] in
theorem Untrapped.congr (h : Untrapped e) (hconfig : e'.config = e.config)
    (hbias : e'.engProt.bias = .hardEnglish → e.engProt.bias = .hardEnglish)
    (hbases : bases e'.states = bases e.states) : Untrapped e' :=
  h.extend hconfig hbias (by rw [hbases])

omit [WideCType] in
theorem bases_prefix_append (states tail : List CharState) :
    bases states <+: bases (states ++ tail) := by
  rw [bases, bases, List.map_append]
  exact List.prefix_append _ _

omit [WideCType] in
theorem not_isDeadEnd_nil (allowZwjf : Bool) : ¬IsDeadEnd allowZwjf [] := by
  intro h
  have hvalid : validateSyllableState [{ base := L 'a' }] allowZwjf = .valid := by
    cases allowZwjf <;> decide
  exact (h.append [{ base := L 'a' }]).not_valid rfl hvalid

omit [WideCType] in
theorem Untrapped.bias_of_nil (h : Untrapped e) (hnil : e.states = []) :
    e.engProt.bias ≠ .hardEnglish := by
  intro hard
  have hdead := h hard
  rw [hnil] at hdead
  exact not_isDeadEnd_nil _ hdead

theorem untrapped_recalcBias (e : TypingEngine) : Untrapped e.recalcBias := by
  intro hard
  unfold recalcBias at hard ⊢
  dsimp only at hard ⊢
  split_ifs at hard
  · rcases bias_checkZwjfInitialBias hard with hrecalc | hdead
    · exact isDeadEnd_of_recalcEnglishBias hrecalc
    · exact hdead
  · exact isDeadEnd_of_recalcEnglishBias hard

end Untrapped

/-! ## Finishing a letter -/

section Finish

variable {e : TypingEngine}

theorem map_lettered {β : Type} {f : CharState → β} (hf : MarkFree f) (e : TypingEngine) :
    e.lettered.states.map f = e.states.map f :=
  (hf.map_applyAutoUO _ _).trans (hf.map_relocateToneToTarget _ _)

theorem bases_lettered (e : TypingEngine) : bases e.lettered.states = bases e.states :=
  map_lettered markFree_base e

theorem untrapped_lettered (h : Untrapped e) : Untrapped e.lettered := by
  intro hard
  rcases bias_checkEnglishBias hard with hbefore | hdead
  · exact (h hbefore).congr (bases_lettered e)
  · exact hdead

omit [WideCType] in
theorem isDeadEnd_w_consonant {allowZwjf : Bool} {states : List CharState}
    (hlen : 2 ≤ states.length)
    (hfirst : (stateAt states 0).base = L 'w') (hsecond : (stateAt states 1).isVowel = false) :
    IsDeadEnd allowZwjf states := by
  have hw : isVowelBase (stateAt states 0).base = false := by
    rw [hfirst]
    decide
  refine isDeadEnd_of_onset (by simpa [hw, isVowelBase_base] using hsecond) (pair_prefix_bases hlen)
    fun onset honset hbegins => ?_
  have hno : ∀ p ∈ pairOnsets, p.1 ≠ L 'w' := by decide
  exact hno _ (mem_pairOnsets_of_isPrefix honset hbegins) hfirst

omit [WideCType] in
/-- A first letter that becomes `w` leads nowhere, but in front of a vowel where words may begin
with `w`. -/
theorem isDeadEnd_modify_w {allowZwjf : Bool} {states : List CharState} {g : CharState → CharState}
    (hg : ∀ s, (g s).base = L 'w') (hlen : 2 ≤ states.length)
    (hkeep : allowZwjf = true → (stateAt states 1).isVowel = false) :
    IsDeadEnd allowZwjf (states.modify 0 g) := by
  have hfirst : (stateAt (states.modify 0 g) 0).base = L 'w' := by
    rw [stateAt_modify, if_pos ⟨rfl, by omega⟩, hg]
  have hsecond : stateAt (states.modify 0 g) 1 = stateAt states 1 := by
    rw [stateAt_modify, if_neg (by omega)]
  have hlen' : 2 ≤ (states.modify 0 g).length := by
    rwa [List.length_modify]
  cases allowZwjf with
  | true =>
      refine isDeadEnd_w_consonant hlen' hfirst ?_
      rw [hsecond, hkeep rfl]
  | false =>
      have hpos : 0 < (states.modify 0 g).length := by omega
      have hbegins := head_prefix_bases (List.ne_nil_of_length_pos hpos)
      rw [hfirst] at hbegins
      exact isDeadEnd_of_initial hbegins (by decide) (by decide)

/-- The leading `ư` is turned back into `w` at a dead end, with the same exception. -/
theorem untrapped_revertSyntheticStart (h : Untrapped e)
    (hlen : e.hasSyntheticEnglishStart = true → 2 ≤ e.states.length)
    (hkeep : e.config.allowZwjf = true → e.hasSyntheticEnglishStart = true →
      (stateAt e.states 1).isVowel = false) : Untrapped e.revertSyntheticStart := by
  unfold revertSyntheticStart
  split
  · rename_i hstart
    intro _
    exact isDeadEnd_modify_w (fun _ => rfl) (hlen hstart) fun hallow => hkeep hallow hstart
  · exact h

omit [WideCType] in
theorem small_of_isInitialConsonant {allowZwjf : Bool} {base : WChar}
    (h : isInitialConsonant allowZwjf base = true) :
    (base < 0x80 ∧ asciiLower base = base) ∧ base ≠ L 'u' := by
  have hplain :
    ∀ base ∈ [L 'b', L 'c', L 'd', L 'g', L 'h', L 'k', L 'l', L 'm', L 'n', L 'p', L 'q',
      L 'r', L 's', L 't', L 'v', L 'x'], (base < 0x80 ∧
        asciiLower base = base) ∧ base ≠ L 'u' := by
    decide
  have hzwjf : ∀ base ∈ [L 'z', L 'j', L 'w', L 'f'],
      (base < 0x80 ∧ asciiLower base = base) ∧ base ≠ L 'u' := by
    decide
  rw [isInitialConsonant, Bool.or_eq_true, Bool.and_eq_true, List.contains_iff_mem,
    List.contains_iff_mem] at h
  rcases h with h | ⟨-, h⟩
  · exact hplain base h
  · exact hzwjf base h

theorem isDeadEnd_us {allowZwjf : Bool} {states : List CharState} {base : WChar}
    (hbegins : [base, L 's'] <+: bases states) (hu : towlower base = L 'u') :
    IsDeadEnd allowZwjf states := by
  by_cases hvowel : isVowelBase base = true
  · refine isDeadEnd_of_coda [] hvowel (by decide) (by simp) hbegins fun final hfinal => ?_
    exact absurd (mem_of_prefix_letters hfinal) (by decide)
  · have hhead : [base] <+: bases states :=
      (show [base] <+: [base, L 's'] from ⟨_, rfl⟩).trans hbegins
    refine isDeadEnd_of_initial hhead (by simpa using hvowel) ?_
    by_contra hinitial
    rw [Bool.not_eq_false] at hinitial
    obtain ⟨hsmall, hne⟩ := small_of_isInitialConsonant hinitial
    exact hne ((towlower_of_small hsmall).symm.trans hu)

theorem untrapped_revertTonedUse (h : Untrapped e) : Untrapped e.revertTonedUse := by
  unfold revertTonedUse
  split
  · rename_i huse
    intro _
    simp only [hasTonedUse, Bool.and_eq_true, beq_iff_eq] at huse
    obtain ⟨⟨⟨⟨⟨⟨⟨⟨⟨⟨⟨⟨-, -⟩, -⟩, hlen⟩, hu⟩, -⟩, -⟩, -⟩, -⟩, -⟩, -⟩, -⟩, -⟩ := huse
    obtain ⟨s0, s1, hstates⟩ := List.length_eq_two.mp hlen
    rw [hstates] at hu
    refine isDeadEnd_us ?_ hu
    rw [hstates]
    exact ⟨[s1.base], rfl⟩
  · exact h

omit [WideCType] in
theorem untrapped_checkInitialBias (h : Untrapped e) : Untrapped e.checkInitialBias := by
  unfold checkInitialBias
  split
  · intro hard
    rcases bias_checkZwjfInitialBias hard with hbefore | hdead
    · exact h hbefore
    · exact hdead
  · exact h

/-- Finishing a letter latches the bias at dead ends only. -/
theorem untrapped_finalizeRegularChar (h : Untrapped e) (hkeep : e.restoresInitialW = false)
    (hlast : e.lastState.synthetic = false) : Untrapped e.finalizeRegularChar := by
  rw [finalizeRegularChar_eq]
  refine untrapped_checkInitialBias (untrapped_revertTonedUse
    (untrapped_revertSyntheticStart (untrapped_lettered h) (fun hstart => ?_)
      fun hallow hstart => ?_))
  · -- a buffer of one letter is the letter just appended
    by_contra hshort
    have hlength : e.lettered.states.length = e.states.length := by
      simpa using congrArg List.length (bases_lettered e)
    simp only [hasSyntheticEnglishStart, Bool.and_eq_true] at hstart
    have hfirst : (stateAt e.lettered.states 0).synthetic = true := hstart.1.1.1.1.2
    rw [stateAt_of_map_eq (map_lettered markFree_synthetic e)] at hfirst
    rw [lastState, show e.states.length - 1 = 0 by omega, hfirst] at hlast
    cases hlast
  · have hallow' : e.config.allowZwjf = true := hallow
    rw [isVowel_of_bases_eq (bases_lettered e)]
    simpa [restoresInitialW, hallow', hstart] using hkeep

end Finish

/-! ## Tone keys -/

section Tone

variable {e : TypingEngine} {keyChar lower : WChar} {action : TypingAction}

/-- The tone keys of the Telex and VNI methods are in no Vietnamese rhyme. -/
def IsForeignLetter (base : WChar) : Prop :=
  isVowelBase base = false ∧ ∀ final : Final, base ∉ final.letters

omit [WideCType] in
theorem isForeignLetter_of_mem {base : WChar}
    (h : base ∈ [L 's', L 'f', L 'r', L 'x', L 'j', L '1', L '2', L '3', L '4', L '5']) :
    IsForeignLetter base := by
  have hvowel : ∀ base ∈ [L 's', L 'f', L 'r', L 'x', L 'j', L '1', L '2', L '3', L '4', L '5'],
      isVowelBase base = false := by
    decide
  refine ⟨hvowel base h, fun final => ?_⟩
  revert h base
  cases final <;> decide

omit [WideCType] in
theorem telexAction_tone (h : actionToTone (telexAction lower) ≠ .none) :
    lower ∈ [L 's', L 'f', L 'r', L 'x', L 'j'] := by
  revert h
  unfold telexAction
  repeat'
    refine iteInduction (motive := fun a => actionToTone a ≠ .none →
      lower ∈ [L 's', L 'f', L 'r', L 'x', L 'j']) (fun hkey => ?_) (fun _ => ?_)
  all_goals first | exact fun h => absurd rfl h | (rw [hkey]; decide)

omit [WideCType] in
theorem vniAction_tone (h : actionToTone (vniAction lower) ≠ .none) :
    lower ∈ [L '1', L '2', L '3', L '4', L '5'] := by
  revert h
  unfold vniAction
  repeat'
    refine iteInduction (motive := fun a => actionToTone a ≠ .none →
      lower ∈ [L '1', L '2', L '3', L '4', L '5']) (fun hkey => ?_) (fun _ => ?_)
  all_goals first | exact fun h => absurd rfl h | (rw [hkey]; decide)

omit [WideCType] in
/-- A tone key of a method is a letter that no Vietnamese rhyme has. -/
theorem isForeignLetter_of_tone {config : TypingConfig}
    (hmethod : config.inputMethod ≠ .userDefined)
    (h : actionToTone (methodAction config lower) ≠ .none) : IsForeignLetter lower := by
  rw [methodAction_eq_classifyKey hmethod] at h
  unfold classifyKey at h
  dsimp only at h
  apply isForeignLetter_of_mem
  have hkey : canonicalBracketKey lower ∈
      [L 's', L 'f', L 'r', L 'x', L 'j', L '1', L '2', L '3', L '4', L '5'] := by
    split_ifs at h
    · exact List.mem_append_left [L '1', L '2', L '3', L '4', L '5'] (telexAction_tone h)
    · exact List.mem_append_right [L 's', L 'f', L 'r', L 'x', L 'j'] (vniAction_tone h)
    · exact absurd rfl h
  rcases canonicalBracketKey_cases lower with hlower | hlower | hlower
  · rwa [hlower] at hkey
  · rw [hlower] at hkey
    exact absurd hkey (by decide)
  · rw [hlower] at hkey
    exact absurd hkey (by decide)

/-! ### Gates -/

/-- The structural gate rejects a tone key at a dead end, or behind a vowel. -/
theorem returnsToVowel_or_vowel_of_structureGateRejects {isTelexTone : Bool}
    (h : e.structureGateRejects keyChar isTelexTone = true) :
    ReturnsToVowel e.states ∨ ∃ s ∈ e.states, s.isVowel = true := by
  rw [structureGateRejects, Bool.or_eq_true] at h
  rcases h with hreturn | hpair
  · left
    cases isTelexTone with
    | true =>
        rw [if_pos rfl, isHardEnglishToneContext] at hreturn
        split_ifs at hreturn
        exact returnsToVowel_of_hasStructuralVCVPattern hreturn
    | false => exact returnsToVowel_of_hasStructuralVCVPattern hreturn
  · right
    rw [hasInvalidAdjacentVowelPair, List.any_eq_true] at hpair
    obtain ⟨i, hi, hinvalid⟩ := hpair
    have hvowel : (stateAt e.states i).isVowel = true := by
      by_contra hnot
      rw [Bool.not_eq_true] at hnot
      simp [isInvalidVowelPairAt, hnot] at hinvalid
    have hlt := lt_length_of_isVowel hvowel
    refine ⟨stateAt e.states i, ?_, hvowel⟩
    rw [stateAt, List.getD_eq_getElem _ _ hlt]
    exact List.getElem_mem hlt

theorem isDeadEnd_of_structureGateRejects {isTelexTone : Bool} {allowZwjf : Bool} {s : CharState}
    (h : e.structureGateRejects keyChar isTelexTone = true) (hs : IsForeignLetter s.base) :
    IsDeadEnd allowZwjf (e.states ++ [s]) := by
  rcases returnsToVowel_or_vowel_of_structureGateRejects h with hreturn | hvowel
  · exact hreturn.isDeadEnd.append [s]
  · exact isDeadEnd_append_of_vowel hvowel hs.1 hs.2

/-- The English gate latches the bias only if it rejects the key for the structure of the word. -/
theorem bias_englishGate {tone : Tone} {isTelexTone : Bool}
    (h : (e.englishGate tone keyChar isTelexTone).1.engProt.bias = .hardEnglish) :
    e.engProt.bias = .hardEnglish ∨ (e.englishGate tone keyChar isTelexTone).2 = true ∧
      e.structureGateRejects keyChar isTelexTone = true := by
  unfold englishGate at h ⊢
  by_cases hbypass : e.config.allowEnglishBypass = true
  · rw [if_pos hbypass] at h
    exact .inl h
  rw [if_neg hbypass] at h ⊢
  by_cases hvalid : e.toneWouldValidate tone = true
  · rw [if_pos hvalid] at h
    cases h
  rw [if_neg hvalid] at h ⊢
  by_cases hhard : e.engProt.bias = .hardEnglish
  · exact .inl hhard
  rw [if_neg hhard] at h ⊢
  dsimp only at h ⊢
  -- counting a tone key keeps the letters and the bias
  have hcounted : (updateToneInsistence keyChar e.engProt).2.bias ≠ .hardEnglish := by
    unfold updateToneInsistence
    dsimp only
    split_ifs <;> exact hhard
  cases hsoft : e.engProt.bias == .softEnglish with
  | false =>
      simp only [hsoft, Bool.false_and, Bool.false_eq_true, if_false] at h ⊢
      by_cases hstructure : e.structureGateRejects keyChar isTelexTone = true
      · rw [if_pos hstructure]
        exact .inr ⟨rfl, hstructure⟩
      · rw [if_neg hstructure] at h
        exact absurd h hhard
  | true =>
      simp only [hsoft, Bool.true_and, if_true] at h ⊢
      by_cases hcount : (!(updateToneInsistence keyChar e.engProt).1) = true
      · rw [if_pos hcount] at h
        exact absurd h hcounted
      · rw [if_neg hcount] at h ⊢
        by_cases hstructure : e.structureGateRejects keyChar isTelexTone = true
        · refine .inr ⟨?_, hstructure⟩
          rw [if_pos (by exact hstructure)]
        · rw [if_neg (by exact hstructure)] at h
          exact absurd h hcounted

/-- What the gates of a tone key leave behind: a latched bias was latched before, or the key is
rejected and makes the word a dead end. -/
theorem bias_toneGates {tone : Tone}
    (h : (e.toneGates tone keyChar lower).1.engProt.bias = .hardEnglish) :
    e.engProt.bias = .hardEnglish ∨ (e.toneGates tone keyChar lower).2 = true ∧
      ∃ isTelexTone, e.structureGateRejects keyChar isTelexTone = true := by
  unfold toneGates at h ⊢
  dsimp only at h ⊢
  split_ifs at h ⊢ with hspell hescape hbegins hgate
  · exact .inl h
  · exact .inl h
  · exact .inl h
  · exact (bias_englishGate h).imp_right fun hlatched => ⟨hlatched.1, _, hlatched.2⟩
  · rcases bias_englishGate h with hbefore | ⟨hrejected, -⟩
    · exact .inl hbefore
    · exact absurd hrejected hgate

/-- A rejected tone key is a letter. -/
theorem untrapped_rejectedTone {tone : Tone} (h : Untrapped e) (hforeign : IsForeignLetter lower)
    (isUpper : Bool) :
    Untrapped ((e.toneGates tone keyChar lower).1.processChar lower isUpper).updateSpellState := by
  have hsame := sameBuffer_toneGates e tone keyChar lower
  intro hard
  have hstates :
    ((e.toneGates tone keyChar lower).1.processChar lower isUpper).updateSpellState.states =
      e.states ++ [{ base := lower, isUpper,
                     rawIdx := (e.toneGates tone keyChar lower).1.nextRawIdx }] := by
    rw [← hsame.states_eq]
    rfl
  have hconfig : ((e.toneGates tone keyChar lower).1.processChar lower
      isUpper).updateSpellState.config = e.config := hsame.config_eq
  rw [hstates, hconfig]
  rcases bias_toneGates hard with hbefore | ⟨-, isTelexTone, hstructure⟩
  · exact (h hbefore).append _
  · exact isDeadEnd_of_structureGateRejects hstructure hforeign

theorem untrapped_finishTone (e : TypingEngine) : Untrapped e.finishTone := by
  unfold finishTone
  dsimp only
  split_ifs with hescape
  · exact (untrapped_recalcBias e).congr rfl id (markFree_base.map_applyAutoUO _ _)
  · exact .of_bias LanguageBias.noConfusion

theorem untrapped_handleTone {tone : Tone} (h : Untrapped e) (hforeign : IsForeignLetter lower)
    (isUpper : Bool) : Untrapped (e.handleTone tone keyChar lower isUpper).1 := by
  unfold handleTone
  dsimp only
  split_ifs with hrejected happlied
  · exact untrapped_rejectedTone h hforeign isUpper
  · exact untrapped_finishTone _
  · have hsame := sameBuffer_toneGates e tone keyChar lower
    refine h.congr hsame.config_eq (fun hard => ?_) (by rw [hsame.states_eq])
    exact (bias_toneGates hard).resolve_right fun hlatched => hrejected hlatched.1

theorem bases_processClearTone (e : TypingEngine) :
    bases e.processClearTone.1.states = bases e.states ∧ e.processClearTone.1.config = e.config ∧
      e.processClearTone.1.engProt = e.engProt := by
  unfold processClearTone
  split
  · exact ⟨rfl, rfl, rfl⟩
  · split_ifs
    · exact ⟨rfl, rfl, rfl⟩
    · exact ⟨bases_setTone _ _ _ _, rfl, rfl⟩

/-- The tone rule latches the bias at dead ends only. -/
theorem untrapped_applyToneRule (h : Untrapped e) (isUpper : Bool)
    (hforeign : actionToTone action ≠ .none → IsForeignLetter lower) :
    Untrapped (e.applyToneRule action keyChar lower isUpper).1 := by
  unfold applyToneRule
  split_ifs with hescape
  · exact h
  unfold handleToneFsm
  split_ifs with hempty hclear hspell hnone
  · exact h
  · exact h.extend rfl id (bases_prefix_append _ _)
  · obtain ⟨hbases, hconfig, hprot⟩ := bases_processClearTone e
    dsimp only
    split_ifs
    · exact h.congr hconfig (fun hard => by rwa [← hprot]) hbases
    · exact h
  · exact h
  · exact untrapped_handleTone h (hforeign hnone) isUpper

end Tone

/-! ## Modifier keys -/

section Modifier

variable {e : TypingEngine} {keyChar lower base c : WChar} {action : TypingAction}

/-- What a handler that leaves the key to be the letter `base` leaves behind: the engine as it was,
or a word that is marked as English since it has a vowel and a consonant in front of the vowel
`base`. -/
def LeavesLetter (e : TypingEngine) (base : WChar) (r : TypingEngine × Bool) : Prop :=
  r.2 = false → r.1 = e ∨
    (r.1 = e.setBias .hardEnglish ∧ PassesConsonant e.states ∧ isVowelBase base = true)

omit [WideCType] in
theorem LeavesLetter.same (e : TypingEngine) (base : WChar) (b : Bool) :
    LeavesLetter e base (e, b) :=
  fun _ => .inl rfl

omit [WideCType] in
theorem LeavesLetter.consumed (e e' : TypingEngine) (base : WChar) :
    LeavesLetter e base (e', true) :=
  fun h => Bool.noConfusion h

theorem leavesLetter_insertLetter (inserted : WChar) (mod : Modifier) (isUpper : Bool)
    (kind : EscapeKind) : LeavesLetter e base (e.insertLetter inserted mod isUpper kind c) := by
  unfold insertLetter
  split
  · exact .consumed _ _ _
  · exact .consumed _ _ _

theorem leavesLetter_handleHornInsert : LeavesLetter e base (e.handleHornInsert action c) := by
  unfold handleHornInsert
  split
  · exact .same _ _ _
  · exact leavesLetter_insertLetter _ _ _ _

theorem leavesLetter_handleHornW : LeavesLetter e base (e.handleHornW c) := by
  unfold handleHornW
  split
  · exact .same _ _ _
  all_goals exact .consumed _ _ _

theorem leavesLetter_handleStrokeD : LeavesLetter e base (e.handleStrokeD c) := by
  unfold handleStrokeD
  split
  · exact .same _ _ _
  split
  · exact .same _ _ _
  dsimp only
  split_ifs
  all_goals first | exact .same _ _ _ | exact .consumed _ _ _

theorem leavesLetter_processVniVowelModifier (targetMod : Modifier) :
    LeavesLetter e base (e.processVniVowelModifier targetMod c) := by
  unfold processVniVowelModifier
  dsimp only
  split
  · split_ifs
    all_goals first | exact .same _ _ _ | exact .consumed _ _ _
  split
  · exact .consumed _ _ _
  split
  · exact .consumed _ _ _
  · exact .same _ _ _

theorem leavesLetter_handleVniHorn : LeavesLetter e base (e.handleVniHorn c) := by
  have hUO : ∀ r, e.vniHornUO c = some r → LeavesLetter e base r := by
    intro r hr
    unfold vniHornUO at hr
    split at hr
    · dsimp only at hr
      split_ifs at hr
      all_goals
        obtain rfl := Option.some.inj hr
        exact .consumed _ _ _
    · cases hr
  have hUU : ∀ r, e.vniHornUU c = some r → LeavesLetter e base r := by
    intro r hr
    unfold vniHornUU at hr
    dsimp only at hr
    split at hr
    · split_ifs at hr
      all_goals
        obtain rfl := Option.some.inj hr
        exact .consumed _ _ _
    · cases hr
  unfold handleVniHorn
  cases h : e.vniHornUO c with
  | some r => exact hUO r h
  | none =>
      cases h' : e.vniHornUU c with
      | some r => exact hUU r h'
      | none => exact leavesLetter_processVniVowelModifier _

theorem leavesLetter_circumflexLast (targetBase : WChar) :
    LeavesLetter e base (e.circumflexLast targetBase c) := by
  unfold circumflexLast
  dsimp only
  split_ifs
  all_goals first | exact .same _ _ _ | exact .consumed _ _ _

omit [WideCType] in
theorem passesConsonant_of_drop {states : List CharState} {i : Nat}
    (hvowel : (stateAt states i).isVowel = true)
    (hconsonant : ((states.drop (i + 1)).filter (!·.isVowel)).length ≠ 0) :
    PassesConsonant states := by
  obtain ⟨s, hs⟩ := List.exists_mem_of_length_pos (Nat.pos_of_ne_zero hconsonant)
  obtain ⟨hmem, hout⟩ := List.mem_filter.mp hs
  refine ⟨(stateAt states i).base, s.base, hvowel, by simpa [isVowelBase_base] using hout, ?_⟩
  rw [bases_split (lt_length_of_isVowel hvowel)]
  refine List.Sublist.trans ?_ (List.sublist_append_right _ _)
  exact (List.singleton_sublist.mpr (List.mem_map_of_mem hmem)).cons_cons _

/-- Free marking marks a word as English only across a consonant. -/
theorem leavesLetter_freeMarkPlain {i : Nat} (hvowel : (stateAt e.states i).isVowel = true)
    (hbase : isVowelBase base = true) : LeavesLetter e base (e.freeMarkPlain i base) := by
  unfold freeMarkPlain
  dsimp only
  split_ifs with hvalidation hspell hreject hcrossed hsingle hcoda hchecked hvalid
  · exact .same _ _ _
  · exact .consumed _ _ _
  · exact fun _ => .inr ⟨rfl, passesConsonant_of_drop hvowel (by omega), hbase⟩
  · exact .consumed _ _ _
  · exact .consumed _ _ _
  · refine fun _ => .inr ⟨rfl, passesConsonant_of_drop hvowel ?_, hbase⟩
    simp only [Bool.and_eq_true, beq_iff_eq] at hsingle
    omega
  · exact .consumed _ _ _
  · exact .same _ _ _
  · exact .consumed _ _ _

theorem leavesLetter_freeMark : LeavesLetter e base (e.freeMark base c) := by
  unfold freeMark
  dsimp only
  split
  · exact .same _ _ _
  split
  · exact .same _ _ _
  · rename_i i hscan
    have hfound := (scanDown_eq_some hscan).2.1
    rw [Bool.and_eq_true, beq_iff_eq] at hfound
    obtain ⟨hvowel, hbase⟩ := hfound
    split_ifs
    · exact .same _ _ _
    · exact .consumed _ _ _
    · exact .consumed _ _ _
    · exact .consumed _ _ _
    · exact leavesLetter_freeMarkPlain hvowel (by rwa [← hbase])
    · exact .same _ _ _

theorem leavesLetter_handleAdjacentCircumflex (hmethod : e.config.inputMethod ≠ .userDefined) :
    LeavesLetter e (towlower c) (e.handleAdjacentCircumflex action c) := by
  unfold handleAdjacentCircumflex
  rw [if_neg hmethod]
  dsimp only
  split_ifs
  all_goals first
    | exact .same _ _ _
    | exact .consumed _ _ _
    | exact leavesLetter_circumflexLast _
    | exact leavesLetter_freeMark

/-- The handlers of the Telex and VNI keys leave the engine as it was, but for free marking. -/
theorem leavesLetter_processModifier (hmethod : e.config.inputMethod ≠ .userDefined)
    (haction : action.isTelexModifierAction = true ∨ action.isVniModifierAction = true) :
    LeavesLetter e (towlower c) (e.processModifier action c) := by
  cases action
  case hornInsertO | hornInsertU => exact leavesLetter_handleHornInsert
  case hornW => exact leavesLetter_handleHornW
  case circumflexA | circumflexE | circumflexO =>
    exact leavesLetter_handleAdjacentCircumflex hmethod
  case strokeD | vniStroke => exact leavesLetter_handleStrokeD
  case vniCircumflex | vniBreve => exact leavesLetter_processVniVowelModifier _
  case vniHorn => exact leavesLetter_handleVniHorn
  all_goals rcases haction with h | h <;> cases h

omit [WideCType] in
theorem untrapped_strokePrecheck (h : Untrapped e) (strokeAction : TypingAction) :
    Untrapped (e.strokePrecheck action strokeAction) := by
  unfold strokePrecheck
  dsimp only
  split
  · rename_i hblocks
    obtain ⟨-, -, hlen, hany⟩ := hblocks
    obtain ⟨dTarget, htarget, hblock⟩ := (Option.any_eq_true _ _).mp hany
    rw [Bool.and_eq_true] at hblock
    exact fun _ => isDeadEnd_of_shouldBlockStrokeDAsEnglish htarget hlen hblock.2
  · exact h

theorem untrapped_modifierGates (h : Untrapped e) :
    Untrapped (e.modifierGates action keyChar lower).1 := by
  unfold modifierGates
  dsimp only
  split_ifs
  · exact untrapped_strokePrecheck h .strokeD
  · exact untrapped_strokePrecheck h .vniStroke
  · exact h
  · exact h

/-- Outside the user-defined method the keys that pass the gates are those of Telex and VNI. -/
theorem modifierAction_of_modifierGates (hmethod : e.config.inputMethod ≠ .userDefined)
    (h : (e.modifierGates action keyChar lower).2 = true) :
    action.isTelexModifierAction = true ∨ action.isVniModifierAction = true := by
  unfold modifierGates at h
  dsimp only at h
  split_ifs at h with htelex hvni huser
  · rw [Bool.and_eq_true] at htelex
    exact .inl htelex.1
  · rw [Bool.and_eq_true] at hvni
    exact .inr hvni.1
  · rw [Bool.and_eq_true, beq_iff_eq] at huser
    exact absurd huser.2 hmethod

/-- The modifier rule latches the bias at dead ends only, or where the letter of the key makes
one. -/
theorem untrapped_handleModifierAction (hmethod : e.config.inputMethod ≠ .userDefined)
    (h : Untrapped e) :
    Untrapped (e.handleModifierAction action keyChar lower).1 ∨
      (e.handleModifierAction action keyChar lower).2 = false ∧
        PassesConsonant (e.handleModifierAction action keyChar lower).1.states ∧
          isVowelBase (towlower keyChar) = true := by
  have hgates : Untrapped (e.modifierGates action keyChar lower).1 := untrapped_modifierGates h
  have hsame := sameBuffer_modifierGates e action keyChar lower
  have hpassed : (e.modifierGates action keyChar lower).2 = true →
      action.isTelexModifierAction = true ∨ action.isVniModifierAction = true :=
    modifierAction_of_modifierGates hmethod
  unfold handleModifierAction
  generalize e.modifierGates action keyChar lower = gated at hgates hsame hpassed ⊢
  dsimp only
  split
  · rename_i hgate
    split
    · exact .inl (.of_bias LanguageBias.noConfusion)
    · rename_i hleft
      rw [Bool.not_eq_true] at hleft
      have hmethod' : gated.1.config.inputMethod ≠ .userDefined := by rwa [hsame.config_eq]
      rcases leavesLetter_processModifier hmethod' (hpassed hgate) hleft with hunchanged | hmarked
      · left
        rwa [hunchanged]
      · obtain ⟨hmarked, hpasses, hvowel⟩ := hmarked
        refine .inr ⟨hleft, ?_, hvowel⟩
        rw [hmarked]
        exact hpasses
  · exact .inl hgates

end Modifier

/-! ## Pushing a key -/

section Push

variable {e : TypingEngine} {keyChar lower : WChar}

/-- A quick start consonant is under way behind a word that is not English and ends in no `o`. -/
def StartUnlatched (e : TypingEngine) : Prop :=
  e.quickStartKey ≠ 0 → e.engProt.bias ≠ .hardEnglish ∧ e.lastState.base ≠ L 'o'

theorem untrapped_revertProvisionalOoTone (h : Untrapped e) :
    Untrapped (e.revertProvisionalOoTone lower).1 := by
  unfold revertProvisionalOoTone
  split
  · have hbases : bases e.states <+:
        bases (setTone e.states (e.states.length - 1) .none none) := by rw [bases_setTone]
    dsimp only
    split_ifs
    · exact h.extend rfl id hbases
    · exact h.extend rfl id (hbases.trans (bases_prefix_append _ _))
    · exact h.extend rfl id (hbases.trans (bases_prefix_append _ _))
  · exact h

theorem untrapped_undoQuickStart (h : Untrapped e) (hstart : StartUnlatched e) :
    Untrapped (e.undoQuickStart keyChar) := by
  unfold undoQuickStart
  split_ifs with hkey
  · exact h
  · exact h.congr rfl id rfl
  · exact .of_bias (hstart hkey).1

omit [WideCType] in
theorem lastState_processChar (e : TypingEngine) (c : WChar) (isUpper : Bool) :
    (e.processChar c isUpper).lastState = { base := c, isUpper, rawIdx := e.nextRawIdx } := by
  simp [processChar, pushState, lastState, stateAt]

/-- Expanding a doubled consonant or `uu` latches the bias at dead ends only. -/
theorem untrapped_expandQuickConsonant {e' : TypingEngine} {isUpper : Bool} (h : Untrapped e)
    (hkeep : ∀ l, e.expandedLetter lower isUpper = some l → l.restoresInitialW = false)
    (hexpand : e.expandQuickConsonant lower isUpper = some e') : Untrapped e' := by
  unfold expandQuickConsonant at hexpand
  dsimp only at hexpand
  split at hexpand
  · rename_i hconsonant
    obtain ⟨replacement, hreplacement, rfl⟩ := Option.map_eq_some_iff.mp hexpand
    refine untrapped_finalizeRegularChar (h.extend rfl id (bases_prefix_append _ _)) (hkeep _ ?_) ?_
    · rw [expandedLetter, if_pos hconsonant, hreplacement, Option.map_some]
    · rw [processKeyChar, lastState_processChar]
  · split at hexpand
    · obtain rfl := Option.some.inj hexpand
      refine h.extend rfl id ?_
      rw [← bases_setMod e.states (e.states.length - 1) .horn]
      exact bases_prefix_append _ _
    · cases hexpand

/-! ### Quick start consonants -/

omit [WideCType] in
theorem StartUnlatched.of_zero (h : e.quickStartKey = 0) : StartUnlatched e :=
  fun hne => absurd h hne

theorem quickStartKey_finalizeRegularChar (e : TypingEngine) :
    e.finalizeRegularChar.quickStartKey = e.quickStartKey := by
  rw [finalizeRegularChar_eq]
  unfold checkInitialBias revertTonedUse revertSyntheticStart
  split_ifs <;> rfl

theorem quickStartKey_expandQuickConsonant {e' : TypingEngine} {isUpper : Bool}
    (h : e.expandQuickConsonant lower isUpper = some e') : e'.quickStartKey = e.quickStartKey := by
  unfold expandQuickConsonant at h
  dsimp only at h
  split at h
  · obtain ⟨replacement, -, rfl⟩ := Option.map_eq_some_iff.mp h
    exact quickStartKey_finalizeRegularChar _
  · split at h
    · obtain rfl := Option.some.inj h
      rfl
    · cases h

theorem quickStartKey_undoQuickStart (e : TypingEngine) (keyChar : WChar) :
    (e.undoQuickStart keyChar).quickStartKey = 0 := by
  unfold undoQuickStart
  split_ifs with hkey
  · exact hkey
  · rfl
  · rfl

theorem second_of_quickStartLetters {first second : WChar}
    (h : quickStartLetters lower = some (first, second)) : towlower second ≠ L 'o' := by
  have hsmall : ∀ second ∈ [L 'h', L 'i', L 'u'], second < 0x80 ∧ asciiLower second = second ∧
      second ≠ L 'o' := by
    decide
  have hmem : second ∈ [L 'h', L 'i', L 'u'] := by
    unfold quickStartLetters at h
    split_ifs at h <;> cases h <;> decide
  obtain ⟨hlt, hlower, hne⟩ := hsmall second hmem
  rwa [towlower_of_small ⟨hlt, hlower⟩]

theorem untrapped_expandUnlessEscaped {isUpper : Bool} (h : Untrapped e)
    (hkeep : (e.config.quickConsonant && !e.states.isEmpty && !e.isQuickEscaped lower) = true →
      ∀ l, (e.clearQuickEscape lower).expandedLetter lower isUpper = some l →
        l.restoresInitialW = false) :
    Untrapped (e.expandUnlessEscaped lower isUpper).1 ∧
      (e.expandUnlessEscaped lower isUpper).1.quickStartKey = e.quickStartKey := by
  have hcleared : Untrapped (e.clearQuickEscape lower) := h.congr rfl id rfl
  have hkey : (e.clearQuickEscape lower).quickStartKey = e.quickStartKey := rfl
  unfold expandUnlessEscaped
  dsimp only
  split_ifs with hexpands
  · have hletter := hkeep hexpands
    generalize e.clearQuickEscape lower = q at hcleared hkey hletter ⊢
    split
    · rename_i expanded hexpand
      exact ⟨untrapped_expandQuickConsonant hcleared hletter hexpand,
        (quickStartKey_expandQuickConsonant hexpand).trans hkey⟩
    · exact ⟨hcleared, hkey⟩
  · exact ⟨hcleared, hkey⟩

/-- The quick start rules latch the bias at dead ends only, and a key they leave has no quick start
consonant in front of it. -/
theorem untrapped_handleQuickStartConsonant (h : Untrapped e) (hstart : StartUnlatched e)
    (isUpper : Bool)
    (hkeep : ∀ l, e.quickLetter keyChar (towlower keyChar) isUpper = some l →
      l.restoresInitialW = false) :
    let r := e.handleQuickStartConsonant keyChar (towlower keyChar) isUpper
    Untrapped r.1 ∧ StartUnlatched r.1 ∧ (r.2 = false → r.1.quickStartKey = 0) := by
  rw [handleQuickStartConsonant_eq]
  cases hletters : e.quickStart (towlower keyChar) with
  | some letters =>
      obtain ⟨first, second⟩ := letters
      unfold quickStart at hletters
      split at hletters
      · rename_i hon
        rw [Bool.and_eq_true, List.isEmpty_iff] at hon
        have hbias := h.bias_of_nil hon.2
        have hlast := congrArg CharState.base (lastState_processChar
          (e.processKeyChar (if isUpper = true then towupper first else first)) (towlower second)
          (iswupper second))
        exact ⟨.of_bias hbias,
          fun _ => ⟨hbias, fun ho => second_of_quickStartLetters hletters (hlast.symm.trans ho)⟩,
          fun hfalse => Bool.noConfusion hfalse⟩
      · cases hletters
  | none =>
      have hexpanded := @untrapped_expandUnlessEscaped _ _ (towlower keyChar) isUpper
        (@untrapped_undoQuickStart _ _ keyChar h hstart) fun hexpands l hl => hkeep l (by
          rw [quickLetter, hletters, Option.isNone_none, Bool.true_and, if_pos hexpands, hl])
      have hzero := hexpanded.2.trans (quickStartKey_undoQuickStart e keyChar)
      exact ⟨hexpanded.1, .of_zero hzero, fun _ => hzero⟩

/-! ### The rules after classification -/

omit [WideCType] in
theorem not_isVowelBase_of_quickEndLetters {letters : WChar × WChar}
    (h : quickEndLetters lower = some letters) : isVowelBase lower = false := by
  unfold quickEndLetters at h
  split_ifs at h with hg hh hk
  · rw [hg]
    decide
  · rw [hh]
    decide
  · rw [hk]
    decide

/-- The quick end rule, behind a word that is a dead end if its bias is latched or that the vowel of
the key makes one. -/
theorem untrapped_handleQuickEndConsonant
    (h : Untrapped e ∨ PassesConsonant e.states ∧ isVowelBase lower = true) (isUpper : Bool) :
    ((e.handleQuickEndConsonant lower).2 = true → Untrapped (e.handleQuickEndConsonant lower).1) ∧
      ((e.handleQuickEndConsonant lower).2 = false →
        Untrapped ((e.handleQuickEndConsonant lower).1.processChar lower isUpper)) := by
  have hleft : Untrapped (e.processChar lower isUpper) := by
    rcases h with h | ⟨hpasses, hvowel⟩
    · exact h.extend rfl id (bases_prefix_append _ _)
    · exact fun _ => hpasses.isDeadEnd_append hvowel
  unfold handleQuickEndConsonant
  split
  · split
    · rename_i first second hletters
      refine ⟨fun _ => ?_, fun hfalse => Bool.noConfusion hfalse⟩
      rcases h with h | ⟨-, hvowel⟩
      · exact h.extend rfl id ((bases_prefix_append _ _).trans (bases_prefix_append _ _))
      · rw [not_isVowelBase_of_quickEndLetters hletters] at hvowel
        cases hvowel
    · exact ⟨fun htrue => Bool.noConfusion htrue, fun _ => hleft⟩
  · exact ⟨fun htrue => Bool.noConfusion htrue, fun _ => hleft⟩

/-- The rules after classification, with the key as a letter where they leave it, latch the bias at
dead ends only. -/
theorem untrapped_dispatchPostClassify (h : Untrapped e)
    (hmethod : e.config.inputMethod ≠ .userDefined) (isUpper : Bool) :
    let r := e.dispatchPostClassify (e.keyAction keyChar (towlower keyChar)) keyChar
      (towlower keyChar) isUpper
    (r.2 = true → Untrapped r.1) ∧
      (r.2 = false → Untrapped (r.1.processChar (towlower keyChar) isUpper)) := by
  have hforeign : actionToTone (e.keyAction keyChar (towlower keyChar)) ≠ .none →
      IsForeignLetter (towlower keyChar) := by
    intro htone
    rcases keyAction_eq e keyChar (towlower keyChar) with hnone | haction
    · rw [hnone] at htone
      exact absurd rfl htone
    · rw [haction] at htone
      exact isForeignLetter_of_tone hmethod htone
  generalize e.keyAction keyChar (towlower keyChar) = action at hforeign ⊢
  have htoned := @untrapped_applyToneRule _ e keyChar (towlower keyChar) action h isUpper hforeign
  have hmethod' : (e.applyToneRule action keyChar (towlower keyChar) isUpper).1.config.inputMethod ≠
      .userDefined := by
    rwa [applyToneRule_inputMethod]
  unfold dispatchPostClassify
  generalize e.applyToneRule action keyChar (towlower keyChar) isUpper = toned at htoned hmethod' ⊢
  dsimp only
  split
  · rename_i hconsumed
    exact ⟨fun _ => htoned, fun hfalse => by rw [hconsumed] at hfalse; cases hfalse⟩
  have hmodified := @untrapped_handleModifierAction _ toned.1 keyChar
    (towlower keyChar) action hmethod'
    htoned
  generalize toned.1.handleModifierAction action keyChar (towlower keyChar)
    = modified at hmodified ⊢
  split
  · rename_i hconsumed
    refine ⟨fun _ => hmodified.resolve_right fun hleft => ?_, fun hfalse => ?_⟩
    · rw [hconsumed] at hleft
      exact Bool.noConfusion hleft.1
    · rw [hconsumed] at hfalse
      cases hfalse
  · exact untrapped_handleQuickEndConsonant (hmodified.imp_right fun hleft => hleft.2) isUpper

/-! ### The key as a whole -/

theorem startUnlatched_revertProvisionalOoTone (hstart : StartUnlatched e) :
    StartUnlatched (e.revertProvisionalOoTone lower).1 ∧
      ((e.revertProvisionalOoTone lower).2 = true →
        (e.revertProvisionalOoTone lower).1.quickStartKey = 0) := by
  unfold revertProvisionalOoTone
  split
  · rename_i hprovisional
    have hlast : e.lastState.base = L 'o' := by
      simp only [hasProvisionalOoTone, Bool.and_eq_true, beq_iff_eq] at hprovisional
      exact hprovisional.1.1.1.1.1.1.2
    have hzero : e.quickStartKey = 0 := by
      by_contra hkey
      exact (hstart hkey).2 hlast
    dsimp only
    split_ifs
    · exact ⟨.of_zero hzero, fun _ => hzero⟩
    · exact ⟨.of_zero hzero, fun _ => hzero⟩
    · exact ⟨.of_zero hzero, fun _ => hzero⟩
  · exact ⟨hstart, fun htrue => Bool.noConfusion htrue⟩

/-- Every hazard, where only the rest of the engine matters. -/
def anyHazards : Hazards := ⟨True, True, True, True, True, True, True⟩

theorem handled_dispatch (hlast : e.rawInput.getLast? = some keyChar) (isUpper : Bool) :
    Handled anyHazards keyChar e (e.dispatchPostClassify (e.keyAction keyChar (towlower keyChar))
      keyChar (towlower keyChar) isUpper) :=
  handled_rules isUpper hlast (fun _ => trivial) (keyAction_eq e keyChar (towlower keyChar))
    (fun _ _ _ _ _ => trivial) (fun _ _ _ _ => ⟨.inr trivial, fun _ => trivial,
      fun _ _ _ => trivial, fun _ _ _ => trivial, fun _ _ => trivial, fun _ _ _ _ => trivial⟩)
    fun _ => trivial

theorem quickStartKey_dispatchPostClassify (hlast : e.rawInput.getLast? = some keyChar)
    (isUpper : Bool) :
    (e.dispatchPostClassify (e.keyAction keyChar (towlower keyChar)) keyChar (towlower keyChar)
      isUpper).1.quickStartKey = e.quickStartKey := by
  have hhandled := handled_dispatch hlast isUpper
  cases hconsumed : (e.dispatchPostClassify (e.keyAction keyChar (towlower keyChar)) keyChar
    (towlower keyChar) isUpper).2 with
  | true =>
      obtain ⟨p', hedit⟩ := hhandled.edited hconsumed
      exact hedit.quickStartKey_eq
  | false => exact (hhandled.same hconsumed).quickStartKey_eq

theorem getLast?_handleQuickStartConsonant (hlast : e.rawInput.getLast? = some keyChar)
    (isUpper : Bool)
    (hleft : (e.handleQuickStartConsonant keyChar (towlower keyChar) isUpper).2 = false) :
    (e.handleQuickStartConsonant keyChar (towlower keyChar) isUpper).1.rawInput.getLast? =
      some keyChar :=
  ((@handleQuickStartConsonant_spec _ anyHazards keyChar e isUpper (fun _ => trivial)
    fun _ _ _ _ => trivial).2 hleft).last hlast

/-- A key past the provisional tone latches the bias at dead ends only. -/
theorem untrapped_pushSettled (h : Untrapped e) (hstart : StartUnlatched e)
    (hmethod : e.config.inputMethod ≠ .userDefined) (hlast : e.rawInput.getLast? = some keyChar)
    (isUpper : Bool)
    (hkeep : ∀ l, (e.quickLetter keyChar (towlower keyChar) isUpper).or
        (e.settledLetter keyChar isUpper) = some l → l.restoresInitialW = false) :
    Untrapped (e.pushSettled keyChar isUpper) ∧ StartUnlatched (e.pushSettled keyChar isUpper) := by
  obtain ⟨hquick, hquickStart, hzero⟩ := untrapped_handleQuickStartConsonant h hstart isUpper
    fun l hl => hkeep l (by rw [hl, Option.some_or])
  have hmethod' : (e.handleQuickStartConsonant keyChar (towlower keyChar)
      isUpper).1.config.inputMethod ≠ .userDefined := by
    rwa [handleQuickStartConsonant_inputMethod]
  have hlast' := getLast?_handleQuickStartConsonant hlast isUpper
  have hletter : (e.handleQuickStartConsonant keyChar (towlower keyChar) isUpper).2 = false →
      ∀ l, e.settledLetter keyChar isUpper = some l → l.restoresInitialW = false := by
    intro hleft l hl
    refine hkeep l ?_
    cases hexpanded : e.quickLetter keyChar (towlower keyChar) isUpper with
    | none => rw [Option.none_or, hl]
    | some l' =>
        rw [handleQuickStartConsonant_of_letter hexpanded] at hleft
        cases hleft
  unfold settledLetter at hletter
  unfold pushSettled
  dsimp only at hletter ⊢
  generalize e.handleQuickStartConsonant keyChar (towlower keyChar) isUpper = quick
    at hquick hquickStart hzero hmethod' hlast' hletter ⊢
  split
  · exact ⟨hquick, hquickStart⟩
  rename_i hconsumed
  rw [Bool.not_eq_true] at hconsumed
  have hkey :=
    (quickStartKey_dispatchPostClassify (hlast' hconsumed) isUpper).trans (hzero hconsumed)
  have hrules := @untrapped_dispatchPostClassify _ _ keyChar hquick hmethod' isUpper
  have hletter' := hletter hconsumed
  generalize quick.1.dispatchPostClassify (quick.1.keyAction keyChar (towlower keyChar)) keyChar
    (towlower keyChar) isUpper = dispatched at hkey hrules hletter' ⊢
  split
  · rename_i htaken
    exact ⟨hrules.1 htaken, .of_zero hkey⟩
  · rename_i htaken
    rw [Bool.not_eq_true] at htaken
    refine ⟨untrapped_finalizeRegularChar (hrules.2 htaken) (hletter' _ ?_) ?_, .of_zero ?_⟩
    · rw [hconsumed, htaken]
      rfl
    · rw [lastState_processChar]
    · rw [quickStartKey_finalizeRegularChar]
      exact hkey

/-- A pushed key latches the bias at dead ends only. -/
theorem untrapped_pushChar (h : Untrapped e) (hstart : StartUnlatched e)
    (hmethod : e.config.inputMethod ≠ .userDefined) (hkeep : e.KeepsInitialU (.pushChar keyChar)) :
    Untrapped (e.pushChar keyChar) ∧ StartUnlatched (e.pushChar keyChar) := by
  have hsettled : Untrapped (e.settled keyChar (pushedUppercase keyChar)).1 :=
    untrapped_revertProvisionalOoTone (h.congr rfl id rfl)
  obtain ⟨hsettledStart, hzero⟩ : StartUnlatched (e.settled keyChar (pushedUppercase keyChar)).1 ∧
      ((e.settled keyChar (pushedUppercase keyChar)).2 = true →
        (e.settled keyChar (pushedUppercase keyChar)).1.quickStartKey = 0) :=
    startUnlatched_revertProvisionalOoTone
      (e := e.recordKey keyChar (pushedUppercase keyChar)) hstart
  have hmethod' : (e.settled keyChar (pushedUppercase keyChar)).1.config.inputMethod ≠
      .userDefined := by
    rwa [settled_inputMethod]
  have hlast :
    (e.settled keyChar (pushedUppercase keyChar)).1.rawInput.getLast? = some keyChar := by
    rw [settled, rawInput_revertProvisionalOoTone]
    simp [recordKey]
  have hkeep' : (e.finishedLetter keyChar).any restoresInitialW = false := hkeep
  rw [finishedLetter] at hkeep'
  rw [show e.pushChar keyChar = e.pushKey keyChar (pushedUppercase keyChar) from rfl, pushKey]
  rw [settled] at hsettled hsettledStart hzero hmethod' hlast hkeep'
  generalize (e.recordKey keyChar (pushedUppercase keyChar)).revertProvisionalOoTone
    (towlower keyChar) = settled at hsettled hsettledStart hzero hmethod' hlast hkeep' ⊢
  dsimp only at hkeep' ⊢
  split
  · rename_i hswallowed
    exact ⟨fun hard => isDeadEnd_of_recalcEnglishBias hard, .of_zero (hzero hswallowed)⟩
  · rename_i hleft
    rw [if_neg hleft, Option.any_eq_false] at hkeep'
    exact untrapped_pushSettled hsettled hsettledStart hmethod' hlast _ fun l hl => by
      simpa using hkeep' l hl

end Push

/-! ## Backspace and runs -/

section Runs

variable {e : TypingEngine}

/-- Backspace recomputes the bias, but for a quick start consonant that is undone. -/
theorem untrapped_backspace (h : Untrapped e) (hstart : StartUnlatched e) :
    Untrapped e.backspace ∧ StartUnlatched e.backspace := by
  cases hempty : e.states.isEmpty with
  | true =>
      rw [backspace, if_pos hempty]
      exact ⟨h, hstart⟩
  | false =>
      rw [backspace_of_ne hempty]
      split_ifs with hquick hresult
      · exact ⟨.of_bias (hstart hquick.1).1, .of_zero rfl⟩
      · refine ⟨untrapped_recalcBias _, .of_zero ?_⟩
        unfold undoQuickConsonant
        dsimp only
        split_ifs <;> rfl
      · exact ⟨untrapped_recalcBias _, .of_zero rfl⟩

/-- What every action that restores no initial `w` preserves. -/
structure Unlatched (e : TypingEngine) : Prop where
  untrapped : Untrapped e
  start : StartUnlatched e
  method : e.config.inputMethod ≠ .userDefined

omit [WideCType] in
theorem unlatched_reset (e : TypingEngine) (hmethod : e.config.inputMethod ≠ .userDefined) :
    Unlatched e.reset :=
  ⟨.of_bias LanguageBias.noConfusion, .of_zero rfl, hmethod⟩

theorem unlatched_perform (op : Op) (h : Unlatched e) (hkeep : e.KeepsInitialU op) :
    Unlatched (e.perform op) := by
  cases op with
  | pushChar keyChar =>
      obtain ⟨hpushed, hstart⟩ := untrapped_pushChar h.untrapped h.start h.method hkeep
      refine ⟨hpushed, hstart, ?_⟩
      obtain ⟨p', hedits⟩ := pushed_pushChar e keyChar
      rw [perform, hedits.config_eq]
      exact h.method
  | backspace =>
      obtain ⟨hback, hstart⟩ := untrapped_backspace h.untrapped h.start
      refine ⟨hback, hstart, ?_⟩
      rw [perform, (backspace_cases e 0).1]
      exact h.method

/-- The word counts as English, and some tone on the vowel that a tone key selects makes it a
complete syllable. -/
def TrapsWord (e : TypingEngine) : Prop :=
  e.engProt.bias = .hardEnglish ∧
    ∃ i tone, e.toneTarget = some i ∧ e.wouldValidateWithTone i tone = true

theorem Untrapped.not_trapsWord (h : Untrapped e) : ¬TrapsWord e := by
  rintro ⟨hard, i, tone, -, hvalid⟩
  rw [wouldValidateWithTone, beq_iff_eq] at hvalid
  have hbases : bases (e.states.modify i fun s => { s with tone }) = bases e.states :=
    map_modify_of_eq (fun s => show ({ s with tone } : CharState).base = s.base from rfl) e.states i
  exact (h hard).not_valid hbases hvalid

/-- In every run that restores no initial `w` in front of a vowel, a latched English bias traps no
Vietnamese word. -/
theorem not_trapsWord_of_run (e : TypingEngine) (hmethod : e.config.inputMethod ≠ .userDefined)
    (ops : List Op) (hops : RunMeets KeepsInitialU e.reset ops) :
    ¬(e.reset.performAll ops).TrapsWord := by
  have hrun : Unlatched (e.reset.performAll ops) :=
    performAll_induction Unlatched (fun _ op h hkeep => unlatched_perform op h hkeep)
      (unlatched_reset e hmethod) hops
  exact hrun.untrapped.not_trapsWord

end Runs

end Latch

/-- `class` counts as English, and no tone makes it a syllable. -/
theorem not_trapsWord_of_typing_class : ¬((new {}).reset.performAll (typing "class")).TrapsWord :=
  not_trapsWord_of_run _ (by decide) _ (by decide +kernel)

/-- `wrza` of Telex gives `wa` where words may begin with `w`, a syllable that counts as English:
not every latched bias stands at a dead end. -/
theorem trapsWord_of_some_run :
    ¬ ∀ (config : TypingConfig) (ops : List Op), config.inputMethod ≠ .userDefined →
      config.allowEnglishBypass = false → ¬((new config).reset.performAll ops).TrapsWord := by
  intro h
  refine h { allowZwjf := true } (typing "wrza") (by decide) rfl ⟨?_, 1, .none, ?_⟩
  · decide +kernel
  · decide +kernel

end TypingEngine

end VKey
