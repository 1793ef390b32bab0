import VKey.Engine.ProbeSites

/-!
# What the probe predicts

A buffer is acceptable if it is not invalid, or invalid for nothing but a tone that its stop coda
does not take.  The probe answers whether the buffer it judges is acceptable, unless that buffer has
another defect besides the tone of its stop coda.  Where the probe leaves the tone in place, its
callers may still move the tone, and only to a marked vowel, so that what the probe accepts stays
acceptable.
-/

namespace VKey

open Phonology

/-! ## The tone of a marked buffer moves to a marked vowel -/

section Moves

variable [WideCType] {states : List CharState} {modernOrtho : Bool} {i t : Nat}

/-- With a circumflex or a breve in the nucleus, the tone target is a marked vowel. -/
theorem hasModifier_of_findToneTarget (hi : i ∈ firstNucleusVowels states)
    (hhat : (stateAt states i).showsCircumflexOrBreve = true)
    (ht : findToneTarget modernOrtho states = some t) :
    (stateAt states t).hasModifier = true := by
  obtain ⟨k, hk, htarget, htakes⟩ := findToneTarget_eq_some modernOrtho (List.ne_nil_of_mem hi)
  obtain ⟨m, hm, rfl⟩ := List.getElem_of_mem hi
  obtain rfl : (firstNucleusVowels states)[k] = t := by simpa [htarget] using ht
  have hlength : (vowelSeqOf states).length = (firstNucleusVowels states).length :=
    List.length_map _
  have hshown : modAt (vowelSeqOf states) k ≠ .none := by
    by_cases hhorn : ∃ j, j < (vowelSeqOf states).length ∧ modAt (vowelSeqOf states) j = .horn
    · obtain ⟨j, hj, hjhorn⟩ := hhorn
      rw [(htakes.horn j hj hjhorn).1]
      exact Modifier.noConfusion
    · have hmod := (htakes.circumflexOrBreve (fun j hj hjhorn => hhorn ⟨j, hj, hjhorn⟩) m
        (by omega) (by
          rw [modAt_vowelSeqOf hm]
          exact shownMod_eq_circumflex_or_breve.mpr hhat)).1
      rcases hmod with hmod | hmod <;> rw [hmod] <;> exact Modifier.noConfusion
  rw [modAt_vowelSeqOf hk] at hshown
  rw [CharState.hasModifier, bne_iff_ne]
  intro hnone
  apply hshown
  simp [CharState.shownMod, CharState.showsHorn, CharState.isHorn,
    CharState.showsCircumflexOrBreve, hnone]

/-- Relocating a single tone in a buffer whose target is marked. -/
theorem tonedAlike_relocateToneToTarget (hsingle : HasSingleTone states)
    (hmarked : ∀ t, findToneTarget modernOrtho states = some t →
      (stateAt states t).hasModifier = true) :
    TonedAlike states (relocateToneToTarget modernOrtho states) := by
  cases hmove : relocationToTarget modernOrtho states with
  | none =>
      have hstay : relocateToneToTarget modernOrtho states = states := by
        rw [relocateToneToTarget, hmove]
      rw [hstay]
      exact .refl states
  | some move =>
      obtain ⟨i, t⟩ := move
      obtain ⟨hvowel, htoned, htarget, hmay⟩ := relocationToTarget_eq_some hmove
      have hmoved := relocateToneToTarget_toneMoved hsingle hvowel htoned htarget hmay
      refine tonedAlike_of_moved hmoved.letters.symm hsingle htoned hmoved.tone hmoved.elsewhere ?_
      have hmod := congrArg CharState.hasModifier (withoutTone_stateAt hmoved.letters t)
      exact hmod.trans (hmarked t htarget)

omit [WideCType] in
theorem isHorn_of_relocationToHornVowel (h : relocationToHornVowel states = some (i, t)) :
    (stateAt states t).isHorn = true := by
  unfold relocationToHornVowel at h
  split at h
  · rename_i hornIdx tonedIdx hhorn htoned
    dsimp only at h
    split_ifs at h
    obtain ⟨rfl, rfl⟩ : tonedIdx = i ∧ hornIdx = t := by simpa using h
    have htest := (scanDown_eq_some hhorn).2.1
    simp only [Bool.and_eq_true] at htest
    exact htest.2
  · simp at h

omit [WideCType] in
theorem tonedAlike_relocateToneToHornVowel (hsingle : HasSingleTone states) :
    TonedAlike states (relocateToneToHornVowel states) := by
  unfold relocateToneToHornVowel
  cases hmove : relocationToHornVowel states with
  | none => exact .refl states
  | some move =>
      obtain ⟨i, t⟩ := move
      obtain ⟨htoned, hne, hvowel⟩ := relocationToHornVowel_spec hmove
      have hhorn := isHorn_of_relocationToHornVowel hmove
      have ht := lt_length_of_isVowel hvowel
      have hletters : ∀ (ss : List CharState) (j : Nat) (tone : Tone),
          (ss.modify j fun s => { s with tone }).map CharState.withoutTone =
            ss.map CharState.withoutTone := fun ss j tone =>
        map_modify_of_eq (g := fun s => { s with tone }) (fun _ => rfl) ss j
      dsimp only
      have htarget := stateAt_modify_modify_target
        (fun s => { s with tone := (stateAt states i).tone })
          (fun s => { s with tone := .none }) ht hne
      refine tonedAlike_of_moved ?_ hsingle htoned (by rw [htarget])
        (tone_modify_modify _ (fun _ => rfl) hsingle htoned hne) ?_
      · exact (hletters _ i .none).trans (hletters states t _) |>.symm
      · rw [htarget]
        simp only [CharState.isHorn, beq_iff_eq] at hhorn
        simp [CharState.hasModifier, hhorn]

end Moves

namespace TypingEngine

section Prediction

variable [WideCType]

/-! ## Acceptable buffers -/

/-- Invalid for nothing but the tone of a stop coda: an acute in its place would do. -/
structure InvalidOnlyByStopTone (e : TypingEngine) (states : List CharState) : Prop where
  invalid : validateSyllableState states e.config.allowZwjf = .invalid
  mismatch : isToneStopCodaMismatch states = true
  acute : validateSyllableState (withAcute states) e.config.allowZwjf ≠ .invalid

/-- Not invalid, or only by the tone of its stop coda. -/
def IsAcceptable (e : TypingEngine) (states : List CharState) : Prop :=
  validateSyllableState states e.config.allowZwjf ≠ .invalid ∨ e.InvalidOnlyByStopTone states

/-- The tone does not go with the stop coda, and an acute would not do either. -/
def HasFurtherDefect (e : TypingEngine) (states : List CharState) : Prop :=
  isToneStopCodaMismatch states = true ∧
    validateSyllableState (withAcute states) e.config.allowZwjf = .invalid

variable {e : TypingEngine} {states states' : List CharState}

/-- The tentative verdict accepts a tone that its stop coda does not take whatever else is wrong. -/
theorem acceptsTentative_iff (h : ¬ e.HasFurtherDefect states) :
    e.acceptsTentative states = true ↔ e.IsAcceptable states := by
  rw [acceptsTentative, Bool.or_eq_true, bne_iff_ne]
  constructor
  · rintro (hvalid | hmismatch)
    · exact .inl hvalid
    · by_cases hinvalid : validateSyllableState states e.config.allowZwjf = .invalid
      · exact .inr ⟨hinvalid, hmismatch, fun hacute => h ⟨hmismatch, hacute⟩⟩
      · exact .inl hinvalid
  · exact fun hok => hok.imp id InvalidOnlyByStopTone.mismatch

theorem isToneStopCodaMismatch_eq (states : List CharState) :
    isToneStopCodaMismatch states = (hasStopFinalCoda states &&
      (getTone states == .grave || getTone states == .hook || getTone states == .tilde)) := by
  rw [isToneStopCodaMismatch, getTone]
  cases states.find? (·.hasTone) <;> rfl

theorem isToneStopCodaMismatch_congr (h : TonedAlike states states') :
    isToneStopCodaMismatch states = isToneStopCodaMismatch states' := by
  rw [isToneStopCodaMismatch_eq, isToneStopCodaMismatch_eq, h.tone,
    ignoresTones_hasStopFinalCoda.congr h.letters]

theorem IsAcceptable.tonedAlike (hok : e.IsAcceptable states) (h : TonedAlike states states') :
    e.IsAcceptable states' := by
  rcases hok with hvalid | hstop
  · exact .inl (h.not_invalid hvalid)
  · by_cases hinvalid : validateSyllableState states' e.config.allowZwjf = .invalid
    · have hmismatch := isToneStopCodaMismatch_congr h
      exact .inr ⟨hinvalid, hmismatch.symm.trans hstop.mismatch,
        h.withAcute.not_invalid hstop.acute⟩
    · exact .inl hinvalid

theorem IsAcceptable.hasSingleTone (hok : e.IsAcceptable states) (hvowels : TonesOnVowels states) :
    HasSingleTone states := by
  apply hasSingleTone_of_checkToneModInvariant hvowels
  rcases hok with hvalid | hstop
  · rw [Ne, validateSyllableState_eq_invalid_iff, not_or, Bool.not_eq_false] at hvalid
    exact hvalid.2
  · have hacute := hstop.acute
    rw [Ne, validateSyllableState_eq_invalid_iff, not_or, Bool.not_eq_false,
      checkToneModInvariant_withAcute] at hacute
    exact hacute.2

/-! ## The sites -/

variable {call : ProbeCall} {lifted : Bool} {produced : List CharState}
  {result : TypingEngine × Bool}

/-- The target of a site is a letter, and only a call that leaves the tone in place clears a
circumflex. -/
theorem ProbeSite.target_lt (h : ProbeSite e call lifted produced result) :
    call.targetIdx < e.states.length := by
  cases h with
  | adjacent hkey hvowel =>
      have hpos := List.length_pos_iff.mpr (states_ne_nil_of_lastState hvowel)
      exact Nat.sub_lt hpos Nat.one_pos
  | freeMark hkey hlast htriphthong hfound => exact (scanDown_eq_some hfound).1
  | hornU hfirst hu hafter =>
      dsimp only
      unfold hornTargetU
      have hlast := (scanDown_eq_some hu).1
      split_ifs with huu
      · cases hpair : firstPlainU e.states with
        | none => exact hlast
        | some i => exact (scanUp_eq_some hpair).1
      · exact hlast
  | hornO hfirst hu ho => exact (scanDown_eq_some ho).1
  | hornA hfirst hu ho ha => exact (scanDown_eq_some ha).1
  | vni hfound => exact (scanDown_eq_some hfound).1

theorem ProbeSite.clear_eq_none (h : ProbeSite e call lifted produced result)
    (hspec : call.speculateRelocateTone = true) : call.clearCircumflexIdx = none := by
  cases h with
  | hornU => exact absurd hspec Bool.false_ne_true
  | _ => rfl

/-- The probe answers the tentative verdict on the buffer it judges. -/
theorem ProbeSite.answer_eq (h : ProbeSite e call lifted produced result)
    (hspell : e.config.spellCheckEnabled = true) (hlength : e.states.length ≤ kVowelCap) :
    (e.probe call).2 = e.acceptsTentative (e.judged call) := by
  have htarget := h.target_lt
  have hclear := h.clear_eq_none
  obtain ⟨targetIdx, newMod, clearIdx, speculate⟩ := call
  dsimp only at htarget hclear
  unfold probe judged marked
  dsimp only
  cases speculate with
  | true =>
      rw [hclear rfl, snd_probeSyllable_relocated, wouldBeValidRelocated, hspell,
        decide_eq_false (by omega), decide_eq_false (by omega)]
      rfl
  | false =>
      rw [snd_probeSyllable_inPlace, wouldBeValidSyllable, hspell, decide_eq_false (by omega)]
      rfl

omit [WideCType] in
theorem setVowelMod_of_not_isMarkedUO {i : Nat} (h : ¬ isMarkedUO states i) :
    setVowelMod states i .circumflex = setMod states i .circumflex := by
  unfold setVowelMod undoHornU
  dsimp only
  rw [if_pos rfl, if_neg]
  rintro ⟨hpos, hbase, -, hprevBase, hprevMod⟩
  rw [stateAt_setMod_of_ne _ (by omega)] at hprevBase hprevMod
  rw [stateAt_setMod_base] at hbase
  exact h ⟨hpos, hbase, hprevBase, hprevMod⟩

theorem ProbeSite.produced_eq (h : ProbeSite e call lifted produced result)
    (hspec : call.speculateRelocateTone = true) : produced = e.judged call := by
  unfold judged marked
  rw [if_pos hspec]
  cases h with
  | adjacent => rfl
  | freeMark hkey hlast htriphthong hfound hplain hcrossed hcompanion =>
      rw [← setVowelMod_of_not_isMarkedUO hcompanion]
      rfl
  | hornU | hornO | hornA => exact absurd hspec Bool.false_ne_true
  | vni hfound =>
      rw [if_pos hspec]
      rfl

omit [WideCType] in
/-- The circumflexed vowel of a short buffer is one that tone placement looks at. -/
theorem circumflexed_mem {i : Nat} {targetBase : WChar}
    (htarget : targetBase ∈ legalBases .circumflex) (hlength : states.length ≤ kVowelCap)
    (hi : i < states.length) (hbase : (stateAt states i).base = targetBase) :
    i ∈ firstNucleusVowels (setVowelMod states i .circumflex) ∧
      (stateAt (setVowelMod states i .circumflex) i).showsCircumflexOrBreve = true := by
  have hmarked : (stateAt (setVowelMod states i .circumflex) i).mod = .circumflex := by
    rcases setVowelMod_cases states i .circumflex with hstates | ⟨hpos, hstates⟩
    · rw [hstates, stateAt_setMod_self _ hi]
    · rw [hstates, stateAt_setMod_of_ne _ (by omega), stateAt_setMod_self _ hi]
  have hbase' : (stateAt (setVowelMod states i .circumflex) i).base = targetBase := by
    rw [stateAt_setVowelMod_base, hbase]
  have hlength' : (setVowelMod states i .circumflex).length = states.length :=
    length_setVowelMod states i .circumflex
  generalize setVowelMod states i .circumflex = marked at hmarked hbase' hlength' ⊢
  simp only [legalBases, List.mem_cons, List.not_mem_nil, or_false] at htarget
  have hnucleus : isNucleusVowel marked i = true := by
    unfold isNucleusVowel isClusterConsonant CharState.isVowel
    rw [hbase']
    rcases htarget with rfl | rfl | rfl <;> simp [L]
  refine ⟨?_, ?_⟩
  · have hshort :
      ((List.range marked.length).filter (isNucleusVowel marked)).length ≤ kVowelCap := by
      refine Nat.le_trans (List.length_filter_le _ _) ?_
      rw [List.length_range, hlength']
      exact hlength
    unfold firstNucleusVowels
    rw [List.take_of_length_le hshort, List.mem_filter, List.mem_range, hlength']
    exact ⟨hi, hnucleus⟩
  · unfold CharState.showsCircumflexOrBreve
    rw [hmarked, hbase']
    rcases htarget with rfl | rfl | rfl <;> rfl

/-- Where the probe leaves the tone in place, its caller moves it to a marked vowel at most. -/
theorem ProbeSite.tonedAlike (h : ProbeSite e call lifted produced result)
    (hspec : call.speculateRelocateTone = false) (hlength : e.states.length ≤ kVowelCap)
    (hsingle : HasSingleTone (e.marked call)) : TonedAlike (e.marked call) produced := by
  have htarget := h.target_lt
  cases h with
  | adjacent hkey hvowel hbase =>
      obtain ⟨hmem, hhat⟩ :=
        circumflexed_mem (hkey.vowel hkey.isAction) hlength htarget hbase
      exact tonedAlike_relocateToneToTarget hsingle
        fun t => hasModifier_of_findToneTarget hmem hhat
  | freeMark hkey hlast htriphthong hfound hplain hcrossed hcompanion =>
      have hbase := (scanDown_eq_some hfound).2.1
      simp only [Bool.and_eq_true, beq_iff_eq] at hbase
      obtain ⟨hmem, hhat⟩ :=
        circumflexed_mem (hkey.vowel hkey.isAction) hlength htarget hbase.2
      rw [← setVowelMod_of_not_isMarkedUO hcompanion]
      exact tonedAlike_relocateToneToTarget hsingle
        fun t => hasModifier_of_findToneTarget hmem hhat
  | @hornU c uIdx hfirst hu hafter =>
      have hmarked : clearCircumflexAt (setMod e.states (e.hornTargetU uIdx) .horn)
          (lastA e.states) = e.marked ⟨e.hornTargetU uIdx, .horn, lastA e.states, false⟩ := by
        unfold marked clearCircumflexAt
        cases lastA e.states <;> rfl
      rw [hmarked]
      exact tonedAlike_relocateToneToHornVowel hsingle
  | hornO => exact tonedAlike_relocateToneToHornVowel hsingle
  | hornA => exact .refl _
  | vni =>
      rw [if_neg (Bool.eq_false_iff.mp hspec)]
      exact .refl _

/-! ## Tones on vowels -/

omit [WideCType] in
theorem tonesOnVowels_setMod (h : TonesOnVowels states) (i : Nat) (mod : Modifier) :
    TonesOnVowels (setMod states i mod) := by
  intro s hs
  obtain ⟨j, hj, rfl⟩ := List.getElem_of_mem hs
  have hj' : j < states.length := by simpa using hj
  have hold := h states[j] (List.getElem_mem hj')
  simp only [setMod, List.getElem_modify]
  split_ifs <;> exact hold

omit [WideCType] in
theorem tonesOnVowels_marked (h : TonesOnVowels e.states) (call : ProbeCall) :
    TonesOnVowels (e.marked call) := by
  have hmod : TonesOnVowels (setVowelMod e.states call.targetIdx call.newMod) := by
    rcases setVowelMod_cases e.states call.targetIdx call.newMod with hstates | ⟨-, hstates⟩
    · rw [hstates]
      exact tonesOnVowels_setMod h _ _
    · rw [hstates]
      exact tonesOnVowels_setMod (tonesOnVowels_setMod h _ _) _ _
  unfold marked tentativeStates
  dsimp only
  split
  · split_ifs
    · exact tonesOnVowels_setMod hmod _ _
    · exact hmod
  · exact hmod

theorem tonesOnVowels_of_run (e : TypingEngine) (ops : List Op) :
    TonesOnVowels (e.reset.performAll ops).states := by
  have hfits : LettersFit True (e.reset.performAll ops).states :=
    performAll_invariant (fun e => LettersFit True e.states)
      (fun e op h => by
        cases op with
        | pushChar key => exact lettersFit_pushChar h fun _ => trivial
        | backspace => exact lettersFit_backspace h)
      (by simp [LettersFit, reset]) ops
  exact fun s hs => (hfits s hs).vowel

/-! ## The probe -/

/-- The probe leaves no trace, and a site applies the modifier exactly where the probe accepts it
or an exclusion lets it through.  Where the probe relocates the tone as its caller does, or the
caller has no tone to relocate, it answers whether the produced buffer is acceptable; where it
leaves the tone in place, what it accepts is.  Buffers with a defect besides the tone of their stop
coda are set apart: the probe accepts them. -/
theorem probe_predicts :
    (∀ (e : TypingEngine) (call : ProbeCall), (e.probe call).1 = e.states) ∧
    (∀ (e : TypingEngine) (ops : List Op), TonesOnVowels (e.reset.performAll ops).states) ∧
    ∀ e : TypingEngine, e.config.spellCheckEnabled = true → e.states.length ≤ kVowelCap →
      TonesOnVowels e.states →
      ∀ call lifted produced result, ProbeSite e call lifted produced result →
        result = e.outcome call lifted produced ∧
        (call.speculateRelocateTone = true ∨ produced = e.marked call →
          ¬ e.HasFurtherDefect produced →
          ((e.probe call).2 = true ↔ e.IsAcceptable produced)) ∧
        (call.speculateRelocateTone = false → ¬ e.HasFurtherDefect (e.marked call) →
          (e.probe call).2 = true → e.IsAcceptable produced) := by
  refine ⟨fun e call => fst_probeSyllable _, tonesOnVowels_of_run, ?_⟩
  intro e hspell hlength hvowels call lifted produced result hsite
  have hanswer := hsite.answer_eq hspell hlength
  refine ⟨hsite.result_eq hspell, fun hsame hdefect => ?_, fun hspec hdefect haccept => ?_⟩
  · have hjudged : e.judged call = produced := by
      cases hspec : call.speculateRelocateTone with
      | true => exact (hsite.produced_eq hspec).symm
      | false =>
          rw [hspec] at hsame
          rw [judged, hspec, if_neg Bool.false_ne_true]
          exact (hsame.resolve_left Bool.false_ne_true).symm
    rw [hanswer, hjudged]
    exact acceptsTentative_iff hdefect
  · have hjudged : e.judged call = e.marked call := by
      rw [judged, hspec, if_neg Bool.false_ne_true]
    rw [hanswer, hjudged, acceptsTentative_iff hdefect] at haccept
    have hsingle := haccept.hasSingleTone (tonesOnVowels_marked hvowels call)
    exact haccept.tonedAlike (hsite.tonedAlike hspec hlength hsingle)

end Prediction

/-- `súat` and `a`: the probe relocates the tone as its caller does, to `suất`. -/
theorem probe_predicts_susat :
    (((new {}).reset.performAll (typing "susat")).probe ⟨2, .circumflex, none, true⟩).2 = true ↔
      ((new {}).reset.performAll (typing "susat")).IsAcceptable
        (relocateToneToTarget true
          (setMod ((new {}).reset.performAll (typing "susat")).states 2 .circumflex)) := by
  have hkey : CircumflexKey ((new {}).reset.performAll (typing "susat")) .circumflexA (L 'a') :=
    ⟨by decide, fun _ => by decide +kernel, by decide⟩
  have hsite := ProbeSite.freeMark (i := 2) hkey (by decide +kernel) (by decide +kernel)
    (by decide +kernel) (by decide +kernel) (.inr (by decide +kernel))
    (fun hcompanion => absurd hcompanion.2.1 (by decide +kernel))
  have hcross : ((new {}).reset.performAll (typing "susat")).crossesVowel
      (((new {}).reset.performAll (typing "susat")).circumflexBase .circumflexA (L 'a')) 2 =
        false := by
    decide +kernel
  rw [hcross] at hsite
  exact (probe_predicts.2.2 _ (by decide +kernel) (by decide +kernel)
    (tonesOnVowels_of_run _ _) _ _ _
    _ hsite).2.1 (.inl rfl) fun hdefect => absurd hdefect.1 (by decide +kernel)

/-- `túa` is a complete syllable, where the probe for a second `a` leaves the tone in place and
rejects; its caller would relocate the tone to `tuấ`, which is acceptable. -/
theorem not_probe_exact_tuas :
    ¬ ∀ (config : TypingConfig) (ops : List Op), config.spellCheckEnabled = true →
      ((new config).reset.performAll ops).states.length ≤ 16 →
      ∀ call lifted produced result,
        ProbeSite ((new config).reset.performAll ops) call lifted produced result →
        ((((new config).reset.performAll ops).probe call).2 = true ↔
          ((new config).reset.performAll ops).IsAcceptable produced) := by
  intro h
  have hkey : CircumflexKey ((new {}).reset.performAll (typing "tuas")) .circumflexA (L 'a') :=
    ⟨by decide, fun _ => by decide +kernel, by decide⟩
  have hsite := ProbeSite.adjacent hkey (by decide +kernel) (by decide +kernel) (by decide +kernel)
    (by decide +kernel)
  have hanswer := (h {} (typing "tuas") rfl (by decide +kernel) _ _ _ _ hsite).mpr
    (.inl (by decide +kernel))
  exact absurd hanswer (by decide +kernel)

/-- `tàuc` and `a`: the probe accepts `tầuc` for its tone, though `âu` takes no coda at all. -/
theorem not_isAcceptable_of_probe_tafuc :
    ¬ ∀ (config : TypingConfig) (ops : List Op), config.spellCheckEnabled = true →
      ((new config).reset.performAll ops).states.length ≤ 16 →
      ∀ call lifted produced result,
        ProbeSite ((new config).reset.performAll ops) call lifted produced result →
        (((new config).reset.performAll ops).probe call).2 = true →
        ((new config).reset.performAll ops).IsAcceptable produced := by
  intro h
  have hkey : CircumflexKey ((new {}).reset.performAll (typing "tafuc")) .circumflexA (L 'a') :=
    ⟨by decide, fun _ => by decide +kernel, by decide⟩
  have hsite := ProbeSite.freeMark (i := 1) hkey (by decide +kernel) (by decide +kernel)
    (by decide +kernel) (by decide +kernel) (.inr (by decide +kernel))
    (fun hcompanion => absurd hcompanion.2.1 (by decide +kernel))
  rcases h {} (typing "tafuc") rfl (by decide +kernel) _ _ _ _ hsite (by decide +kernel) with
    hvalid | hstop
  · exact absurd hvalid (by decide +kernel)
  · exact absurd hstop.acute (by decide +kernel)

end TypingEngine

end VKey
