import VKey.Engine.SyllablePrefix
import VKey.Engine.TonePlacement

/-!
# Verdicts on the letters alone

The structural verdict on a buffer reads bases and modifiers, and of the tones only the first one,
for the stop codas.  Two buffers with the same letters and the same first tone get the same
structural verdict, wherever the tone sits.
-/

namespace VKey

/-! ## What ignores tones -/

/-- A reading of a buffer that taking the tones off does not change. -/
def IgnoresTones {β : Type} (f : List CharState → β) : Prop :=
  ∀ states, f (states.map CharState.withoutTone) = f states

theorem IgnoresTones.congr {β : Type} {f : List CharState → β} (hf : IgnoresTones f)
    {states states' : List CharState}
    (h : states.map CharState.withoutTone = states'.map CharState.withoutTone) :
    f states = f states' := by
  rw [← hf states, h, hf states']

@[simp] theorem base_withoutTone (s : CharState) : s.withoutTone.base = s.base := rfl

@[simp] theorem mod_withoutTone (s : CharState) : s.withoutTone.mod = s.mod := rfl

@[simp] theorem isVowel_withoutTone (s : CharState) : s.withoutTone.isVowel = s.isVowel := rfl

@[simp] theorem isD_withoutTone (s : CharState) : s.withoutTone.isD = s.isD := rfl

@[simp] theorem hasModifier_withoutTone (s : CharState) :
    s.withoutTone.hasModifier = s.hasModifier := rfl

theorem ignoresTones_length : IgnoresTones List.length := fun states => by simp

theorem ignoresTones_base (i : Nat) : IgnoresTones fun states => (stateAt states i).base :=
  fun states => by simp

theorem ignoresTones_mod (i : Nat) : IgnoresTones fun states => (stateAt states i).mod :=
  fun states => by simp

theorem ignoresTones_isVowel (i : Nat) : IgnoresTones fun states => (stateAt states i).isVowel :=
  fun states => by simp

theorem ignoresTones_isD (i : Nat) : IgnoresTones fun states => (stateAt states i).isD :=
  fun states => by simp

theorem ignoresTones_hasStopFinalCoda [WideCType] : IgnoresTones hasStopFinalCoda := by
  intro states
  simp [hasStopFinalCoda]

namespace Phonology

theorem ignoresTones_parseInitialConsonant (allowZwjf : Bool) :
    IgnoresTones (parseInitialConsonant · allowZwjf) := by
  intro states
  simp [parseInitialConsonant, isStrokeD]

theorem ignoresTones_parseFinalConsonant : IgnoresTones parseFinalConsonant := by
  intro coda
  simp [parseFinalConsonant]

theorem ignoresTones_finalConsonantBit (finalLen : Nat) :
    IgnoresTones (finalConsonantBit · finalLen) := by
  intro coda
  simp [finalConsonantBit]

theorem ignoresTones_isStopFinal (finalLen : Nat) : IgnoresTones (isStopFinal · finalLen) := by
  intro coda
  simp [isStopFinal]

theorem ignoresTones_slotParts : IgnoresTones slotParts := by
  intro vowels
  simp only [slotParts, List.mapM_map]
  rfl

theorem ignoresTones_tryModifiedVowels (pred : VowelEntry → Bool) :
    IgnoresTones (tryModifiedVowels · pred) := by
  intro vowels
  simp [tryModifiedVowels, ignoresTones_slotParts vowels]

theorem ignoresTones_isValidConsonantPrefix (allowZwjf : Bool) :
    IgnoresTones (isValidConsonantPrefix · allowZwjf) := by
  intro states
  simp [isValidConsonantPrefix, isStrokeD]

theorem ignoresTones_violatesOnsetVowelRule (initialLen : Nat) :
    IgnoresTones (violatesOnsetVowelRule · initialLen) := by
  intro states
  simp [violatesOnsetVowelRule]

theorem ignoresTones_violatesOeOaRule (initialLen : Nat) :
    IgnoresTones (violatesOeOaRule · initialLen) := by
  intro states
  simp [violatesOeOaRule]

/-! ## The structural verdict -/

section Verdict

variable {states states' : List CharState}

/-- Vowels and coda of two rhymes with the same letters are the same letters. -/
theorem map_takeWhile_isVowel
    (h : states.map CharState.withoutTone = states'.map CharState.withoutTone) :
    (states.takeWhile (·.isVowel)).map CharState.withoutTone =
        (states'.takeWhile (·.isVowel)).map CharState.withoutTone ∧
      (states.dropWhile (·.isVowel)).map CharState.withoutTone =
        (states'.dropWhile (·.isVowel)).map CharState.withoutTone := by
  have htake : ∀ ss : List CharState, (ss.takeWhile (·.isVowel)).map CharState.withoutTone =
      (ss.map CharState.withoutTone).takeWhile (·.isVowel) := fun ss => by
    rw [List.takeWhile_map]
    rfl
  have hdrop : ∀ ss : List CharState, (ss.dropWhile (·.isVowel)).map CharState.withoutTone =
      (ss.map CharState.withoutTone).dropWhile (·.isVowel) := fun ss => by
    rw [List.dropWhile_map]
    rfl
  rw [htake, htake, hdrop, hdrop, h]
  exact ⟨rfl, rfl⟩

theorem validateCoda_congr (htone : getTone states = getTone states')
    {vowels vowels' coda coda' : List CharState}
    (hvowels : vowels.map CharState.withoutTone = vowels'.map CharState.withoutTone)
    (hcoda : coda.map CharState.withoutTone = coda'.map CharState.withoutTone) (key : Nat)
    (entry : VowelEntry) :
    validateCoda states vowels coda key entry = validateCoda states' vowels' coda' key entry := by
  have hempty : coda.isEmpty = coda'.isEmpty := by
    simpa using congrArg List.isEmpty hcoda
  have hlength := ignoresTones_length.congr hcoda
  have hcount := ignoresTones_length.congr hvowels
  have hbase := (ignoresTones_base 0).congr hcoda
  have hvbase := (ignoresTones_base 0).congr hvowels
  have hvmod := (ignoresTones_mod 0).congr hvowels
  have hfinal := ignoresTones_parseFinalConsonant.congr hcoda
  have hbit := (ignoresTones_finalConsonantBit (parseFinalConsonant coda')).congr hcoda
  have hstop := (ignoresTones_isStopFinal (parseFinalConsonant coda')).congr hcoda
  have htry := (ignoresTones_tryModifiedVowels fun e =>
    e.canEnd && parseFinalConsonant coda' == coda'.length).congr hvowels
  unfold validateCoda
  dsimp only
  rw [hempty, hfinal, hlength, hcount, hbase, hvbase, hvmod, hbit, hstop, htry, htone]

theorem validateDecomposition_congr
    (h : states.map CharState.withoutTone = states'.map CharState.withoutTone)
    (htone : getTone states = getTone states') (len : Nat) :
    validateDecomposition states len = validateDecomposition states' len := by
  have hrhyme : (states.drop len).map CharState.withoutTone =
      (states'.drop len).map CharState.withoutTone := by
    rw [List.map_drop, List.map_drop, h]
  obtain ⟨hvowels, hcoda⟩ := map_takeWhile_isVowel hrhyme
  unfold validateDecomposition
  dsimp only
  have hempty : (states.drop len).isEmpty = (states'.drop len).isEmpty := by
    simpa only [List.isEmpty_map] using congrArg List.isEmpty hrhyme
  generalize (states.drop len).takeWhile (·.isVowel) = vowels at hvowels ⊢
  generalize (states'.drop len).takeWhile (·.isVowel) = vowels' at hvowels ⊢
  generalize (states.drop len).dropWhile (·.isVowel) = coda at hcoda ⊢
  generalize (states'.drop len).dropWhile (·.isVowel) = coda' at hcoda ⊢
  have hcount := ignoresTones_length.congr hvowels
  have hlength := ignoresTones_length.congr hcoda
  have hcodaEmpty : coda.isEmpty = coda'.isEmpty := by
    simpa only [List.isEmpty_map] using congrArg List.isEmpty hcoda
  have htry := (ignoresTones_tryModifiedVowels fun e =>
    coda'.isEmpty || (e.canEnd && parseFinalConsonant coda' == coda'.length)).congr hvowels
  have hverdict := validateCoda_congr htone hvowels hcoda
  rw [hempty, hcount, hcodaEmpty, hlength, ignoresTones_slotParts.congr hvowels,
    ignoresTones_parseFinalConsonant.congr hcoda, htry]
  simp only [hverdict]

theorem validateDual_congr
    (h : states.map CharState.withoutTone = states'.map CharState.withoutTone)
    (htone : getTone states = getTone states') (result : SyllableState) :
    validateDual states result = validateDual states' result := by
  have hlength := ignoresTones_length.congr h
  have hbase := fun i => (ignoresTones_base i).congr h
  have hvowel := fun i => (ignoresTones_isVowel i).congr h
  unfold validateDual
  simp only [hlength, hbase, hvowel, validateDecomposition_congr h htone]

/-- Buffers with the same letters and the same first tone get the same structural verdict. -/
theorem validateImpl_congr
    (h : states.map CharState.withoutTone = states'.map CharState.withoutTone)
    (htone : getTone states = getTone states') (allowZwjf : Bool) :
    validateImpl states allowZwjf = validateImpl states' allowZwjf := by
  have hlength := ignoresTones_length.congr h
  have hmod := (ignoresTones_mod 0).congr h
  have hisD := (ignoresTones_isD 0).congr h
  have hvowel := fun i => (ignoresTones_isVowel i).congr h
  have hparsed := (ignoresTones_parseInitialConsonant allowZwjf).congr h
  have honset := (ignoresTones_isValidConsonantPrefix allowZwjf).congr h
  have honsetRule := fun len => (ignoresTones_violatesOnsetVowelRule len).congr h
  have hoeRule := fun len => (ignoresTones_violatesOeOaRule len).congr h
  unfold validateImpl
  simp only [hlength, hmod, hisD, hvowel, hparsed, honset, honsetRule, hoeRule,
    validateDecomposition_congr h htone, validateDual_congr h htone]

end Verdict

/-! ## The tone, wherever it sits -/

section Tone

variable {states states' : List CharState} {allowZwjf : Bool} {i t : Nat}

/-- The tone of a letter is the first one if no other letter has one. -/
theorem getTone_of_hasTone (htoned : (stateAt states i).hasTone = true)
    (hothers : ∀ j, j ≠ i → (stateAt states j).tone = .none) :
    getTone states = (stateAt states i).tone := by
  have hi : i < states.length := by
    by_contra hi
    rw [stateAt_of_le (by omega)] at htoned
    exact absurd htoned (by decide)
  have hfind : states.find? (·.hasTone) = some (stateAt states i) := by
    rw [List.find?_eq_some_iff_getElem]
    refine ⟨htoned, i, hi, (stateAt_eq_getElem hi).symm, fun j hji => ?_⟩
    have hnone := hothers j (by omega)
    rw [stateAt_eq_getElem (by omega)] at hnone
    simp [CharState.hasTone, hnone]
  rw [getTone, hfind]
  rfl

/-- One letter at most is toned exactly if one at most is left when the others are dropped. -/
theorem hasSingleTone_iff_length :
    HasSingleTone states ↔ (states.filter (·.hasTone)).length ≤ 1 := by
  have hshort : ∀ toned : List CharState,
      toned.Pairwise (fun _ _ => False) ↔ toned.length ≤ 1 := by
    intro toned
    rcases toned with _ | ⟨s, _ | ⟨s', rest⟩⟩
    · simp
    · simp
    · exact iff_of_false (fun h => (List.pairwise_cons.mp h).1 s' List.mem_cons_self) (by simp)
  rw [← hshort, List.pairwise_filter, HasSingleTone]
  have hnone : ∀ s : CharState, s.tone = .none ↔ ¬s.hasTone = true := by
    simp [CharState.hasTone]
  simp only [hnone, imp_false, ← not_and_or, not_and]

/-- Every toned letter is a vowel. -/
def TonesOnVowels (states : List CharState) : Prop :=
  ∀ s ∈ states, s.tone ≠ .none → s.isVowel = true

/-- The validator lets only one vowel be toned. -/
theorem hasSingleTone_of_checkToneModInvariant (hvowels : TonesOnVowels states)
    (h : checkToneModInvariant states = true) : HasSingleTone states := by
  have htoned : (states.filter (·.isVowel)).filter (·.hasTone) = states.filter (·.hasTone) := by
    rw [List.filter_filter]
    refine List.filter_congr fun s hs => ?_
    have hvowel := hvowels s hs
    cases htone : s.hasTone with
    | false => rfl
    | true => simp [hvowel (by simpa [CharState.hasTone] using htone)]
  rw [hasSingleTone_iff_length, ← htoned]
  exact (checkToneModInvariant_iff.mp h).1

/-- The same letters and the same first tone, which stands no worse in the second buffer. -/
structure TonedAlike (states states' : List CharState) : Prop where
  letters : states.map CharState.withoutTone = states'.map CharState.withoutTone
  tone : getTone states = getTone states'
  placed : checkToneModInvariant states = true → checkToneModInvariant states' = true

theorem TonedAlike.refl (states : List CharState) : TonedAlike states states := ⟨rfl, rfl, id⟩

/-- A buffer that is not rejected is not rejected after its tone has moved to a better place. -/
theorem TonedAlike.not_invalid (h : TonedAlike states states')
    (hok : validateSyllableState states allowZwjf ≠ .invalid) :
    validateSyllableState states' allowZwjf ≠ .invalid := by
  rw [Ne, validateSyllableState_eq_invalid_iff, not_or, Bool.not_eq_false] at hok ⊢
  rw [← validateImpl_congr h.letters h.tone]
  exact ⟨hok.1, h.placed hok.2⟩

/-- A single tone that moved to a marked vowel. -/
theorem tonedAlike_of_moved
    (hletters : states.map CharState.withoutTone = states'.map CharState.withoutTone)
    (hsingle : HasSingleTone states) (htoned : (stateAt states i).hasTone = true)
    (htone : (stateAt states' t).tone = (stateAt states i).tone)
    (helsewhere : ∀ j, j ≠ t → (stateAt states' j).tone = .none)
    (hmod : (stateAt states' t).hasModifier = true) : TonedAlike states states' := by
  have htoned' : (stateAt states' t).hasTone = true := by
    rw [CharState.hasTone, htone]
    exact htoned
  refine ⟨hletters, ?_, fun _ => checkToneModInvariant_iff.mpr ⟨?_, fun s hs _ => ?_⟩⟩
  · rw [getTone_of_hasTone htoned fun j => tone_eq_none_of_ne hsingle htoned,
      getTone_of_hasTone htoned' helsewhere, htone]
  · have hsingle' : HasSingleTone states' := hasSingleTone_iff.mpr fun j k hjk => by
      by_cases hj : j = t
      · exact .inr (helsewhere k (hj ▸ hjk.symm))
      · exact .inl (helsewhere j hj)
    have hsublist :=
      (List.filter_sublist (p := fun s : CharState => s.isVowel) (l := states')).filter
      fun s => s.hasTone
    exact Nat.le_trans hsublist.length_le (hasSingleTone_iff_length.mp hsingle')
  · obtain ⟨hs, hstoned⟩ := List.mem_filter.mp hs
    obtain ⟨j, hj, rfl⟩ := List.getElem_of_mem (List.mem_filter.mp hs).1
    have hjt : j = t := by
      by_contra hne
      have hnone := helsewhere j hne
      rw [stateAt_eq_getElem hj] at hnone
      simp [CharState.hasTone, hnone] at hstoned
    rw [← stateAt_eq_getElem hj, hjt]
    exact hmod

/-! ## An acute in the place of the tone -/

end Tone

end Phonology

/-- The letter with an acute for its tone. -/
def CharState.withAcute (s : CharState) : CharState :=
  if s.hasTone then { s with tone := .acute } else s

/-- The buffer with an acute for each of its tones. -/
def withAcute (states : List CharState) : List CharState := states.map CharState.withAcute

@[simp] theorem withoutTone_withAcute (s : CharState) :
    s.withAcute.withoutTone = s.withoutTone := by
  unfold CharState.withAcute
  split_ifs <;> rfl

@[simp] theorem isVowel_withAcute (s : CharState) : s.withAcute.isVowel = s.isVowel := by
  rw [← isVowel_withoutTone, withoutTone_withAcute, isVowel_withoutTone]

@[simp] theorem hasModifier_withAcute (s : CharState) :
    s.withAcute.hasModifier = s.hasModifier := by
  rw [← hasModifier_withoutTone, withoutTone_withAcute, hasModifier_withoutTone]

@[simp] theorem hasTone_withAcute (s : CharState) : s.withAcute.hasTone = s.hasTone := by
  unfold CharState.withAcute
  split_ifs with h
  · exact h.symm
  · rfl

theorem filter_withAcute (test : CharState → Bool) (htest : ∀ s, test s.withAcute = test s)
    (states : List CharState) :
    (withAcute states).filter test = withAcute (states.filter test) := by
  rw [withAcute, withAcute, List.filter_map]
  congr 2
  exact funext htest

namespace Phonology

section Acute

variable {states states' : List CharState}

theorem map_withoutTone_withAcute (states : List CharState) :
    (withAcute states).map CharState.withoutTone = states.map CharState.withoutTone := by
  simp [withAcute]

theorem getTone_withAcute (states : List CharState) :
    getTone (withAcute states) = if getTone states = .none then .none else .acute := by
  have hfind : (withAcute states).find? (·.hasTone) =
      (states.find? (·.hasTone)).map CharState.withAcute := by
    rw [withAcute, List.find?_map]
    congr 2
    exact funext hasTone_withAcute
  rw [getTone, hfind, getTone]
  cases hfirst : states.find? (·.hasTone) with
  | none => rfl
  | some s =>
      have htoned := List.find?_some hfirst
      have htone : s.tone ≠ .none := by simpa [CharState.hasTone] using htoned
      simp [CharState.withAcute, htoned, htone]

theorem checkToneModInvariant_withAcute (states : List CharState) :
    checkToneModInvariant (withAcute states) = checkToneModInvariant states := by
  unfold checkToneModInvariant
  dsimp only
  rw [filter_withAcute (·.isVowel) isVowel_withAcute,
    filter_withAcute (·.hasTone) hasTone_withAcute]
  generalize states.filter (·.isVowel) = vowels
  generalize vowels.filter (·.hasTone) = toned
  rcases toned with _ | ⟨s, _ | ⟨s', rest⟩⟩
  · rfl
  · simp [withAcute, Function.comp_def]
  · rfl

theorem TonedAlike.withAcute (h : TonedAlike states states') :
    TonedAlike (withAcute states) (withAcute states') where
  letters := by rw [map_withoutTone_withAcute, map_withoutTone_withAcute, h.letters]
  tone := by rw [getTone_withAcute, getTone_withAcute, h.tone]
  placed := by
    rw [checkToneModInvariant_withAcute, checkToneModInvariant_withAcute]
    exact h.placed

end Acute

end Phonology

end VKey
