import VKey.Engine.WellFormed

/-!
# Where the tone is placed

The tone target is chosen on a copy of the buffer that holds at most sixteen rendered vowels, and
mapped back to the buffer.  This module reads the choice on the buffer itself: every nucleus vowel
is rendered to a letter that the phonotactics take apart again, so positions in the copy and
positions in the buffer correspond in order.  Relocation looks at the letters alone to choose the
target, which is why a second one finds nothing to move.
-/

namespace VKey

/-! ## The nucleus -/

/-- A vowel outside the onset cluster. -/
def isNucleusVowel (states : List CharState) (i : Nat) : Bool :=
  (stateAt states i).isVowel && !isClusterConsonant states i

/-- The nucleus vowels that tone placement looks at. -/
def firstNucleusVowels (states : List CharState) : List Nat :=
  ((List.range states.length).filter (isNucleusVowel states)).take kVowelCap

/-- The letter is rendered as `ơ` or `ư`. -/
def CharState.showsHorn (s : CharState) : Bool :=
  s.isHorn && (s.base == L 'o' || s.base == L 'u')

/-- The letter is rendered as `â`, `ê`, `ô` or `ă`. -/
def CharState.showsCircumflexOrBreve (s : CharState) : Bool :=
  (s.mod == .circumflex && (s.base == L 'a' || s.base == L 'e' || s.base == L 'o')) ||
    (s.mod == .breve && s.base == L 'a')

theorem lt_length_of_isNucleusVowel {states : List CharState} {i : Nat}
    (h : isNucleusVowel states i = true) : i < states.length := by
  by_contra hi
  rw [isNucleusVowel, stateAt_of_le (by omega)] at h
  simp [CharState.isVowel, L] at h

theorem pairwise_firstNucleusVowels (states : List CharState) :
    (firstNucleusVowels states).Pairwise (· < ·) :=
  (List.pairwise_lt_range.sublist List.filter_sublist).sublist (List.take_sublist _ _)

theorem getElem_firstNucleusVowels_le {states : List CharState} {k m : Nat}
    (hk : k < (firstNucleusVowels states).length) (hm : m < (firstNucleusVowels states).length) :
    (firstNucleusVowels states)[k] ≤ (firstNucleusVowels states)[m] ↔ k ≤ m := by
  have hlt := List.pairwise_iff_getElem.mp (pairwise_firstNucleusVowels states)
  rcases Nat.lt_trichotomy k m with h | rfl | h
  · exact iff_of_true (Nat.le_of_lt (hlt k m hk hm h)) (Nat.le_of_lt h)
  · exact iff_of_true (Nat.le_refl _) (Nat.le_refl _)
  · exact iff_of_false (Nat.not_le.mpr (hlt m k hm hk h)) (Nat.not_le.mpr h)

theorem length_firstNucleusVowels_le (states : List CharState) :
    (firstNucleusVowels states).length ≤ 16 := by
  exact Nat.le_trans (List.length_take_le _ _) (by decide)

theorem isNucleusVowel_of_mem {states : List CharState} {i : Nat}
    (h : i ∈ firstNucleusVowels states) : isNucleusVowel states i = true :=
  (List.mem_filter.mp (List.mem_of_mem_take h)).2

theorem firstNucleusVowels_eq_nil {states : List CharState} :
    firstNucleusVowels states = [] ↔ ∀ i, isNucleusVowel states i = false := by
  have hcap : kVowelCap ≠ 0 := by decide
  rw [firstNucleusVowels, List.take_eq_nil_iff, List.filter_eq_nil_iff]
  constructor
  · rintro (h | h) i
    · exact absurd h hcap
    · rw [← Bool.not_eq_true]
      exact fun hi => h i (List.mem_range.mpr (lt_length_of_isNucleusVowel hi)) hi
  · exact fun h => .inr fun i _ => by simp [h i]

/-! ## The phonotactics -/

namespace Phonology

theorem findDiphthongTone_lt {vowels : List (WChar × Modifier)} (h : 2 ≤ vowels.length)
    (hasCoda modernOrtho : Bool) :
    findDiphthongTone vowels hasCoda modernOrtho < vowels.length := by
  unfold findDiphthongTone
  dsimp only
  generalize diphthongVowelIndex (vowels.getD (vowels.length - 3) (0, .none)).1 = shiftFirst
  generalize diphthongVowelIndex (vowels.getD (vowels.length - 2) (0, .none)).1 = first
  generalize diphthongVowelIndex (vowels.getD (vowels.length - 1) (0, .none)).1 = last
  have hlast : vowels.length - 1 < vowels.length := by omega
  have hfirst : vowels.length - 2 < vowels.length := by omega
  have hsecond : vowels.length - 2 + 1 < vowels.length := by omega
  by_cases hlong : 3 ≤ vowels.length
  · -- every position that may be chosen is one of the last three
    have hthird : vowels.length - 3 < vowels.length := by omega
    have hshifted : vowels.length - 3 + 1 < vowels.length := by omega
    split
    · split_ifs <;> assumption
    · exact hlast
  · -- two vowels are not shifted
    cases shiftFirst <;> cases first <;> cases last <;>
      simp only [hlong, decide_false, Bool.false_and, Bool.false_eq_true, if_false] <;>
      first | exact hlast | split_ifs <;> assumption

variable {vowelSeq coda : List WChar} {modernOrtho : Bool}

/-- The modifier that the phonotactics see at a position of the vowel sequence. -/
def modAt (vowelSeq : List WChar) (i : Nat) : Modifier :=
  ((vowelSeq.map decompose).getD i (0, .none)).2

/-- The position is that of the last horned vowel, or of the first one with a circumflex or a breve
if no vowel is horned. -/
structure TakesTone (vowelSeq : List WChar) (k : Nat) : Prop where
  lt : k < vowelSeq.length
  horn : ∀ i, i < vowelSeq.length → modAt vowelSeq i = .horn → modAt vowelSeq k = .horn ∧ i ≤ k
  circumflexOrBreve : (∀ j, j < vowelSeq.length → modAt vowelSeq j ≠ .horn) →
    ∀ i, i < vowelSeq.length → (modAt vowelSeq i = .circumflex ∨ modAt vowelSeq i = .breve) →
      (modAt vowelSeq k = .circumflex ∨ modAt vowelSeq k = .breve) ∧ k ≤ i

namespace TakesTone

variable {k : Nat}

theorem of_lastHorn (hk : k < vowelSeq.length) (hkhorn : modAt vowelSeq k = .horn)
    (hlast : ∀ i, k < i → i < vowelSeq.length → modAt vowelSeq i ≠ .horn) :
    TakesTone vowelSeq k where
  lt := hk
  horn := fun i hi hihorn => ⟨hkhorn, Nat.le_of_not_lt fun hki => hlast i hki hi hihorn⟩
  circumflexOrBreve := fun hnone => absurd hkhorn (hnone k hk)

theorem of_firstHat (hk : k < vowelSeq.length)
    (hnone : ∀ i, i < vowelSeq.length → modAt vowelSeq i ≠ .horn)
    (hmod : modAt vowelSeq k = .circumflex ∨ modAt vowelSeq k = .breve)
    (hfirst : ∀ i, modAt vowelSeq i = .circumflex ∨ modAt vowelSeq i = .breve → k ≤ i) :
    TakesTone vowelSeq k where
  lt := hk
  horn := fun i hi hihorn => absurd hihorn (hnone i hi)
  circumflexOrBreve := fun _ i _ hmodi => ⟨hmod, hfirst i hmodi⟩

theorem of_plain (hnone : ∀ i, i < vowelSeq.length → modAt vowelSeq i ≠ .horn)
    (hnohat : ∀ i, i < vowelSeq.length →
      ¬ (modAt vowelSeq i = .circumflex ∨ modAt vowelSeq i = .breve))
    (hk : k < vowelSeq.length) : TakesTone vowelSeq k where
  lt := hk
  horn := fun i hi hihorn => absurd hihorn (hnone i hi)
  circumflexOrBreve := fun _ i hi hmodi => absurd hmodi (hnohat i hi)

end TakesTone

/-- A sequence of at most sixteen vowels has a position for the tone. -/
theorem findTonePosition_spec (hvowel : ∀ c ∈ vowelSeq, (decompose c).1 ≠ 0)
    (hcap : vowelSeq.length ≤ 16) (hne : vowelSeq ≠ []) :
    ∃ k, findTonePosition vowelSeq coda modernOrtho = some k ∧ TakesTone vowelSeq k := by
  have hall : ((vowelSeq.map decompose).filter (·.1 != 0)).take 16 = vowelSeq.map decompose := by
    rw [List.filter_eq_self.mpr, List.take_of_length_le (by simpa using hcap)]
    intro d hd
    obtain ⟨c, hc, rfl⟩ := List.mem_map.mp hd
    simpa using hvowel c hc
  have hpos : vowelSeq.length ≠ 0 := fun h => hne (List.length_eq_zero_iff.mp h)
  unfold findTonePosition
  simp only [hall, List.length_map, if_neg hpos]
  cases hhorn : scanDown (fun i => ((vowelSeq.map decompose).getD i (0, .none)).2 == .horn)
      vowelSeq.length with
  | some k =>
      obtain ⟨hk, hmod, hlast⟩ := scanDown_eq_some hhorn
      refine ⟨k, rfl, .of_lastHorn hk (by simpa [modAt] using hmod) fun i hki hi => ?_⟩
      simpa [modAt] using hlast i hki hi
  | none =>
      have hnone : ∀ i, i < vowelSeq.length → modAt vowelSeq i ≠ .horn := by
        intro i hi
        simpa [modAt] using scanDown_eq_none.mp hhorn i hi
      dsimp only
      cases hhat : scanUp (fun i => ((vowelSeq.map decompose).getD i (0, .none)).2 == .circumflex ||
          ((vowelSeq.map decompose).getD i (0, .none)).2 == .breve) vowelSeq.length with
      | some k =>
          obtain ⟨hk, hmod⟩ := scanUp_eq_some hhat
          refine ⟨k, rfl, .of_firstHat hk hnone (by simpa [modAt] using hmod) fun i hmodi => ?_⟩
          exact le_of_scanUp_eq_some hhat (by simpa [modAt] using hmodi)
      | none =>
          have hnohat : ∀ i, i < vowelSeq.length →
              ¬ (modAt vowelSeq i = .circumflex ∨ modAt vowelSeq i = .breve) := by
            intro i hi
            simpa [modAt] using scanUp_eq_none.mp hhat i hi
          have hplain {k : Nat} (hk : k < vowelSeq.length) : TakesTone vowelSeq k :=
            .of_plain hnone hnohat hk
          dsimp only
          split_ifs with hshort htri htail
          · exact ⟨_, rfl, hplain (by omega)⟩
          · exact ⟨_, rfl, hplain (by omega)⟩
          · exact ⟨_, rfl, hplain (by omega)⟩
          · have hcount : 2 ≤ (vowelSeq.map decompose).length := by
              rw [List.length_map]
              omega
            have hlt := findDiphthongTone_lt hcount (!coda.isEmpty) modernOrtho
            rw [List.length_map] at hlt
            exact ⟨_, rfl, hplain hlt⟩

theorem findTonePosition_congr_coda {coda' : List WChar} (h : coda.isEmpty = coda'.isEmpty) :
    findTonePosition vowelSeq coda modernOrtho = findTonePosition vowelSeq coda' modernOrtho := by
  simp only [findTonePosition, h]

end Phonology

/-! ## The copy of the buffer -/

section Copy

variable [WideCType]

/-- The modifier that a vowel is rendered with. -/
def CharState.shownMod (s : CharState) : Modifier :=
  if s.showsHorn then .horn else if s.showsCircumflexOrBreve then s.mod else .none

theorem decompose_compose_canonical {s : CharState} (h : s.isVowel = true) :
    Phonology.decompose (compose s.canonical) = (s.base, s.shownMod) := by
  obtain ⟨base, mod, tone, isUpper, synthetic, rawIdx, toneRawIdx⟩ := s
  simp only [CharState.isVowel, Bool.or_eq_true, beq_iff_eq] at h
  obtain ((((rfl | rfl) | rfl) | rfl) | rfl) | rfl := h <;> cases mod <;> rfl

omit [WideCType] in
theorem mod_of_showsCircumflexOrBreve {s : CharState} (h : s.showsCircumflexOrBreve = true) :
    s.mod = .circumflex ∨ s.mod = .breve := by
  simp only [CharState.showsCircumflexOrBreve, Bool.or_eq_true, Bool.and_eq_true, beq_iff_eq] at h
  exact h.imp And.left And.left

omit [WideCType] in
theorem shownMod_eq_horn {s : CharState} : s.shownMod = .horn ↔ s.showsHorn = true := by
  unfold CharState.shownMod
  split_ifs with hhorn hhat
  · simp [hhorn]
  · obtain hmod | hmod := mod_of_showsCircumflexOrBreve hhat <;> simp [hhorn, hmod]
  · simp [hhorn]

omit [WideCType] in
theorem shownMod_eq_circumflex_or_breve {s : CharState} :
    (s.shownMod = .circumflex ∨ s.shownMod = .breve) ↔ s.showsCircumflexOrBreve = true := by
  unfold CharState.shownMod
  split_ifs with hhorn hhat
  · have hmod : s.mod = .horn := by
      simp only [CharState.showsHorn, CharState.isHorn, Bool.and_eq_true, beq_iff_eq] at hhorn
      exact hhorn.1
    simp [CharState.showsCircumflexOrBreve, hmod]
  · simp [hhat, mod_of_showsCircumflexOrBreve hhat]
  · simp [hhat]

theorem compose_canonical_ne_zero {s : CharState} (h : s.isVowel = true) :
    compose s.canonical ≠ 0 := by
  refine compose_ne_zero fun hbase => ?_
  have hzero : s.base = 0 := hbase
  simp [CharState.isVowel, hzero, L] at h

theorem nucleusIndices_eq (states : List CharState) :
    nucleusIndices states = firstNucleusVowels states := by
  unfold nucleusIndices firstNucleusVowels
  congr 1
  refine List.filter_congr fun i _ => ?_
  cases hvowel : (stateAt states i).isVowel with
  | false => simp [isNucleusVowel, hvowel]
  | true => simp [isNucleusVowel, hvowel, compose_canonical_ne_zero hvowel]

/-- The rendered vowels of the copy. -/
def vowelSeqOf (states : List CharState) : List WChar :=
  (firstNucleusVowels states).map fun i => compose (stateAt states i).canonical

theorem modAt_vowelSeqOf {states : List CharState} {k : Nat}
    (hk : k < (firstNucleusVowels states).length) :
    Phonology.modAt (vowelSeqOf states) k =
      (stateAt states (firstNucleusVowels states)[k]).shownMod := by
  have hmem : (firstNucleusVowels states)[k] ∈ firstNucleusVowels states := List.getElem_mem hk
  have hvowel : (stateAt states (firstNucleusVowels states)[k]).isVowel = true := by
    have hnucleus := isNucleusVowel_of_mem hmem
    simp only [isNucleusVowel, Bool.and_eq_true] at hnucleus
    exact hnucleus.1
  simp [Phonology.modAt, vowelSeqOf, hk, decompose_compose_canonical hvowel]

/-- The target is the vowel at the position that the phonotactics choose. -/
theorem findToneTarget_eq_some (modernOrtho : Bool) {states : List CharState}
    (hne : firstNucleusVowels states ≠ []) :
    ∃ k, ∃ hk : k < (firstNucleusVowels states).length,
      findToneTarget modernOrtho states = some (firstNucleusVowels states)[k] ∧
      Phonology.TakesTone (vowelSeqOf states) k := by
  have hvowel : ∀ c ∈ vowelSeqOf states, (Phonology.decompose c).1 ≠ 0 := by
    intro c hc
    obtain ⟨i, hi, rfl⟩ := List.mem_map.mp hc
    have hnucleus := isNucleusVowel_of_mem hi
    simp only [isNucleusVowel, Bool.and_eq_true] at hnucleus
    rw [decompose_compose_canonical hnucleus.1]
    intro hzero
    simp [CharState.isVowel, show (stateAt states i).base = 0 from hzero, L] at hnucleus
  have hlast : (firstNucleusVowels states).getLast? =
      some ((firstNucleusVowels states).getLast hne) := List.getLast?_eq_some_getLast hne
  have hcap : (vowelSeqOf states).length ≤ 16 := by
    rw [vowelSeqOf, List.length_map]
    exact length_firstNucleusVowels_le states
  have hseq : vowelSeqOf states ≠ [] := by simpa [vowelSeqOf] using hne
  unfold findToneTarget
  simp only [nucleusIndices_eq, hlast]
  obtain ⟨k, hk, htakes⟩ := Phonology.findTonePosition_spec hvowel hcap hseq
  have hlt : k < (firstNucleusVowels states).length := by simpa [vowelSeqOf] using htakes.lt
  refine ⟨k, hlt, ?_, htakes⟩
  change (Phonology.findTonePosition (vowelSeqOf states) _ modernOrtho).bind _ = _
  rw [hk, Option.bind_some, List.getElem?_eq_getElem hlt]

variable {modernOrtho : Bool} {states : List CharState}

theorem findToneTarget_eq_none :
    findToneTarget modernOrtho states = none ↔ ∀ i, isNucleusVowel states i = false := by
  rw [← firstNucleusVowels_eq_nil]
  constructor
  · intro hnone
    by_contra hne
    obtain ⟨k, hk, htarget, -⟩ := findToneTarget_eq_some modernOrtho hne
    simp [hnone] at htarget
  · intro hnil
    unfold findToneTarget
    simp [nucleusIndices_eq, hnil]

theorem isNucleusVowel_of_findToneTarget {t : Nat}
    (h : findToneTarget modernOrtho states = some t) : isNucleusVowel states t = true := by
  by_cases hne : firstNucleusVowels states = []
  · rw [findToneTarget_eq_none.mpr (firstNucleusVowels_eq_nil.mp hne)] at h
    simp at h
  · obtain ⟨k, hk, htarget, -⟩ := findToneTarget_eq_some modernOrtho hne
    obtain rfl : (firstNucleusVowels states)[k] = t := by simpa [htarget] using h
    exact isNucleusVowel_of_mem (List.getElem_mem hk)

/-- The last horned vowel is the target. -/
theorem findToneTarget_of_horn {i : Nat} (hi : i ∈ firstNucleusVowels states)
    (hhorn : (stateAt states i).showsHorn = true)
    (hlast : ∀ j ∈ firstNucleusVowels states, (stateAt states j).showsHorn = true → j ≤ i) :
    findToneTarget modernOrtho states = some i := by
  obtain ⟨k, hk, htarget, htakes⟩ :=
    findToneTarget_eq_some modernOrtho (List.ne_nil_of_mem hi)
  obtain ⟨m, hm, rfl⟩ := List.getElem_of_mem hi
  have hlength : (vowelSeqOf states).length = (firstNucleusVowels states).length :=
    List.length_map _
  obtain ⟨hkhorn, hmk⟩ := htakes.horn m (by omega) (by
    rw [modAt_vowelSeqOf hm]
    exact shownMod_eq_horn.mpr hhorn)
  rw [modAt_vowelSeqOf hk] at hkhorn
  have hkm := (getElem_firstNucleusVowels_le hk hm).mp
    (hlast _ (List.getElem_mem hk) (shownMod_eq_horn.mp hkhorn))
  obtain rfl : k = m := by omega
  exact htarget

/-- Without a horned vowel the first one with a circumflex or a breve is the target. -/
theorem findToneTarget_of_circumflexOrBreve
    (hnone : ∀ j ∈ firstNucleusVowels states, (stateAt states j).showsHorn = false) {i : Nat}
    (hi : i ∈ firstNucleusVowels states)
    (hhat : (stateAt states i).showsCircumflexOrBreve = true)
    (hfirst : ∀ j ∈ firstNucleusVowels states,
      (stateAt states j).showsCircumflexOrBreve = true → i ≤ j) :
    findToneTarget modernOrtho states = some i := by
  obtain ⟨k, hk, htarget, htakes⟩ :=
    findToneTarget_eq_some modernOrtho (List.ne_nil_of_mem hi)
  obtain ⟨m, hm, rfl⟩ := List.getElem_of_mem hi
  have hlength : (vowelSeqOf states).length = (firstNucleusVowels states).length :=
    List.length_map _
  have hnohorn : ∀ j, j < (vowelSeqOf states).length →
      Phonology.modAt (vowelSeqOf states) j ≠ .horn := by
    intro j hj hmod
    have hj' : j < (firstNucleusVowels states).length := by omega
    rw [modAt_vowelSeqOf hj', shownMod_eq_horn, hnone _ (List.getElem_mem hj')] at hmod
    simp at hmod
  obtain ⟨hkhat, hkm⟩ := htakes.circumflexOrBreve hnohorn m (by omega) (by
    rw [modAt_vowelSeqOf hm]
    exact shownMod_eq_circumflex_or_breve.mpr hhat)
  rw [modAt_vowelSeqOf hk] at hkhat
  have hmk := (getElem_firstNucleusVowels_le hm hk).mp
    (hfirst _ (List.getElem_mem hk) (shownMod_eq_circumflex_or_breve.mp hkhat))
  obtain rfl : k = m := by omega
  exact htarget

end Copy

/-! ## The target does not depend on the tone -/

/-- The letter without its tone. -/
def CharState.withoutTone (s : CharState) : CharState :=
  { s with tone := .none, toneRawIdx := none }

section Congruence

variable {states states' : List CharState}

@[simp] theorem stateAt_map_withoutTone (ss : List CharState) (i : Nat) :
    stateAt (ss.map CharState.withoutTone) i = (stateAt ss i).withoutTone := by
  rw [stateAt, stateAt, List.getD_eq_getElem?_getD, List.getD_eq_getElem?_getD, List.getElem?_map]
  cases ss[i]? <;> rfl

theorem withoutTone_stateAt
    (h : states.map CharState.withoutTone = states'.map CharState.withoutTone) (i : Nat) :
    (stateAt states i).withoutTone = (stateAt states' i).withoutTone := by
  rw [← stateAt_map_withoutTone, ← stateAt_map_withoutTone, h]

theorem isNucleusVowel_congr
    (h : states.map CharState.withoutTone = states'.map CharState.withoutTone) (i : Nat) :
    isNucleusVowel states i = isNucleusVowel states' i := by
  have hlength : states.length = states'.length := by simpa using congrArg List.length h
  have hbase : ∀ i, (stateAt states i).base = (stateAt states' i).base := by
    intro i
    have hsame := congrArg CharState.base (withoutTone_stateAt h i)
    exact hsame
  have hvowel : ∀ i, (stateAt states i).isVowel = (stateAt states' i).isVowel := by
    intro i
    rw [CharState.isVowel, CharState.isVowel, hbase]
  rw [Bool.eq_iff_iff]
  simp [isNucleusVowel, isClusterConsonant, hbase, hvowel, hlength]

theorem firstNucleusVowels_congr
    (h : states.map CharState.withoutTone = states'.map CharState.withoutTone) :
    firstNucleusVowels states = firstNucleusVowels states' := by
  have hlength : states.length = states'.length := by simpa using congrArg List.length h
  unfold firstNucleusVowels
  rw [hlength, funext (isNucleusVowel_congr h)]

variable [WideCType]

theorem vowelSeqOf_congr
    (h : states.map CharState.withoutTone = states'.map CharState.withoutTone) :
    vowelSeqOf states = vowelSeqOf states' := by
  have hshown : ∀ i, compose (stateAt states i).canonical =
      compose (stateAt states' i).canonical := fun i =>
    congrArg (fun s => compose s.canonical) (withoutTone_stateAt h i)
  unfold vowelSeqOf
  rw [firstNucleusVowels_congr h, funext hshown]

theorem isEmpty_coda (ss : List CharState) :
    (((ss.map fun s => compose { s with isUpper := false }).filter (· != 0)).take
      kVowelCap).isEmpty = ss.all fun s => s.base == 0 := by
  have hcap : kVowelCap ≠ 0 := by decide
  rw [Bool.eq_iff_iff, List.isEmpty_iff, List.take_eq_nil_iff, or_iff_right hcap,
    List.filter_eq_nil_iff, List.all_eq_true]
  simp only [List.mem_map, forall_exists_index, and_imp, forall_apply_eq_imp_iff₂, bne_iff_ne,
    ne_eq, not_not, beq_iff_eq]
  refine forall₂_congr fun s _ => ⟨fun hzero => ?_, fun hbase => by simp [compose, hbase]⟩
  by_contra hbase
  exact compose_ne_zero (s := { s with isUpper := false }) hbase hzero

theorem findToneTarget_congr
    (h : states.map CharState.withoutTone = states'.map CharState.withoutTone)
    (modernOrtho : Bool) :
    findToneTarget modernOrtho states = findToneTarget modernOrtho states' := by
  have hbases : ∀ (ss : List CharState) (n : Nat), (ss.drop n).all (fun s => s.base == 0) =
      ((ss.map CharState.withoutTone).drop n).all fun s => s.base == 0 := by
    intro ss n
    rw [← List.map_drop, List.all_map]
    rfl
  have hseq := vowelSeqOf_congr h
  unfold vowelSeqOf at hseq
  unfold findToneTarget
  simp only [nucleusIndices_eq, hseq]
  rw [firstNucleusVowels_congr h]
  cases (firstNucleusVowels states').getLast? with
  | none => rfl
  | some last =>
      dsimp only
      rw [Phonology.findTonePosition_congr_coda]
      rw [isEmpty_coda, isEmpty_coda, hbases states, hbases states', h]

end Congruence

/-! ## Relocation -/

/-- The tone left `i` and arrived at `t` with its raw index, and nothing else changed. -/
structure ToneMoved (states : List CharState) (i t : Nat) (states' : List CharState) : Prop where
  tone : (stateAt states' t).tone = (stateAt states i).tone
  toneRawIdx : (stateAt states' t).toneRawIdx = (stateAt states i).toneRawIdx
  elsewhere : ∀ j, j ≠ t → (stateAt states' j).tone = .none
  others : ∀ j, j ≠ i → j ≠ t → stateAt states' j = stateAt states j
  letters : states'.map CharState.withoutTone = states.map CharState.withoutTone

/-- The tone on `i` belongs on `t` and may go there: it crosses no consonant, and the target is
not just the last of two vowels without a diphthong rule. -/
def mayRelocate (modernOrtho : Bool) (states : List CharState) (i t : Nat) : Bool :=
  t == i || (!hasConsonantBetween states i t && !isToneRelocBlockedByP4 states t modernOrtho)

section Relocation

variable {states : List CharState} {i t : Nat}

theorem tone_eq_none_of_ne (hsingle : HasSingleTone states)
    (htoned : (stateAt states i).hasTone = true) {j : Nat} (hj : j ≠ i) :
    (stateAt states j).tone = .none := by
  have htone : (stateAt states i).tone ≠ .none := by simpa [CharState.hasTone] using htoned
  exact (hasSingleTone_iff.mp hsingle i j (Ne.symm hj)).resolve_left htone

theorem lt_length_of_isVowel (h : (stateAt states i).isVowel = true) : i < states.length := by
  by_contra hi
  rw [stateAt_of_le (by omega)] at h
  simp [CharState.isVowel, L] at h

theorem findTonedVowelIndex_eq_some (hvowel : (stateAt states i).isVowel = true)
    (htoned : (stateAt states i).hasTone = true)
    (hothers : ∀ j, j ≠ i → (stateAt states j).tone = .none) :
    findTonedVowelIndex states = some i := by
  have hi := lt_length_of_isVowel hvowel
  refine List.findIdx?_eq_some_iff_getElem.mpr ⟨hi, ?_, fun j hji => ?_⟩
  · rw [← stateAt_eq_getElem hi, hvowel, htoned]
    rfl
  · have hnone := hothers j (by omega)
    rw [stateAt_eq_getElem (by omega)] at hnone
    simp [CharState.hasTone, hnone]

theorem map_withoutTone_setTone (ss : List CharState) (i : Nat) (tone : Tone)
    (toneRawIdx : Option Nat) :
    (setTone ss i tone toneRawIdx).map CharState.withoutTone =
      ss.map CharState.withoutTone := by
  refine List.ext_getElem (by simp) fun j hj hj' => ?_
  simp only [List.getElem_map, setTone, List.getElem_modify]
  split_ifs <;> rfl

theorem stateAt_modify_modify (f g : CharState → CharState) (hne : t ≠ i) (j : Nat) :
    stateAt ((states.modify t f).modify i g) j =
      if i = j ∧ j < states.length then g (stateAt states j)
      else if t = j ∧ j < states.length then f (stateAt states j)
      else stateAt states j := by
  simp only [stateAt_modify, List.length_modify]
  split_ifs with hij htj
  · omega
  · rfl
  · rfl
  · rfl

theorem stateAt_modify_modify_target (f g : CharState → CharState) (ht : t < states.length)
    (hne : t ≠ i) : stateAt ((states.modify t f).modify i g) t = f (stateAt states t) := by
  rw [stateAt_modify_modify f g hne, if_neg (fun h => hne h.1.symm), if_pos ⟨rfl, ht⟩]

/-- The single tone leaves its letter, and no other letter but the target has one. -/
theorem tone_modify_modify {g : CharState → CharState} (f : CharState → CharState)
    (hg : ∀ s, (g s).tone = .none) (hsingle : HasSingleTone states)
    (htoned : (stateAt states i).hasTone = true) (hne : t ≠ i) (j : Nat) (hj : j ≠ t) :
    (stateAt ((states.modify t f).modify i g) j).tone = .none := by
  rw [stateAt_modify_modify f g hne]
  split_ifs with hij htj
  · exact hg _
  · exact absurd htj.1.symm hj
  · by_cases hji : j = i
    · subst hji
      rw [stateAt_of_le (by omega)]
    · exact tone_eq_none_of_ne hsingle htoned hji

theorem toneMoved_setTone (hsingle : HasSingleTone states)
    (htoned : (stateAt states i).hasTone = true) (ht : t < states.length) (hne : t ≠ i) :
    ToneMoved states i t (setTone (setTone states t (stateAt states i).tone
      (stateAt states i).toneRawIdx) i .none none) := by
  refine ⟨?_, ?_, tone_modify_modify _ (fun _ => rfl) hsingle htoned hne, fun j hji hjt => ?_, ?_⟩
  · simp only [setTone, stateAt_modify_modify_target _ _ ht hne]
  · simp only [setTone, stateAt_modify_modify_target _ _ ht hne]
  · rw [setTone, setTone, stateAt_modify_modify _ _ hne, if_neg (fun h => hji h.1.symm),
      if_neg (fun h => hjt h.1.symm)]
  · rw [map_withoutTone_setTone, map_withoutTone_setTone]

variable [WideCType]

theorem relocateToneToTarget_toneMoved {modernOrtho : Bool} (hsingle : HasSingleTone states)
    (hvowel : (stateAt states i).isVowel = true) (htoned : (stateAt states i).hasTone = true)
    (htarget : findToneTarget modernOrtho states = some t)
    (hmay : mayRelocate modernOrtho states i t = true) :
    ToneMoved states i t (relocateToneToTarget modernOrtho states) := by
  have hothers : ∀ j, j ≠ i → (stateAt states j).tone = .none := fun j hj =>
    tone_eq_none_of_ne hsingle htoned hj
  have hfound := findTonedVowelIndex_eq_some hvowel htoned hothers
  by_cases hti : t = i
  · subst hti
    have hstay : relocateToneToTarget modernOrtho states = states := by
      simp [relocateToneToTarget, relocationToTarget, hfound, htarget]
    rw [hstay]
    exact ⟨rfl, rfl, hothers, fun _ _ _ => rfl, rfl⟩
  · simp only [mayRelocate, beq_eq_false_iff_ne.mpr hti, Bool.false_or, Bool.and_eq_true,
      Bool.not_eq_true'] at hmay
    have hmove : relocationToTarget modernOrtho states = some (i, t) := by
      simp [relocationToTarget, hfound, htarget, hti, hmay.1, hmay.2]
    rw [relocateToneToTarget, hmove]
    exact toneMoved_setTone hsingle htoned (findToneTarget_spec htarget).1 hti

theorem relocationToTarget_eq_some {modernOrtho : Bool}
    (h : relocationToTarget modernOrtho states = some (i, t)) :
    (stateAt states i).isVowel = true ∧ (stateAt states i).hasTone = true ∧
      findToneTarget modernOrtho states = some t ∧ mayRelocate modernOrtho states i t = true := by
  unfold relocationToTarget at h
  split at h
  · rename_i tonedIdx targetIdx htoned htarget
    split_ifs at h with hne hbetween hblocked
    obtain ⟨rfl, rfl⟩ : tonedIdx = i ∧ targetIdx = t := by simpa using h
    obtain ⟨hi, hstate, -⟩ := List.findIdx?_eq_some_iff_getElem.mp htoned
    rw [← stateAt_eq_getElem hi, Bool.and_eq_true] at hstate
    exact ⟨hstate.1, hstate.2, htarget, by simp [mayRelocate, hbetween, hblocked]⟩
  · simp at h

theorem relocateToneToTarget_idempotent (modernOrtho : Bool) (hsingle : HasSingleTone states) :
    relocateToneToTarget modernOrtho (relocateToneToTarget modernOrtho states) =
      relocateToneToTarget modernOrtho states := by
  cases hmove : relocationToTarget modernOrtho states with
  | none =>
      have hstay : relocateToneToTarget modernOrtho states = states := by
        rw [relocateToneToTarget, hmove]
      rw [hstay, hstay]
  | some move =>
      obtain ⟨i, t⟩ := move
      obtain ⟨hvowel, htoned, htarget, hmay⟩ := relocationToTarget_eq_some hmove
      have hmoved := relocateToneToTarget_toneMoved hsingle hvowel htoned htarget hmay
      generalize relocateToneToTarget modernOrtho states = states' at hmoved
      -- the tone is found on the target, and the target is still the same
      have hvowel' : (stateAt states' t).isVowel = true := by
        have hbase := congrArg CharState.isVowel (withoutTone_stateAt hmoved.letters t)
        exact hbase.trans (findToneTarget_spec htarget).2
      have htoned' : (stateAt states' t).hasTone = true := by
        rw [CharState.hasTone, hmoved.tone]
        exact htoned
      have hfound := findTonedVowelIndex_eq_some hvowel' htoned' hmoved.elsewhere
      have htarget' : findToneTarget modernOrtho states' = some t :=
        (findToneTarget_congr hmoved.letters modernOrtho).trans htarget
      simp [relocateToneToTarget, relocationToTarget, hfound, htarget']

end Relocation

/-! ## The tone placement of the engine -/

section Placement

variable [WideCType]

/-- There is a target if there is a nucleus vowel, and it is one: the last horned vowel of the
first sixteen, or the first with a circumflex or a breve.  The only tone of a buffer moves to it
with its raw index wherever the guards let it go, the buffer stays as it is otherwise, and a second
relocation changes nothing. -/
theorem tonePlacement_exact (modernOrtho : Bool) (states : List CharState) :
    (findToneTarget modernOrtho states = none ↔ ∀ i, isNucleusVowel states i = false) ∧
    (∀ t, findToneTarget modernOrtho states = some t → isNucleusVowel states t = true) ∧
    (∀ i ∈ firstNucleusVowels states, (stateAt states i).showsHorn = true →
      (∀ j ∈ firstNucleusVowels states, (stateAt states j).showsHorn = true → j ≤ i) →
      findToneTarget modernOrtho states = some i) ∧
    ((∀ j ∈ firstNucleusVowels states, (stateAt states j).showsHorn = false) →
      ∀ i ∈ firstNucleusVowels states, (stateAt states i).showsCircumflexOrBreve = true →
      (∀ j ∈ firstNucleusVowels states,
        (stateAt states j).showsCircumflexOrBreve = true → i ≤ j) →
      findToneTarget modernOrtho states = some i) ∧
    (HasSingleTone states →
      (∀ i t, (stateAt states i).isVowel = true → (stateAt states i).hasTone = true →
        findToneTarget modernOrtho states = some t → mayRelocate modernOrtho states i t = true →
        ToneMoved states i t (relocateToneToTarget modernOrtho states)) ∧
      ((∀ i t, (stateAt states i).isVowel = true → (stateAt states i).hasTone = true →
        findToneTarget modernOrtho states = some t → mayRelocate modernOrtho states i t = false) →
        relocateToneToTarget modernOrtho states = states) ∧
      relocateToneToTarget modernOrtho (relocateToneToTarget modernOrtho states) =
        relocateToneToTarget modernOrtho states) := by
  refine ⟨findToneTarget_eq_none, fun t => isNucleusVowel_of_findToneTarget,
    fun i hi hhorn hlast => findToneTarget_of_horn hi hhorn hlast,
    fun hnone i hi hhat hfirst => findToneTarget_of_circumflexOrBreve hnone hi hhat hfirst,
    fun hsingle => ⟨fun i t => relocateToneToTarget_toneMoved hsingle, fun hguard => ?_,
      relocateToneToTarget_idempotent modernOrtho hsingle⟩⟩
  cases hmove : relocationToTarget modernOrtho states with
  | none => rw [relocateToneToTarget, hmove]
  | some move =>
      obtain ⟨hvowel, htoned, htarget, hmay⟩ := relocationToTarget_eq_some (i := move.1) hmove
      simp [hguard _ _ hvowel htoned htarget] at hmay

end Placement

/-- The tone of `ngừơi` moves from the `ư` to the `ơ`. -/
theorem tonePlacement_exact_nguoi :
    ToneMoved
      [{ base := L 'n' }, { base := L 'g' },
        { base := L 'u', mod := .horn, tone := .grave, toneRawIdx := some 4 },
        { base := L 'o', mod := .horn }, { base := L 'i' }] 2 3
      (@relocateToneToTarget cLocale true
        [{ base := L 'n' }, { base := L 'g' },
          { base := L 'u', mod := .horn, tone := .grave, toneRawIdx := some 4 },
          { base := L 'o', mod := .horn }, { base := L 'i' }]) := by
  let := cLocale
  obtain ⟨-, -, hhorn, -, hmove⟩ := tonePlacement_exact true
    [{ base := L 'n' }, { base := L 'g' },
      { base := L 'u', mod := .horn, tone := .grave, toneRawIdx := some 4 },
      { base := L 'o', mod := .horn }, { base := L 'i' }]
  have htarget := hhorn 3 (by decide) (by decide) (by decide)
  have hsingle : HasSingleTone
      [{ base := L 'n' }, { base := L 'g' },
        { base := L 'u', mod := .horn, tone := .grave, toneRawIdx := some 4 },
        { base := L 'o', mod := .horn }, { base := L 'i' }] := by
    simp [HasSingleTone]
  exact (hmove hsingle).1 2 3 (by decide) (by decide) htarget (by decide)

/-- The tone of `bàna` belongs on the last vowel and stays on the first: there is a consonant
between them. -/
theorem not_relocateToneToTarget_bana :
    ¬ ∀ states, HasSingleTone states → ∀ i t, (stateAt states i).hasTone = true →
      @findToneTarget cLocale true states = some t →
      (stateAt (@relocateToneToTarget cLocale true states) t).tone = (stateAt states i).tone := by
  intro hmoves
  have hsingle : HasSingleTone
      [{ base := L 'b' }, { base := L 'a', tone := .grave }, { base := L 'n' },
        { base := L 'a' }] := by
    simp [HasSingleTone]
  exact absurd (hmoves _ hsingle 1 3 (by decide) (by decide)) (by decide)

end VKey
