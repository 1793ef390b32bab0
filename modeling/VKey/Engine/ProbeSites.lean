import VKey.Engine.ValidityProbe

/-!
# The call sites of the probe

Eight branches of the modifier handlers ask the probe before they apply a modifier.  A site names
the call, the exclusion that lets the key through all the same, the states the handler produces and
what it returns.  The probe judges the buffer with the modifier applied, with the tone relocated if
the site asks for it; what is left to compare is that buffer with the produced one.
-/

namespace VKey

namespace TypingEngine

/-- The arguments of a call of the probe. -/
structure ProbeCall where
  targetIdx : Nat
  newMod : Modifier
  clearCircumflexIdx : Option Nat
  speculateRelocateTone : Bool
  deriving DecidableEq, Repr

section Sites

variable [WideCType]

/-- Run the probe. -/
def probe (e : TypingEngine) (call : ProbeCall) : List CharState × Bool :=
  e.probeSyllable call.targetIdx call.newMod call.clearCircumflexIdx call.speculateRelocateTone

/-- The buffer with the modifier of a call applied, the tone where it was. -/
def marked (e : TypingEngine) (call : ProbeCall) : List CharState :=
  tentativeStates e.states call.targetIdx call.newMod call.clearCircumflexIdx

/-- The buffer that the probe judges. -/
def judged (e : TypingEngine) (call : ProbeCall) : List CharState :=
  if call.speculateRelocateTone then
    relocateToneToTarget e.config.modernOrtho (e.marked call)
  else e.marked call

/-! ## The sites -/

/-- The syllable is a valid prefix, whose tone the adjacent and the VNI modifiers relocate. -/
def isMidConstruction (e : TypingEngine) : Bool :=
  Phonology.validateSyllableState e.states e.config.allowZwjf == .validPrefix

/-- The vowel that a circumflex key stands for. -/
def circumflexBase (e : TypingEngine) (action : TypingAction) (c : WChar) : WChar :=
  if e.config.inputMethod = .userDefined then actionToVowel action else towlower c

/-- A vowel other than the given one stands behind the index. -/
def crossesVowel (e : TypingEngine) (targetBase : WChar) (i : Nat) : Bool :=
  (e.states.drop (i + 1)).any fun s => s.isVowel && s.base != targetBase

/-- The key would complete a triphthong with the last two vowels. -/
def completesTriphthong (e : TypingEngine) (targetBase : WChar) : Bool :=
  let n := e.states.length
  decide (2 ≤ n) && (stateAt e.states (n - 1)).isVowel && (stateAt e.states (n - 2)).isVowel &&
    isTriphthong (stateAt e.states (n - 2)).base (stateAt e.states (n - 1)).base targetBase

/-- An `o` right behind a marked `u`. -/
def isMarkedUO (states : List CharState) (i : Nat) : Prop :=
  0 < i ∧ (stateAt states i).base = L 'o' ∧ (stateAt states (i - 1)).base = L 'u' ∧
    (stateAt states (i - 1)).hasModifier = true

/-- The `u` that P5 puts the horn on. -/
def hornTargetU (e : TypingEngine) (uIdx : Nat) : Nat :=
  if (lastVowelPair e.states (L 'u') (L 'u')).isSome then (firstPlainU e.states).getD uIdx else uIdx

/-- A key of the circumflex rule that gets past `use` and `e`. -/
structure CircumflexKey (e : TypingEngine) (action : TypingAction) (c : WChar) : Prop where
  isAction : IsCircumflexAction action
  vowel : CircumflexKeyNamesVowel e.config c action
  notUse : ¬(action = .circumflexE ∧ e.isLiteralUse = true)

/-- The pairs `ua`, `uo` and `oa` are not there and nothing is to be taken back: the horn key goes
on to a single vowel. -/
structure ReachesSingleVowel (e : TypingEngine) (c : WChar) : Prop where
  noUA : e.hornP1 = none
  noUO : e.hornP2 c = none
  noOA : e.hornP3 = none
  noMark : e.hornP4 c = none

/-- A handler asks the probe: the call, the exclusion that lifts a refusal, the states the handler
produces, and what it returns.  The free mark of an `o` right behind a marked `u` is not listed: it
leaves the mark that the probe takes off. -/
inductive ProbeSite (e : TypingEngine) :
    ProbeCall → Bool → List CharState → TypingEngine × Bool → Prop
  /-- The last letter is the vowel of the key. -/
  | adjacent {action : TypingAction} {c : WChar} (hkey : CircumflexKey e action c)
      (hvowel : e.lastState.isVowel = true) (hbase : e.lastState.base = e.circumflexBase action c)
      (htriphthong : e.endsInTriphthong = false) (hplain : e.lastState.mod ≠ .circumflex) :
      ProbeSite e ⟨e.states.length - 1, .circumflex, none, e.isMidConstruction⟩
        (e.keyMatchesExclusion
          (if e.isMidConstruction then c else e.circumflexBase action c))
        (relocateToneToTarget e.config.modernOrtho
          (setVowelMod e.states (e.states.length - 1) .circumflex))
        (e.handleAdjacentCircumflex action c)
  /-- A vowel further back is, and letters that need a verdict stand behind it. -/
  | freeMark {action : TypingAction} {c : WChar} {i : Nat} (hkey : CircumflexKey e action c)
      (hlast : ¬(e.lastState.isVowel = true ∧ e.lastState.base = e.circumflexBase action c))
      (htriphthong : e.completesTriphthong (e.circumflexBase action c) = false)
      (hfound : scanDown (fun i => (stateAt e.states i).isVowel &&
        (stateAt e.states i).base == e.circumflexBase action c) e.states.length = some i)
      (hplain : (stateAt e.states i).mod = .none)
      (hcrossed : e.crossesVowel (e.circumflexBase action c) i = true ∨
        e.hasNonVowelAfter i = true)
      (hcompanion : ¬ isMarkedUO e.states i) :
      ProbeSite e ⟨i, .circumflex, none, !e.crossesVowel (e.circumflexBase action c) i⟩
        (e.crossesVowel (e.circumflexBase action c) i &&
          e.keyMatchesExclusion (e.circumflexBase action c))
        (relocateToneToTarget e.config.modernOrtho (setMod e.states i .circumflex))
        (e.handleAdjacentCircumflex action c)
  /-- P5. -/
  | hornU {c : WChar} {uIdx : Nat}
      (hfirst : ReachesSingleVowel e c)
      (hu : lastPlainU e.states = some uIdx)
      (hafter : e.hasNonVowelAfter (e.hornTargetU uIdx) = true) :
      ProbeSite e ⟨e.hornTargetU uIdx, .horn, lastA e.states, false⟩ false
        (relocateToneToHornVowel
          (clearCircumflexAt (setMod e.states (e.hornTargetU uIdx) .horn) (lastA e.states)))
        (e.handleHornW c)
  /-- P6. -/
  | hornO {c : WChar} {oIdx : Nat}
      (hfirst : ReachesSingleVowel e c)
      (hu : lastPlainU e.states = none) (ho : lastO e.states = some oIdx)
      (hoa : lastVowelPair e.states (L 'o') (L 'a') = none)
      (hafter : e.hasNonVowelAfter oIdx = true) :
      ProbeSite e ⟨oIdx, .horn, none, false⟩ false
        (relocateToneToHornVowel (setMod e.states oIdx .horn)) (e.handleHornW c)
  /-- P7. -/
  | hornA {c : WChar} {aIdx : Nat}
      (hfirst : ReachesSingleVowel e c)
      (hu : lastPlainU e.states = none) (ho : e.hornP6 = none) (ha : lastA e.states = some aIdx)
      (hafter : e.hasNonVowelAfter aIdx = true) :
      ProbeSite e ⟨aIdx, .breve, none, false⟩ false (setMod e.states aIdx .breve) (e.handleHornW c)
  /-- The first pass of the VNI vowel keys. -/
  | vni {targetMod : Modifier} {key : WChar} {i : Nat}
      (hfound : lastNucleusWhere e.states (fun s =>
        (eligibleBases targetMod).contains s.base && s.mod == .none) = some i) :
      ProbeSite e ⟨i, targetMod, none, e.isMidConstruction⟩ (e.keyMatchesExclusion key)
        (if e.isMidConstruction then
          relocateToneToTarget e.config.modernOrtho (setVowelMod e.states i targetMod)
        else setVowelMod e.states i targetMod)
        (e.processVniVowelModifier targetMod key)

/-! ## What a site returns -/

variable {e : TypingEngine} {call : ProbeCall} {lifted : Bool} {produced : List CharState}
  {result : TypingEngine × Bool}

/-- The produced states if the probe or an exclusion lets the modifier through. -/
def outcome (e : TypingEngine) (call : ProbeCall) (lifted : Bool) (produced : List CharState) :
    TypingEngine × Bool :=
  if (e.probe call).2 || lifted then (e.withStates produced, true) else (e, false)

omit [WideCType] in
theorem states_ne_nil_of_lastState (h : e.lastState.isVowel = true) : e.states ≠ [] := by
  intro hnil
  rw [lastState, hnil] at h
  exact absurd h (by decide)

theorem handleAdjacentCircumflex_last {action : TypingAction} {c : WChar}
    (hkey : CircumflexKey e action c) (hvowel : e.lastState.isVowel = true)
    (hbase : e.lastState.base = e.circumflexBase action c) :
    e.handleAdjacentCircumflex action c = e.circumflexLast (e.circumflexBase action c) c := by
  have hne : e.states.isEmpty = false :=
    List.isEmpty_eq_false_iff.mpr (states_ne_nil_of_lastState hvowel)
  unfold handleAdjacentCircumflex
  dsimp only
  rw [← circumflexBase, hne, if_neg Bool.false_ne_true, if_neg hkey.notUse]
  exact if_pos ⟨hvowel, hbase⟩

theorem circumflexLast_outcome {targetBase c : WChar} (hspell : e.config.spellCheckEnabled = true)
    (htriphthong : e.endsInTriphthong = false) (hplain : e.lastState.mod ≠ .circumflex) :
    e.circumflexLast targetBase c =
      e.outcome ⟨e.states.length - 1, .circumflex, none, e.isMidConstruction⟩
        (e.keyMatchesExclusion (if e.isMidConstruction then c else targetBase))
        (relocateToneToTarget e.config.modernOrtho
          (setVowelMod e.states (e.states.length - 1) .circumflex)) := by
  unfold circumflexLast outcome probe
  dsimp only
  rw [htriphthong, if_neg Bool.false_ne_true, if_neg hplain, ← isMidConstruction]
  cases hmid : e.isMidConstruction with
  | true =>
      rw [snd_probeSyllable_relocated, if_pos rfl]
      cases e.wouldBeValidRelocated (e.states.length - 1) .circumflex <;>
        cases e.keyMatchesExclusion c <;> rfl
  | false =>
      rw [snd_probeSyllable_inPlace, shouldRejectModifier, hspell, if_neg Bool.false_ne_true]
      cases e.wouldBeValidSyllable (e.states.length - 1) .circumflex none <;>
        cases e.keyMatchesExclusion targetBase <;> rfl

omit [WideCType] in
theorem one_le_length_consonants (i : Nat) :
    1 ≤ ((e.states.drop (i + 1)).filter (!·.isVowel)).length ↔ e.hasNonVowelAfter i = true := by
  rw [hasNonVowelAfter, List.any_eq_true]
  exact List.length_filter_pos_iff

theorem handleAdjacentCircumflex_freeMark {action : TypingAction} {c : WChar} {i : Nat}
    (hkey : CircumflexKey e action c)
    (hlast : ¬(e.lastState.isVowel = true ∧ e.lastState.base = e.circumflexBase action c))
    (htriphthong : e.completesTriphthong (e.circumflexBase action c) = false)
    (hfound : scanDown (fun i => (stateAt e.states i).isVowel &&
      (stateAt e.states i).base == e.circumflexBase action c) e.states.length = some i)
    (hplain : (stateAt e.states i).mod = .none) :
    e.handleAdjacentCircumflex action c = e.freeMarkPlain i (e.circumflexBase action c) := by
  have hne : e.states.isEmpty = false := by
    rw [List.isEmpty_eq_false_iff]
    intro hnil
    have hi := (scanDown_eq_some hfound).1
    simp [hnil] at hi
  unfold handleAdjacentCircumflex
  dsimp only
  rw [← circumflexBase, hne, if_neg Bool.false_ne_true, if_neg hkey.notUse, if_neg hlast]
  unfold freeMark
  dsimp only
  rw [← completesTriphthong, htriphthong, if_neg Bool.false_ne_true, hfound]
  dsimp only
  rw [hplain]
  simp

theorem freeMarkPlain_outcome {targetBase : WChar} {i : Nat}
    (hspell : e.config.spellCheckEnabled = true)
    (hcrossed : e.crossesVowel targetBase i = true ∨ e.hasNonVowelAfter i = true) :
    e.freeMarkPlain i targetBase =
      e.outcome ⟨i, .circumflex, none, !e.crossesVowel targetBase i⟩
        (e.crossesVowel targetBase i && e.keyMatchesExclusion targetBase)
        (relocateToneToTarget e.config.modernOrtho (setMod e.states i .circumflex)) := by
  unfold freeMarkPlain outcome probe
  dsimp only
  rw [← crossesVowel, hspell]
  cases hcross : e.crossesVowel targetBase i with
  | true =>
      rw [Bool.not_true, snd_probeSyllable_inPlace, shouldRejectModifier, hspell]
      cases e.wouldBeValidSyllable i .circumflex none <;>
        cases e.keyMatchesExclusion targetBase <;> rfl
  | false =>
      have hconsonants := (one_le_length_consonants i).mpr
        (hcrossed.resolve_left (by rw [hcross]; exact Bool.false_ne_true))
      rw [Bool.not_false, snd_probeSyllable_relocated]
      simp only [Bool.false_eq_true, if_false, Bool.not_true, Bool.false_and, Bool.true_and,
        decide_eq_true hconsonants, if_true]
      cases e.wouldBeValidRelocated i .circumflex <;> rfl

omit [WideCType] in
theorem vowel_of_lastVowelWhere {base : WChar} {test : Modifier → Bool} {i : Nat}
    (h : lastVowelWhere e.states base test = some i) :
    i < e.states.length ∧ (stateAt e.states i).isVowel = true ∧
      (stateAt e.states i).base = base ∧ test (stateAt e.states i).mod = true := by
  obtain ⟨hi, htest, -⟩ := scanDown_eq_some h
  simp only [Bool.and_eq_true, beq_iff_eq] at htest
  exact ⟨hi, htest.1.1.1, htest.1.2, htest.2⟩

/-- The horn key looks at its cases once there is an `a`, an `o` or a `u`. -/
theorem hornEffect_of_vowel {c : WChar} {base : WChar} {test : Modifier → Bool} {i : Nat}
    (hfirst : ReachesSingleVowel e c) (hfound : lastVowelWhere e.states base test = some i)
    (hbase : base ∈ [L 'a', L 'o', L 'u']) :
    e.hornEffect c = (e.hornP5 <|> e.hornP6 <|> e.hornP7 <|> e.hornP8 c).getD .reject := by
  obtain ⟨hi, hvowel, hstate, -⟩ := vowel_of_lastVowelWhere hfound
  have hcontext : (e.states.any fun s =>
      s.isVowel && (s.base == L 'a' || s.base == L 'o' || s.base == L 'u')) = true := by
    rw [List.any_eq_true]
    refine ⟨e.states[i], List.getElem_mem hi, ?_⟩
    rw [stateAt_eq_getElem hi] at hvowel hstate
    rw [← hstate] at hbase
    simpa [hvowel, or_assoc] using hbase
  unfold hornEffect
  dsimp only
  rw [hcontext, if_neg (fun h => absurd h.2 (by decide)), hfirst.noUA, hfirst.noUO, hfirst.noOA,
    hfirst.noMark]
  rfl

theorem hornP5_eq {uIdx : Nat} (hu : lastPlainU e.states = some uIdx)
    (hafter : e.hasNonVowelAfter (e.hornTargetU uIdx) = true) :
    e.hornP5 = some
      (if e.wouldBeValidSyllable (e.hornTargetU uIdx) .horn (lastA e.states) then
        .relocate (clearCircumflexAt (setMod e.states (e.hornTargetU uIdx) .horn) (lastA e.states))
      else .reject) := by
  unfold hornP5
  rw [hu]
  dsimp only
  rw [← hornTargetU, hafter]
  cases e.wouldBeValidSyllable (e.hornTargetU uIdx) .horn (lastA e.states) <;> rfl

theorem hornP5_eq_none (hu : lastPlainU e.states = none) : e.hornP5 = none := by
  unfold hornP5
  rw [hu]

theorem hornP6_eq {oIdx : Nat} (ho : lastO e.states = some oIdx)
    (hoa : lastVowelPair e.states (L 'o') (L 'a') = none)
    (hafter : e.hasNonVowelAfter oIdx = true) :
    e.hornP6 = some
      (if e.wouldBeValidSyllable oIdx .horn none then .relocate (setMod e.states oIdx .horn)
      else .reject) := by
  unfold hornP6
  rw [ho, hoa]
  dsimp only
  rw [hafter]
  cases e.wouldBeValidSyllable oIdx .horn none <;> rfl

theorem hornP7_eq {aIdx : Nat} (ha : lastA e.states = some aIdx)
    (hafter : e.hasNonVowelAfter aIdx = true) :
    e.hornP7 = some
      (if e.wouldBeValidSyllable aIdx .breve none then .mark (setMod e.states aIdx .breve)
      else .reject) := by
  unfold hornP7
  rw [ha]
  dsimp only
  rw [hafter]
  cases e.wouldBeValidSyllable aIdx .breve none <;> rfl

theorem processVniVowelModifier_outcome {targetMod : Modifier} {key : WChar} {i : Nat}
    (hspell : e.config.spellCheckEnabled = true)
    (hfound : lastNucleusWhere e.states (fun s =>
      (eligibleBases targetMod).contains s.base && s.mod == .none) = some i) :
    e.processVniVowelModifier targetMod key =
      e.outcome ⟨i, targetMod, none, e.isMidConstruction⟩ (e.keyMatchesExclusion key)
        (if e.isMidConstruction then
          relocateToneToTarget e.config.modernOrtho (setVowelMod e.states i targetMod)
        else setVowelMod e.states i targetMod) := by
  unfold processVniVowelModifier outcome probe
  dsimp only
  rw [hfound, ← isMidConstruction]
  dsimp only
  cases e.isMidConstruction with
  | true =>
      rw [snd_probeSyllable_relocated]
      cases e.wouldBeValidRelocated i targetMod <;> cases e.keyMatchesExclusion key <;> rfl
  | false =>
      rw [snd_probeSyllable_inPlace, shouldRejectModifier, hspell]
      cases e.wouldBeValidSyllable i targetMod none <;> cases e.keyMatchesExclusion key <;> rfl

/-- With spell check on, a site applies the modifier exactly where the probe accepts it or an
exclusion lets it through. -/
theorem ProbeSite.result_eq (h : ProbeSite e call lifted produced result)
    (hspell : e.config.spellCheckEnabled = true) : result = e.outcome call lifted produced := by
  cases h with
  | adjacent hkey hvowel hbase htriphthong hplain =>
      rw [handleAdjacentCircumflex_last hkey hvowel hbase]
      exact circumflexLast_outcome hspell htriphthong hplain
  | freeMark hkey hlast htriphthong hfound hplain hcrossed hcompanion =>
      rw [handleAdjacentCircumflex_freeMark hkey hlast htriphthong hfound hplain]
      exact freeMarkPlain_outcome hspell hcrossed
  | hornU hfirst hu hafter =>
      unfold handleHornW outcome probe
      rw [hornEffect_of_vowel hfirst hu (by decide), hornP5_eq hu hafter, snd_probeSyllable_inPlace]
      cases e.wouldBeValidSyllable _ .horn (lastA e.states) <;> rfl
  | hornO hfirst hu ho hoa hafter =>
      unfold handleHornW outcome probe
      rw [hornEffect_of_vowel hfirst ho (by decide), hornP5_eq_none hu, hornP6_eq ho hoa hafter,
        snd_probeSyllable_inPlace]
      cases e.wouldBeValidSyllable _ .horn none <;> rfl
  | hornA hfirst hu ho ha hafter =>
      unfold handleHornW outcome probe
      rw [hornEffect_of_vowel hfirst ha (by decide), hornP5_eq_none hu, ho, hornP7_eq ha hafter,
        snd_probeSyllable_inPlace]
      cases e.wouldBeValidSyllable _ .breve none <;> rfl
  | vni hfound => exact processVniVowelModifier_outcome hspell hfound

end Sites

end TypingEngine

end VKey
