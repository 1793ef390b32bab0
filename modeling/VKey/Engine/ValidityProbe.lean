import VKey.Engine.EditModifier
import VKey.Engine.Stages
import VKey.Engine.ToneFreeVerdict

/-!
# The speculative validity probe

Before a modifier is applied, the probe applies it to the live buffer, asks for the verdict and
undoes what it did.  It has two paths with undo code of their own: one saves the whole buffer
because it also relocates the tone, the other saves the modifiers it is about to overwrite.  The
engine uses the answers alone; this module runs the probe on the buffer, as the source does, and
compares its answers with what its callers produce.
-/

namespace VKey

/-! ## Writing modifiers back -/

section SetMod

theorem setMod_setMod_self (ss : List CharState) (i : Nat) (mod mod' : Modifier) :
    setMod (setMod ss i mod) i mod' = setMod ss i mod' := by
  refine List.ext_getElem (by simp) fun j hj hj' => ?_
  simp only [setMod, List.getElem_modify]
  split_ifs <;> rfl

theorem setMod_comm (ss : List CharState) {i j : Nat} (h : i ≠ j) (mod mod' : Modifier) :
    setMod (setMod ss i mod) j mod' = setMod (setMod ss j mod') i mod := by
  refine List.ext_getElem (by simp) fun k hk hk' => ?_
  simp only [setMod, List.getElem_modify]
  split_ifs with hj hi
  · omega
  · rfl
  · rfl
  · rfl

theorem setMod_stateAt (ss : List CharState) (i : Nat) : setMod ss i (stateAt ss i).mod = ss := by
  refine List.ext_getElem (by simp) fun j hj hj' => ?_
  simp only [setMod, List.getElem_modify]
  split_ifs with h
  · subst h
    have hmod : (stateAt ss i).mod = ss[i].mod := congrArg CharState.mod (stateAt_eq_getElem hj')
    simp only [hmod]
  · rfl

theorem stateAt_setMod_of_ne (ss : List CharState) {i j : Nat} (h : i ≠ j) (mod : Modifier) :
    stateAt (setMod ss i mod) j = stateAt ss j := by
  rw [setMod, stateAt_modify, if_neg fun hij => h hij.1]

theorem stateAt_setMod_self (ss : List CharState) {i : Nat} (h : i < ss.length) (mod : Modifier) :
    stateAt (setMod ss i mod) i = { stateAt ss i with mod } := by
  rw [setMod, stateAt_modify, if_pos ⟨rfl, h⟩]

/-- Applying a modifier changes the target and, for a circumflex, the letter before it. -/
theorem setVowelMod_cases (ss : List CharState) (i : Nat) (mod : Modifier) :
    setVowelMod ss i mod = setMod ss i mod ∨
      0 < i ∧ setVowelMod ss i mod = setMod (setMod ss i mod) (i - 1) .none := by
  unfold setVowelMod undoHornU
  dsimp only
  split_ifs with hcircumflex hcompanion
  · exact .inr ⟨hcompanion.1, rfl⟩
  · exact .inl rfl
  · exact .inl rfl

/-- The index is that of a letter with a circumflex. -/
def hasCircumflexAt (states : List CharState) (i : Option Nat) : Bool :=
  i.any fun i => decide (i < states.length) && (stateAt states i).mod == .circumflex

/-- Clear the modifier at an index, if there is one. -/
def clearModAt (states : List CharState) : Option Nat → List CharState
  | some i => setMod states i .none
  | none => states

theorem length_clearModAt (states : List CharState) (i : Option Nat) :
    (clearModAt states i).length = states.length := by
  cases i <;> simp [clearModAt]

/-- The circumflex that the probe cleared is back before the target is restored. -/
theorem restore_cleared {clearCircumflexIdx : Option Nat} (states : List CharState) :
    (if hasCircumflexAt states clearCircumflexIdx then
      setMod (if hasCircumflexAt states clearCircumflexIdx then
        clearModAt states clearCircumflexIdx else states) (clearCircumflexIdx.getD 0) .circumflex
    else if hasCircumflexAt states clearCircumflexIdx then clearModAt states clearCircumflexIdx
    else states) = states := by
  cases hclear : hasCircumflexAt states clearCircumflexIdx with
  | false => rfl
  | true =>
      rcases clearCircumflexIdx with _ | i
      · exact absurd hclear (by simp [hasCircumflexAt])
      · have hmod : (stateAt states i).mod = .circumflex := by
          simp only [hasCircumflexAt, Option.any_some, Bool.and_eq_true, beq_iff_eq] at hclear
          exact hclear.2
        simp only [if_true, clearModAt, Option.getD_some]
        rw [setMod_setMod_self, ← hmod, setMod_stateAt]

theorem tentativeStates_eq {targetIdx : Nat} {newMod : Modifier} {clearCircumflexIdx : Option Nat}
    (states : List CharState) :
    (if hasCircumflexAt (setVowelMod states targetIdx newMod) clearCircumflexIdx then
      clearModAt (setVowelMod states targetIdx newMod) clearCircumflexIdx
    else setVowelMod states targetIdx newMod) =
      TypingEngine.tentativeStates states targetIdx newMod clearCircumflexIdx := by
  rcases clearCircumflexIdx with _ | i
  · simp [hasCircumflexAt, TypingEngine.tentativeStates]
  · have hinside : ∀ ss : List CharState, (stateAt ss i).mod = .circumflex → i < ss.length := by
      intro ss hmod
      by_contra hi
      rw [stateAt_of_le (by omega)] at hmod
      exact absurd hmod (by decide)
    unfold TypingEngine.tentativeStates
    dsimp only
    generalize setVowelMod states targetIdx newMod = marked
    by_cases hmod : (stateAt marked i).mod = .circumflex
    · simp [hasCircumflexAt, clearModAt, hmod, hinside _ hmod]
    · simp [hasCircumflexAt, hmod]

end SetMod

namespace TypingEngine

section Probe

variable [WideCType]

/-! ## The probe on the live buffer -/

/-- The probe that saves the buffer: apply, relocate, judge, and copy the saved states back. -/
def probeRelocated (e : TypingEngine) (targetIdx : Nat) (newMod : Modifier)
    (clearCircumflexIdx : Option Nat) : List CharState × Bool :=
  let bufferLen := e.states.length
  if kVowelCap < bufferLen then (e.states, true)
  else
    let saved := e.states.take bufferLen
    let states := setVowelMod e.states targetIdx newMod
    let states :=
      if hasCircumflexAt saved clearCircumflexIdx then clearModAt states clearCircumflexIdx
      else states
    let states := relocateToneToTarget e.config.modernOrtho states
    let result := Phonology.validateSyllableState (states.take bufferLen) e.config.allowZwjf
    let recoverableMismatch := result == .invalid && isToneStopCodaMismatch states
    (saved ++ states.drop bufferLen, result != .invalid || recoverableMismatch)

/-- The probe that saves two modifiers: apply, judge, and write the cleared circumflex, the target
and its companion back. -/
def probeInPlace (e : TypingEngine) (targetIdx : Nat) (newMod : Modifier)
    (clearCircumflexIdx : Option Nat) : List CharState × Bool :=
  let saved := (stateAt e.states targetIdx).mod
  let savedCompanion := if 0 < targetIdx then (stateAt e.states (targetIdx - 1)).mod else .none
  let states := setVowelMod e.states targetIdx newMod
  let didClear := hasCircumflexAt states clearCircumflexIdx
  let states := if didClear then clearModAt states clearCircumflexIdx else states
  let result := Phonology.validateSyllableState states e.config.allowZwjf
  let recoverableMismatch := result == .invalid && isToneStopCodaMismatch states
  let states :=
    if didClear then setMod states (clearCircumflexIdx.getD 0) .circumflex else states
  let states := setMod states targetIdx saved
  let states := if 0 < targetIdx then setMod states (targetIdx - 1) savedCompanion else states
  (states, result != .invalid || recoverableMismatch)

/-- The probe: the buffer it leaves, and its answer. -/
def probeSyllable (e : TypingEngine) (targetIdx : Nat) (newMod : Modifier)
    (clearCircumflexIdx : Option Nat) (speculateRelocateTone : Bool) : List CharState × Bool :=
  if !e.config.spellCheckEnabled then (e.states, true)
  else if e.states.length ≤ targetIdx then (e.states, true)
  else if speculateRelocateTone then e.probeRelocated targetIdx newMod clearCircumflexIdx
  else e.probeInPlace targetIdx newMod clearCircumflexIdx

/-! ## No trace -/

variable {e : TypingEngine} {targetIdx : Nat} {newMod : Modifier}
  {clearCircumflexIdx : Option Nat}

theorem length_relocateToneToTarget (modernOrtho : Bool) (ss : List CharState) :
    (relocateToneToTarget modernOrtho ss).length = ss.length := by
  unfold relocateToneToTarget
  split <;> simp

theorem fst_probeRelocated :
    (e.probeRelocated targetIdx newMod clearCircumflexIdx).1 = e.states := by
  unfold probeRelocated
  dsimp only
  split_ifs with hlong hclear
  · rfl
  all_goals
    rw [List.take_length, List.drop_eq_nil_of_le, List.append_nil]
    simp [length_relocateToneToTarget, length_clearModAt]

theorem fst_probeInPlace :
    (e.probeInPlace targetIdx newMod clearCircumflexIdx).1 = e.states := by
  unfold probeInPlace
  dsimp only
  rw [restore_cleared]
  rcases setVowelMod_cases e.states targetIdx newMod with hmarked | ⟨hpos, hmarked⟩
  · have htarget : setMod (setVowelMod e.states targetIdx newMod) targetIdx
        (stateAt e.states targetIdx).mod = e.states := by
      rw [hmarked, setMod_setMod_self, setMod_stateAt]
    rw [htarget]
    split_ifs
    · rw [setMod_stateAt]
    · rfl
  · have hne : targetIdx - 1 ≠ targetIdx := by omega
    rw [if_pos hpos, if_pos hpos]
    have htarget : setMod (setVowelMod e.states targetIdx newMod) targetIdx
        (stateAt e.states targetIdx).mod = setMod e.states (targetIdx - 1) .none := by
      rw [hmarked, ← setMod_comm _ hne.symm, setMod_setMod_self, setMod_stateAt]
    rw [htarget, setMod_setMod_self, setMod_stateAt]

theorem fst_probeSyllable (speculateRelocateTone : Bool) :
    (e.probeSyllable targetIdx newMod clearCircumflexIdx speculateRelocateTone).1 = e.states := by
  unfold probeSyllable
  split_ifs
  · rfl
  · rfl
  · exact fst_probeRelocated
  · exact fst_probeInPlace

/-! ## The answers -/

theorem accepts_eq (e : TypingEngine) (states : List CharState) :
    (Phonology.validateSyllableState states e.config.allowZwjf != .invalid ||
      (Phonology.validateSyllableState states e.config.allowZwjf == .invalid &&
        isToneStopCodaMismatch states)) = e.acceptsTentative states := by
  rw [acceptsTentative]
  cases Phonology.validateSyllableState states e.config.allowZwjf <;> rfl

/-- Without relocation the answer is the one the callers of the engine are given. -/
theorem snd_probeSyllable_inPlace :
    (e.probeSyllable targetIdx newMod clearCircumflexIdx false).2 =
      e.wouldBeValidSyllable targetIdx newMod clearCircumflexIdx := by
  unfold probeSyllable wouldBeValidSyllable
  split_ifs with hspell hrange hspec
  · simp [hspell]
  · simp [hrange]
  · exact absurd hspec (by decide)
  · unfold probeInPlace
    dsimp only
    rw [tentativeStates_eq, accepts_eq]
    simp only [hspell, hrange, Bool.false_or, decide_false]

theorem snd_probeSyllable_relocated :
    (e.probeSyllable targetIdx newMod none true).2 =
      e.wouldBeValidRelocated targetIdx newMod := by
  unfold probeSyllable wouldBeValidRelocated
  split_ifs with hspell hrange hspec
  · simp [hspell]
  · simp [hrange]
  · unfold probeRelocated
    dsimp only
    have hclear : hasCircumflexAt (e.states.take e.states.length) none = false := rfl
    have hlength : (relocateToneToTarget e.config.modernOrtho
        (setVowelMod e.states targetIdx newMod)).length = e.states.length := by
      rw [length_relocateToneToTarget, length_setVowelMod]
    rw [hclear, if_neg Bool.false_ne_true, List.take_of_length_le (Nat.le_of_eq hlength),
      accepts_eq]
    by_cases hlong : kVowelCap < e.states.length
    · simp [hlong]
    · simp only [hspell, hrange, hlong, Bool.false_or, decide_false, if_false]
  · exact absurd rfl hspec

end Probe

end TypingEngine

end VKey
