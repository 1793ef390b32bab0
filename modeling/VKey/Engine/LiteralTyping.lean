import Mathlib.Data.List.Induction
import VKey.Engine.EditMarks
import VKey.Engine.Stages

/-!
# Typing without marks

Keys that the method gives no meaning are typed as they are.  A Backspace takes the last one back,
and recomputes by other functions what the keys have built up step by step.
-/

namespace VKey

section Typing

variable [WideCType]

/-- The letter of a key that is typed as it is. -/
def literalState (rawIdx : Nat) (keyChar : WChar) : CharState :=
  { base := towlower keyChar, isUpper := TypingEngine.pushedUppercase keyChar, rawIdx }

def literalStates (keys : List WChar) : List CharState := keys.mapIdx literalState

/-- The letter has neither a modifier nor a tone, and is not made from `w`. -/
structure IsUnmarked (s : CharState) : Prop where
  mod : s.mod = .none
  tone : s.tone = .none
  synthetic : s.synthetic = false

theorem literalStates_append (keys : List WChar) (keyChar : WChar) :
    literalStates (keys ++ [keyChar]) =
      literalStates keys ++ [literalState keys.length keyChar] := by
  rw [literalStates, List.mapIdx_concat, ← literalStates]

@[simp] theorem length_literalStates (keys : List WChar) :
    (literalStates keys).length = keys.length :=
  List.length_mapIdx

theorem isUnmarked_literalStates {keys : List WChar} : ∀ s ∈ literalStates keys, IsUnmarked s := by
  intro s hs
  obtain ⟨i, hi, rfl⟩ := List.mem_mapIdx.mp hs
  exact ⟨rfl, rfl, rfl⟩

omit [WideCType] in
theorem isUnmarked_stateAt {states : List CharState} (h : ∀ s ∈ states, IsUnmarked s) (i : Nat) :
    IsUnmarked (stateAt states i) := by
  by_cases hi : i < states.length
  · rw [stateAt_eq_getElem hi]
    exact h _ (List.getElem_mem hi)
  · rw [stateAt_of_le (not_lt.mp hi)]
    exact ⟨rfl, rfl, rfl⟩

/-! ## Nothing is moved or completed without marks -/

section Unmarked

variable {states : List CharState}

theorem relocateToneToTarget_of_unmarked (h : ∀ s ∈ states, IsUnmarked s) (modernOrtho : Bool) :
    relocateToneToTarget modernOrtho states = states := by
  have hnone : findTonedVowelIndex states = none := by
    rw [findTonedVowelIndex, List.findIdx?_eq_none_iff]
    intro s hs
    rw [CharState.hasTone, (h s hs).tone]
    exact Bool.and_false _
  rw [relocateToneToTarget, relocationToTarget, hnone]

theorem autoUOAt_of_unmarked (h : ∀ s ∈ states, IsUnmarked s) (modernOrtho : Bool) (i : Nat) :
    autoUOAt modernOrtho states i = states := by
  have hmod (j : Nat) : (stateAt states j).mod ≠ .horn := by
    rw [(isUnmarked_stateAt h j).mod]
    decide
  have hleading : hornLeadingU states i = states := by
    rw [hornLeadingU, if_neg fun hhorn => hmod (i + 1) hhorn.2.2.2]
  rw [autoUOAt, hleading, ite_eq_left_iff, hornTrailingO]
  intro
  rw [if_neg fun hhorn => hmod i hhorn.2.1]

theorem applyAutoUO_of_unmarked (h : ∀ s ∈ states, IsUnmarked s) (modernOrtho : Bool) :
    applyAutoUO modernOrtho states = states := by
  rw [applyAutoUO]
  generalize List.range' _ _ = positions
  induction positions with
  | nil => rfl
  | cons i positions ih => rw [List.foldl_cons, autoUOAt_of_unmarked h, ih]

end Unmarked

/-! ## The bias step by step and at once -/

section Bias

variable {config : TypingConfig} {states : List CharState} {prot : EnglishProtectionState}

theorem checkEnglishBias_of_length_le (h : states.length ≤ 1) :
    checkEnglishBias states prot = prot := by
  have hshort : ¬2 ≤ states.length := by omega
  rw [checkEnglishBias, hasHardEnglishOnset, hasHardEnglishFinal, isInvalidVietnameseCoda,
    checkSoftEnglishBias, if_pos (show states.length < 3 by omega),
    if_pos (show states.length < 2 by omega), decide_eq_false hshort,
    decide_eq_false (show ¬3 ≤ states.length by omega)]
  simp

/-- One more letter is one more step. -/
theorem recalcEnglishBias_append (s : CharState) :
    recalcEnglishBias (states ++ [s]) = checkEnglishBias (states ++ [s])
    (recalcEnglishBias states) := by
  rcases states.eq_nil_or_concat with rfl | ⟨front, last, rfl⟩
  · rw [checkEnglishBias_of_length_le (by simp)]
    rfl
  · generalize hstates : front.concat last = states
    have hlen : 1 ≤ states.length := by
      rw [← hstates, List.length_concat]
      omega
    rw [recalcEnglishBias, List.length_append, List.length_singleton, Nat.add_sub_cancel,
      show states.length = states.length - 1 + 1 by omega, List.range'_concat, List.foldl_append,
      List.foldl_cons, List.foldl_nil, show 2 + 1 * (states.length - 1) = (states ++ [s]).length by
        rw [List.length_append, List.length_singleton]
        omega, List.take_length, recalcEnglishBias]
    congr 1
    refine List.foldl_ext _ _ _ fun prot len hmem => ?_
    obtain ⟨hlow, hhigh⟩ := List.mem_range'_1.mp hmem
    rw [List.take_append_of_le_length (by omega)]

theorem checkEnglishBias_ne_vietnamese (h : prot.bias ≠ .vietnamese) :
    (checkEnglishBias states prot).bias ≠ .vietnamese := by
  rw [checkEnglishBias, if_neg h]
  split_ifs
  all_goals first | exact h | exact LanguageBias.noConfusion

theorem recalcEnglishBias_ne_vietnamese : (recalcEnglishBias states).bias ≠ .vietnamese := by
  rw [recalcEnglishBias]
  generalize List.range' _ _ = lengths
  have hfold (prot : EnglishProtectionState) (hprot : prot.bias ≠ .vietnamese) :
      (lengths.foldl (fun prot len => checkEnglishBias (states.take len) prot) prot).bias ≠
        .vietnamese := by
    induction lengths generalizing prot with
    | nil => exact hprot
    | cons len lengths ih => exact ih _ (checkEnglishBias_ne_vietnamese hprot)
  exact hfold {} (by decide)

theorem checkEnglishBias_hardEnglish (prot : EnglishProtectionState) :
    checkEnglishBias states { prot with bias := .hardEnglish } =
      { checkEnglishBias states prot with bias := .hardEnglish } := by
  simp only [checkEnglishBias, reduceCtorEq, false_and, if_false]
  split_ifs <;> rfl

/-- The word starts with one of the letters that make it English without the option. -/
def startsZwjf (config : TypingConfig) (states : List CharState) : Bool :=
  !config.allowZwjf && config.spellCheckEnabled && !states.isEmpty && !(stateAt states 0).isVowel &&
    [L 'w', L 'z', L 'j', L 'f'].contains (stateAt states 0).base

omit [WideCType] in
theorem checkZwjfInitialBias_eq (h : prot.bias ≠ .vietnamese) :
    checkZwjfInitialBias states config prot =
      if startsZwjf config states then { prot with bias := .hardEnglish } else prot := by
  rw [checkZwjfInitialBias, startsZwjf]
  cases config.allowZwjf <;> cases config.spellCheckEnabled <;> cases states.isEmpty <;>
    cases (stateAt states 0).isVowel <;> simp [h]

/-- The bias of a buffer without marks. -/
def literalBias (config : TypingConfig) (states : List CharState) : EnglishProtectionState :=
  if config.isTelexMode then checkZwjfInitialBias states config (recalcEnglishBias states)
  else recalcEnglishBias states

/-- Layering the first letter over the bias after every letter and once at the end is the same. -/
theorem literalBias_append (s : CharState) :
    (if config.isTelexMode then
        checkZwjfInitialBias (states ++ [s]) config
          (checkEnglishBias (states ++ [s]) (literalBias config states))
      else checkEnglishBias (states ++ [s]) (literalBias config states)) =
      literalBias config (states ++ [s]) := by
  rw [literalBias, literalBias]
  by_cases htelex : config.isTelexMode = true
  · rw [if_pos htelex, if_pos htelex, if_pos htelex, recalcEnglishBias_append,
      checkZwjfInitialBias_eq recalcEnglishBias_ne_vietnamese,
      checkZwjfInitialBias_eq (checkEnglishBias_ne_vietnamese recalcEnglishBias_ne_vietnamese)]
    by_cases hstarts : startsZwjf config states = true
    · have hstill : startsZwjf config (states ++ [s]) = true := by
        cases states with
        | nil => simp [startsZwjf] at hstarts
        | cons s0 rest => exact hstarts
      rw [if_pos hstarts, if_pos hstill, checkEnglishBias_hardEnglish,
        checkZwjfInitialBias_eq LanguageBias.noConfusion, if_pos hstill]
    · rw [if_neg hstarts, checkZwjfInitialBias_eq
        (checkEnglishBias_ne_vietnamese recalcEnglishBias_ne_vietnamese)]
  · rw [if_neg htelex, if_neg htelex, if_neg htelex, recalcEnglishBias_append]

end Bias

/-! ## A key and a Backspace -/

namespace TypingEngine

/-- The engine after the keys, which are all typed as they are. -/
def spelled (config : TypingConfig) (keys : List WChar) (uppercase : Bool) : TypingEngine :=
  ({ config, states := literalStates keys, rawInput := keys, escRawHistory := keys,
     activeKeyUppercase := uppercase, engProt := literalBias config (literalStates keys) } :
    TypingEngine).updateSpellState

/-- All three kinds of quick consonants are off. -/
def QuickConsonantsOff (config : TypingConfig) : Prop :=
  config.quickConsonant = false ∧ config.quickStartConsonant = false ∧
    config.quickEndConsonant = false

/-- The key is a letter to the method. -/
def IsLiteralKey (config : TypingConfig) (keyChar : WChar) : Prop :=
  methodAction config (towlower keyChar) = .none

section Steps

variable {config : TypingConfig} {keys : List WChar} {uppercase : Bool} {e : TypingEngine}

theorem revertProvisionalOoTone_of_unmarked (h : ∀ s ∈ e.states, IsUnmarked s) (lower : WChar) :
    e.revertProvisionalOoTone lower = (e, false) := by
  have htone : e.hasProvisionalOoTone lower = false := by
    simp only [hasProvisionalOoTone, CharState.hasTone, (isUnmarked_stateAt h _).tone]
    simp
  rw [revertProvisionalOoTone, htone]
  rfl

theorem handleQuickStartConsonant_of_off (h : QuickConsonantsOff e.config)
    (hkey : e.quickStartKey = 0) (keyChar lower : WChar) (isUpper : Bool) :
    e.handleQuickStartConsonant keyChar lower isUpper = (e.clearQuickEscape lower, false) := by
  obtain ⟨hquick, hstart, -⟩ := h
  have hundo : e.undoQuickStart keyChar = e := by rw [undoQuickStart, if_pos hkey]
  have hconfig : (e.clearQuickEscape lower).config = e.config := rfl
  rw [handleQuickStartConsonant, hstart, Bool.false_and, if_neg Bool.false_ne_true]
  simp only [hundo, hconfig, hquick, Bool.false_and, Bool.false_eq_true, if_false]

theorem dispatchPostClassify_none (h : QuickConsonantsOff e.config) (keyChar lower : WChar)
    (isUpper : Bool) : e.dispatchPostClassify .none keyChar lower isUpper = (e, false) := by
  have htone : e.applyToneRule .none keyChar lower isUpper = (e, false) := by
    rw [applyToneRule, if_pos (Or.inr (by decide))]
  have hmodifier : e.handleModifierAction .none keyChar lower = (e, false) := by
    rw [handleModifierAction, modifierGates]
    rfl
  have hend : e.handleQuickEndConsonant lower = (e, false) := by
    rw [handleQuickEndConsonant, h.2.2, Bool.false_and, Bool.false_and, if_neg Bool.false_ne_true]
  simp only [dispatchPostClassify, htone, hmodifier, hend, Bool.false_eq_true, if_false]

theorem keyAction_of_literal {keyChar : WChar} (h : IsLiteralKey e.config keyChar) :
    e.keyAction keyChar (towlower keyChar) = .none := by
  rw [keyAction, h, ite_self]

/-- What follows a letter when no letter has a mark. -/
theorem finalizeRegularChar_of_unmarked (h : ∀ s ∈ e.states, IsUnmarked s) :
    e.finalizeRegularChar = e.updateSpellState.checkBias.checkInitialBias := by
  have hstates : (e.withStates (applyAutoUO e.config.modernOrtho
      (relocateToneToTarget e.config.modernOrtho e.states))) = e := by
    rw [relocateToneToTarget_of_unmarked h, applyAutoUO_of_unmarked h]
    rfl
  have hstart :
    e.updateSpellState.checkBias.revertSyntheticStart = e.updateSpellState.checkBias := by
    have hno : e.updateSpellState.checkBias.hasSyntheticEnglishStart = false := by
      have hsynthetic : (stateAt e.updateSpellState.checkBias.states 0).synthetic = false :=
        (isUnmarked_stateAt h 0).synthetic
      simp [hasSyntheticEnglishStart, hsynthetic]
    rw [revertSyntheticStart, hno, if_neg Bool.false_ne_true]
  have huse : e.updateSpellState.checkBias.revertTonedUse = e.updateSpellState.checkBias := by
    have hno : e.updateSpellState.checkBias.hasTonedUse = false := by
      have htone (i : Nat) : (stateAt e.updateSpellState.checkBias.states i).tone = .none :=
        (isUnmarked_stateAt h i).tone
      simp [hasTonedUse, htone]
    rw [revertTonedUse, hno, if_neg Bool.false_ne_true]
  rw [finalizeRegularChar]
  simp only [hstates, hstart, huse]

theorem pushSettled_of_literal (hquick : QuickConsonantsOff e.config) (hstart : e.quickStartKey = 0)
    {keyChar : WChar} (hkey : IsLiteralKey e.config keyChar) (uppercase : Bool) :
    e.pushSettled keyChar uppercase =
      ((e.clearQuickEscape (towlower keyChar)).processChar (towlower keyChar)
        uppercase).finalizeRegularChar := by
  have haction :
    (e.clearQuickEscape (towlower keyChar)).keyAction keyChar (towlower keyChar) = .none :=
    keyAction_of_literal (e := e.clearQuickEscape (towlower keyChar)) hkey
  have hdispatch := dispatchPostClassify_none (e := e.clearQuickEscape (towlower keyChar)) hquick
    keyChar (towlower keyChar) uppercase
  simp only [pushSettled, handleQuickStartConsonant_of_off hquick hstart, haction, hdispatch,
    Bool.false_eq_true, if_false]

omit [WideCType] in
theorem nextRawIdx_recordKey (e : TypingEngine) (keyChar : WChar) (uppercase : Bool) :
    (e.recordKey keyChar uppercase).nextRawIdx = e.rawInput.length := by
  simp [nextRawIdx, recordKey]

/-- A literal key is appended. -/
theorem pushChar_spelled (hquick : QuickConsonantsOff config) {keyChar : WChar}
    (hkey : IsLiteralKey config keyChar) :
    (spelled config keys uppercase).pushChar keyChar =
      spelled config (keys ++ [keyChar]) (pushedUppercase keyChar) := by
  have hrevert := revertProvisionalOoTone_of_unmarked
    (e := (spelled config keys uppercase).recordKey keyChar (pushedUppercase keyChar))
    isUnmarked_literalStates (towlower keyChar)
  have hidx : (((spelled config keys uppercase).recordKey keyChar
      (pushedUppercase keyChar)).clearQuickEscape (towlower keyChar)).nextRawIdx = keys.length :=
    nextRawIdx_recordKey _ _ _
  have hchar : (((spelled config keys uppercase).recordKey keyChar
      (pushedUppercase keyChar)).clearQuickEscape (towlower keyChar)).processChar (towlower keyChar)
        (pushedUppercase keyChar) =
      { spelled config keys uppercase with
        states := literalStates (keys ++ [keyChar])
        rawInput := keys ++ [keyChar]
        escRawHistory := keys ++ [keyChar]
        activeKeyUppercase := pushedUppercase keyChar } := by
    rw [processChar, hidx, literalStates_append]
    rfl
  have hbias :
      (if config.isTelexMode then
          checkZwjfInitialBias (literalStates (keys ++ [keyChar])) config
            (checkEnglishBias (literalStates (keys ++ [keyChar]))
              (literalBias config (literalStates keys)))
        else checkEnglishBias (literalStates (keys ++ [keyChar]))
          (literalBias config (literalStates keys))) =
        literalBias config (literalStates (keys ++ [keyChar])) := by
    rw [literalStates_append]
    exact literalBias_append (literalState keys.length keyChar)
  change (spelled config keys uppercase).pushKey keyChar (pushedUppercase keyChar) = _
  simp only [pushKey, hrevert, Bool.false_eq_true, if_false]
  rw [pushSettled_of_literal hquick rfl hkey, hchar,
    finalizeRegularChar_of_unmarked isUnmarked_literalStates]
  have hspelled {prot : EnglishProtectionState}
      (hprot : prot = literalBias config (literalStates (keys ++ [keyChar]))) :
      ({ config, states := literalStates (keys ++ [keyChar]), rawInput := keys ++ [keyChar],
         escRawHistory := keys ++ [keyChar], activeKeyUppercase := pushedUppercase keyChar,
         engProt := prot } : TypingEngine).updateSpellState =
        spelled config (keys ++ [keyChar]) (pushedUppercase keyChar) := by
    rw [hprot]
    rfl
  by_cases htelex : config.isTelexMode = true
  · rw [if_pos htelex] at hbias
    exact (if_pos htelex).trans (hspelled hbias)
  · rw [if_neg htelex] at hbias
    exact (if_neg htelex).trans (hspelled hbias)

theorem backspace_nil : (spelled config [] uppercase).backspace = spelled config [] uppercase := rfl

/-- A Backspace takes the last literal key back. -/
theorem backspace_spelled (keyChar : WChar) :
    (spelled config (keys ++ [keyChar]) uppercase).backspace = spelled config keys uppercase := by
  have hstates : literalStates (keys ++ [keyChar]) =
      literalStates keys ++ [literalState keys.length keyChar] := literalStates_append keys keyChar
  have hne : (spelled config (keys ++ [keyChar]) uppercase).states.isEmpty = false := by
    change (literalStates (keys ++ [keyChar])).isEmpty = false
    rw [hstates]
    simp
  have hpop :
    (spelled config (keys ++ [keyChar]) uppercase).popLetter = spelled config keys uppercase := by
    have hidx : (spelled config (keys ++ [keyChar]) uppercase).lastState.rawIdx = keys.length := by
      change (stateAt (literalStates (keys ++ [keyChar]))
        ((literalStates (keys ++ [keyChar])).length - 1)).rawIdx = _
      rw [length_literalStates, List.length_append, List.length_singleton,
        Nat.add_sub_cancel, hstates]
      simp [stateAt, literalState]
    have hdrop : (literalStates (keys ++ [keyChar])).dropLast = literalStates keys := by
      rw [hstates, List.dropLast_concat]
    have htake : (keys ++ [keyChar]).take keys.length = keys := List.take_left
    have hesc :
      (if (literalStates keys).isEmpty then [] else (keys ++ [keyChar]).dropLast) = keys := by
      rw [List.dropLast_concat]
      cases keys with
      | nil => rfl
      | cons key rest => simp [literalStates]
    rw [popLetter, hidx]
    change ({ spelled config (keys ++ [keyChar]) uppercase with
      states := (literalStates (keys ++ [keyChar])).dropLast
      rawInput := (keys ++ [keyChar]).take keys.length
      escRawHistory := if (literalStates (keys ++ [keyChar])).dropLast.isEmpty then []
        else (keys ++ [keyChar]).dropLast } : TypingEngine).updateSpellState.recalcBias = _
    rw [hdrop, htake, hesc]
    rfl
  rw [backspace, if_neg (Bool.eq_false_iff.mp hne)]
  exact hpop

/-- What a run of literal keys and Backspaces leaves of the keys. -/
def surviving : List WChar → Op → List WChar
  | keys, .pushChar keyChar => keys ++ [keyChar]
  | keys, .backspace => keys.dropLast

/-- The keys of the action are literal. -/
def IsLiteralOp (config : TypingConfig) : Op → Prop
  | .pushChar keyChar => IsLiteralKey config keyChar
  | .backspace => True

theorem perform_spelled (hquick : QuickConsonantsOff config) {op : Op}
    (hop : IsLiteralOp config op) :
    ∃ uppercase', (spelled config keys uppercase).perform op =
      spelled config (surviving keys op) uppercase' := by
  cases op with
  | pushChar keyChar => exact ⟨_, pushChar_spelled hquick hop⟩
  | backspace =>
      refine ⟨uppercase, ?_⟩
      rcases keys.eq_nil_or_concat with rfl | ⟨front, last, rfl⟩
      · exact backspace_nil
      · rw [List.concat_eq_append, surviving, List.dropLast_concat]
        exact backspace_spelled last

/-- After a run of literal keys and Backspaces only the surviving keys show. -/
theorem performAll_spelled (hquick : QuickConsonantsOff config) {ops : List Op}
    (hops : ∀ op ∈ ops, IsLiteralOp config op) :
    ∃ uppercase', (spelled config keys uppercase).performAll ops =
      spelled config (ops.foldl surviving keys) uppercase' := by
  induction ops generalizing keys uppercase with
  | nil => exact ⟨uppercase, rfl⟩
  | cons op ops ih =>
      obtain ⟨hop, hops⟩ := List.forall_mem_cons.mp hops
      obtain ⟨uppercase', hstep⟩ := @perform_spelled _ config keys uppercase hquick op hop
      obtain ⟨uppercase'', hrun⟩ := @ih (surviving keys op) uppercase' hops
      refine ⟨uppercase'', ?_⟩
      rw [performAll, List.foldl_cons, hstep]
      exact hrun

theorem reset_eq_spelled (e : TypingEngine) :
    e.reset = spelled e.config [] e.activeKeyUppercase := by
  have hbias : literalBias e.config (literalStates []) = {} := by
    rw [literalBias]
    split_ifs
    · simp [checkZwjfInitialBias, literalStates, recalcEnglishBias]
    · rfl
  rw [spelled, hbias]
  simp [updateSpellState, reset, literalStates]

/-- The surviving keys are literal. -/
theorem isLiteralOp_surviving {ops : List Op} (hops : ∀ op ∈ ops, IsLiteralOp config op)
    (hkeys : ∀ keyChar ∈ keys, IsLiteralKey config keyChar) :
    ∀ op ∈ (ops.foldl surviving keys).map Op.pushChar, IsLiteralOp config op := by
  induction ops generalizing keys with
  | nil =>
      intro op hop
      obtain ⟨keyChar, hmem, rfl⟩ := List.mem_map.mp hop
      exact hkeys keyChar hmem
  | cons op ops ih =>
      obtain ⟨hop, hops⟩ := List.forall_mem_cons.mp hops
      refine ih hops ?_
      cases op with
      | pushChar keyChar =>
          intro k hk
          rcases List.mem_append.mp hk with hk | hk
          · exact hkeys k hk
          · exact List.mem_singleton.mp hk ▸ hop
      | backspace => exact fun k hk => hkeys k (List.dropLast_subset keys hk)

omit [WideCType] in
theorem foldl_surviving_push (typed : List WChar) :
    (typed.map Op.pushChar).foldl surviving keys = keys ++ typed := by
  induction typed generalizing keys with
  | nil => rw [List.append_nil]; rfl
  | cons keyChar typed ih =>
      rw [List.map_cons, List.foldl_cons, ih, surviving, List.append_assoc, List.singleton_append]

/-- Typing the surviving keys alone gives the same engine up to the case of the last key. -/
theorem performAll_surviving (hquick : QuickConsonantsOff config) {ops : List Op}
    (hops : ∀ op ∈ ops, IsLiteralOp config op) :
    ∃ uppercase', (new config).performAll ((ops.foldl surviving []).map .pushChar) =
      spelled config (ops.foldl surviving []) uppercase' := by
  have hnone : ∀ keyChar ∈ ([] : List WChar), IsLiteralKey config keyChar := by
    intro keyChar hmem
    exact absurd hmem List.not_mem_nil
  obtain ⟨uppercase', h⟩ :=
    @performAll_spelled _ config [] false hquick _ (isLiteralOp_surviving hops hnone)
  refine ⟨uppercase', ?_⟩
  rw [foldl_surviving_push, List.nil_append] at h
  exact (congrArg (performAll · _) (reset_eq_spelled (new config))).trans h

end Steps

/-- Literal keys that Backspaces take back leave no trace: the engine is as if only the others had
been typed. -/
theorem literal_backspace_invisible (e : TypingEngine) (hquick : QuickConsonantsOff e.config)
    (ops : List Op) (hops : ∀ op ∈ ops, IsLiteralOp e.config op) :
    (e.reset.performAll ops).states =
      ((new e.config).performAll ((ops.foldl surviving []).map .pushChar)).states ∧
    (e.reset.performAll ops).rawInput =
      ((new e.config).performAll ((ops.foldl surviving []).map .pushChar)).rawInput ∧
    (e.reset.performAll ops).escRawHistory =
      ((new e.config).performAll ((ops.foldl surviving []).map .pushChar)).escRawHistory ∧
    (e.reset.performAll ops).spellCheckDisabled =
      ((new e.config).performAll ((ops.foldl surviving []).map .pushChar)).spellCheckDisabled ∧
    (e.reset.performAll ops).engProt.bias =
      ((new e.config).performAll ((ops.foldl surviving []).map .pushChar)).engProt.bias := by
  obtain ⟨u, hrun⟩ := @performAll_spelled _ e.config [] e.activeKeyUppercase hquick _ hops
  obtain ⟨u', hfresh⟩ := performAll_surviving hquick hops
  rw [reset_eq_spelled, hrun, hfresh]
  exact ⟨rfl, rfl, rfl, rfl, rfl⟩

instance (config : TypingConfig) : (op : Op) → Decidable (IsLiteralOp config op)
  | .pushChar keyChar =>
      inferInstanceAs (Decidable (methodAction config (towlower keyChar) = .none))
  | .backspace => inferInstanceAs (Decidable True)

end TypingEngine

end Typing

namespace TypingEngine

/-- In Telex `b`, `c`, Backspace and `h` leave `bh`. -/
theorem literal_backspace_invisible_bch :
    ((new {}).reset.performAll
        [.pushChar (L 'b'), .pushChar (L 'c'), .backspace, .pushChar (L 'h')]).states =
      ((new {}).performAll [.pushChar (L 'b'), .pushChar (L 'h')]).states :=
  (literal_backspace_invisible (new {}) ⟨rfl, rfl, rfl⟩
    [.pushChar (L 'b'), .pushChar (L 'c'), .backspace, .pushChar (L 'h')] (by decide)).1

end TypingEngine

end VKey
