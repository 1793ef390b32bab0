import VKey.Hook.MacroArming

/-!
# Taking an expansion back

An expansion erases as many units as the planner counts, and its undo erases the expansion.  The
shortcut comes back in the place where it stood if the planner has counted what the shortcut had
put on screen.  A session remembers where that was: the text before the tracked keys, and the text
before the word.
-/

namespace VKey

/-! ## What the planner counts -/

namespace Macro.PlanInputs

/-- The buffer is a macro key, with the trigger or without it. -/
def matchesBuffer (input : PlanInputs) (mapper : CaseMapper) : Bool :=
  (lookup input.macroTable mapper input.rawMacroBuffer).isSome ||
    (isTextTrigger input.triggerChar && decide (1 < input.rawMacroBuffer.length) &&
      input.rawMacroBuffer.getLast? == some input.triggerChar &&
      (lookup input.macroTable mapper input.rawMacroBuffer.dropLast).isSome)

variable {input : PlanInputs} {mapper : CaseMapper} {found : Match}

theorem viaComposition_of_map (withTrigger fromComposition : Option (List WChar × List WChar))
    (typed typed' : List WChar)
    (h : (match withTrigger with
      | some entry => some (⟨entry, typed, true, true⟩ : Match)
      | none => fromComposition.map fun entry => ⟨entry, typed', false, true⟩) = some found) :
    found.viaComposition = true := by
  cases withTrigger with
  | some entry =>
      cases h
      rfl
  | none =>
      obtain ⟨entry, -, rfl⟩ := Option.map_eq_some_iff.mp h
      rfl

/-- The composition is looked up only if the buffer does not match. -/
theorem viaComposition_of_findMatch (h : input.findMatch mapper = some found) :
    found.viaComposition = !input.matchesBuffer mapper := by
  revert h
  unfold findMatch matchesBuffer
  dsimp only
  cases lookup input.macroTable mapper input.rawMacroBuffer with
  | some entry =>
      rintro ⟨⟩
      rfl
  | none =>
      cases isTextTrigger input.triggerChar && decide (1 < input.rawMacroBuffer.length) &&
          input.rawMacroBuffer.getLast? == some input.triggerChar with
      | false =>
          rw [if_neg Bool.false_ne_true]
          dsimp only
          cases input.previousComposition.isEmpty with
          | true => nofun
          | false => exact viaComposition_of_map _ _ _ _
      | true =>
          rw [if_pos rfl]
          cases lookup input.macroTable mapper input.rawMacroBuffer.dropLast with
          | some entry =>
              rintro ⟨⟩
              rfl
          | none =>
              dsimp only
              cases input.previousComposition.isEmpty with
              | true => nofun
              | false => exact viaComposition_of_map _ _ _ _

/-- The characters on screen that the planner takes a macro key for. -/
theorem bsCount_plan [WordBreaks] (h : (plan input mapper).matched = true) :
    (plan input mapper).bsCount =
      if input.matchesBuffer mapper &&
          (input.macroCrossCommit || input.previousComposition.isEmpty) then input.bufferCount
      else input.compositionCount := by
  rw [matched_plan] at h
  obtain ⟨found, hfound⟩ := Option.isSome_iff_exists.mp h
  have hvia := viaComposition_of_findMatch hfound
  rw [plan, hfound]
  dsimp only
  rw [backspaces, hvia]
  cases input.matchesBuffer mapper with
  | false => rfl
  | true =>
      cases input.macroCrossCommit
      · cases input.previousComposition
        · rfl
        · rfl
      · rfl

end Macro.PlanInputs

namespace HookEngine

/-! ## Typing an expansion -/

/-- What the segments of an expansion type. -/
def typedUnits (segments : List Segment) : List WChar :=
  segments.flatMap fun
    | .ret => [L '\n']
    | .text units => units

theorem length_typedUnits (segments : List Segment) :
    (typedUnits segments).length = segmentsLength segments := by
  rw [typedUnits, List.length_flatMap, segmentsLength]
  congr 2
  funext segment
  cases segment <;> rfl

theorem typeSegments_eq (n : Nat) (host : CaretText WChar) (segments : List Segment) :
    typeSegments n host segments = host.replace n (typedUnits segments) := by
  induction segments generalizing n host with
  | nil =>
      simp [typeSegments, typedUnits, CaretText.replace, CaretText.insert, CaretText.eraseBefore]
  | cons segment segments ih =>
      cases segment with
      | ret =>
          rw [typeSegments, ih, CaretText.replace_zero]
          simp [typedUnits, CaretText.replace, CaretText.insert]
      | text units =>
          rw [typeSegments, ih, CaretText.replace_zero]
          simp [typedUnits, CaretText.replace, CaretText.insert]

namespace State

variable {E : Type} [InputEngine E] [WideCType] {config : Config} {key : Key} {s : State E}

theorem deliverExpansion_of_armed {plan : Macro.MacroPlan} {triggerChar : WChar}
    {undo : MacroUndoState} (h : undoOfPlan config triggerChar plan = some undo)
    (host : CaretText WChar) :
    undo.shortcut = plan.shortcut ∧ undo.hasTrailingTrigger = !plan.isPartOfMacro ∧
      ∃ units, units.length = undo.expansionLength ∧
        deliverExpansion config plan host = host.replace plan.bsCount units := by
  unfold undoOfPlan at h
  split_ifs at h with harms
  cases h
  simp only [Bool.and_eq_true, Bool.not_eq_true'] at harms
  refine ⟨rfl, rfl, _, length_typedUnits _, ?_⟩
  rw [deliverExpansion, if_neg (by simp [harms.1.1.2]), typeSegments_eq]

end State

/-! ## The undo -/

/-- The key takes an expansion back. -/
structure Key.TakesUndo (config : Config) (back : Key) : Prop where
  isBack : back.vkCode = vkBack
  plain : back.shortcut = false
  inTime : back.macroUndoExpired = false
  enabled : config.macroEnabled = true
  undoes : config.macroUndoOnBackspace = true

/-- The key puts one unit before the caret. -/
def Key.TypesUnit [WideCType] (key : Key) : Prop :=
  ∃ unit, ∀ host : CaretText WChar, key.press host = host.insert [unit]

namespace State

variable {E : Type} [InputEngine E] [WideCType] [AsciiCType] [WordBreaks] {config : Config}
  {key : Key} {s : State E} {undo : MacroUndoState} {mode : Mode}

omit [InputEngine E] [WideCType] [AsciiCType] [WordBreaks] in
theorem beforeStages_of_takesUndo (hback : key.TakesUndo config) :
    s.beforeStages config key = s := by
  have hboundary : isReplayContextBoundary key.vkCode = false := by
    rw [hback.isBack]
    decide
  unfold beforeStages
  dsimp only
  rw [if_neg (by simp [hboundary]),
    if_neg (by simp [hback.isBack, hback.plain, hback.inTime, hback.enabled, hback.undoes])]

theorem handleMacro_of_takesUndo (hback : key.TakesUndo config) (hundo : s.macroUndo = some undo) :
    s.handleMacro config key = (s.undoMacro undo, .eat) := by
  unfold handleMacro
  rw [hundo]
  exact if_pos ⟨hback.isBack, hback.plain, hback.inTime⟩

omit [AsciiCType] in
theorem handleEnglishMacro_of_takesUndo {macroInEnglish : Bool} (hback : key.TakesUndo config)
    (hundo : s.macroUndo = some undo) :
    s.handleEnglishMacro config macroInEnglish key = (s.undoMacro undo, .eat) := by
  unfold handleEnglishMacro
  rw [hundo]
  exact if_pos ⟨hback.isBack, hback.plain, hback.inTime⟩

omit [AsciiCType] [WordBreaks] in
theorem handleCommitUndoFsm_of_idle (config : Config) (key : Key)
    (hidle : s.commitState.state = .idle) :
    ∃ commitState, s.handleCommitUndoFsm config key = ({ s with commitState }, .fallthrough) := by
  obtain ⟨commitState, hbefore, hstate⟩ := beforeFsm_eq key s
  rw [hidle, or_self] at hstate
  obtain ⟨closed, hclosed⟩ := handleReadyGap_eq key { s with commitState }
  refine ⟨closed, ?_⟩
  unfold handleCommitUndoFsm
  dsimp only
  rw [hbefore]
  dsimp only
  rw [hstate, if_neg (by simp), if_neg (by simp), hclosed]

omit [WideCType] [AsciiCType] [WordBreaks] in
theorem handleEnglishCommitUndoFsm_of_idle (key : Key) (hidle : s.commitState.state = .idle) :
    ∃ commitState,
      s.handleEnglishCommitUndoFsm key = ({ s with commitState }, .fallthrough) := by
  obtain ⟨commitState, hbefore, hstate⟩ := beforeFsm_eq key s
  rw [hidle, or_self] at hstate
  obtain ⟨closed, hclosed⟩ := handleReadyGap_eq key { s with commitState }
  refine ⟨closed, ?_⟩
  unfold handleEnglishCommitUndoFsm
  dsimp only
  rw [hbefore]
  dsimp only
  rw [hstate, if_neg (by simp), hclosed]

/-- Backspace takes the expansion back in either language. -/
theorem pressIn_of_takesUndo (mode : Mode) (hback : key.TakesUndo config)
    (hundo : s.macroUndo = some undo) (hidle : s.commitState.state = .idle) :
    ∃ commitState, s.pressIn config mode key = { s.undoMacro undo with commitState } := by
  have hguard : isTopGuarded key.vkCode = false := by
    rw [hback.isBack]
    decide
  unfold pressIn processKeyDownIn
  cases mode.vietnameseMode with
  | true =>
      obtain ⟨commitState, hfsm⟩ := handleCommitUndoFsm_of_idle config key hidle
      have hmacro : ({ s with commitState } : State E).handleMacro config key =
          (undoMacro undo { s with commitState }, .eat) := handleMacro_of_takesUndo hback hundo
      refine ⟨commitState, ?_⟩
      rw [if_pos rfl, processKeyDown, beforeStages_of_takesUndo hback]
      dsimp only
      rw [if_neg (by simp [hguard]), hfsm]
      dsimp only
      rw [if_neg (by simp), lateStages, hmacro]
      dsimp only
      rw [if_pos (by simp)]
      rfl
  | false =>
      obtain ⟨commitState, hfsm⟩ := handleEnglishCommitUndoFsm_of_idle key hidle
      have hmacro : ({ s with commitState } : State E).handleEnglishMacro config
          mode.macroInEnglish key = (undoMacro undo { s with commitState }, .eat) :=
        handleEnglishMacro_of_takesUndo hback hundo
      refine ⟨commitState, ?_⟩
      rw [if_neg Bool.false_ne_true, processEnglishKeyDown, beforeStages_of_takesUndo hback]
      dsimp only
      rw [if_neg (by simp [hguard]), if_neg (by simp [hundo]), hfsm]
      dsimp only
      rw [if_neg (by simp), lateEnglishStages, hmacro]
      dsimp only
      rw [if_pos (by simp)]
      rfl

/-! ## The same trigger again -/

omit [InputEngine E] [WideCType] [WordBreaks] in
theorem host_cleanMacroBuffer : (s.cleanMacroBuffer config key).host = s.host := by
  unfold cleanMacroBuffer endMacroWord
  dsimp only
  split_ifs <;> rfl

/-- While macros are off no key expands one. -/
theorem host_macroStage_of_tempMacroOff (config : Config) (mode : Mode) (key : Key)
    (hnone : s.macroUndo = none) (hoff : s.tempMacroOff = true) :
    (s.macroStage config mode key).1.host = s.host := by
  unfold macroStage
  split_ifs
  · unfold handleMacro
    rw [hnone]
    dsimp only
    split_ifs
    · have htracked : (s.trackMacroKey key).tempMacroOff = true := by
        unfold trackMacroKey
        dsimp only
        split_ifs <;> exact hoff
      unfold handleMacroKey
      dsimp only
      rw [htracked]
      split_ifs
      · exact host_trackMacroKey
      · contradiction
      · exact host_cleanMacroBuffer.trans host_trackMacroKey
    · rfl
  · unfold handleEnglishMacro
    rw [hnone]
    dsimp only
    split_ifs
    · unfold handleEnglishMacroKey
      dsimp only
      rw [hoff, Bool.not_true, Bool.and_false, if_neg Bool.false_ne_true]
      split_ifs <;> rfl
    · rfl

/-! ## An expansion and its undo -/

/-- The shortcut stands behind the text again, the text behind the caret is as before, and the
trigger does not expand it. -/
structure ShortcutBack (front shortcut : List WChar) (key : Key) (s s' : State E) : Prop where
  before : s'.host.before = front ++ shortcut
  after : s'.host.after = s.host.after
  notAgain : ∀ (config : Config) (mode : Mode) (commitState : CommitState),
    (({ s' with commitState } : State E).macroStage config mode key).1.host = s'.host

/-- The trigger belongs to the macro, or it types one unit. -/
def TypedBehind (config : Config) (key : Key) (s : State E) : Prop :=
  (s.triggerPlan config key).isPartOfMacro = true ∨ key.TypesUnit

omit [InputEngine E] [AsciiCType] in
theorem Expanded.after_host {s' : State E} (h : Expanded config key s s' undo)
    (htyped : s.TypedBehind config key) : s'.host.after = s.host.after := by
  obtain ⟨-, -, units, -, hdelivered⟩ := deliverExpansion_of_armed h.arms s.host
  have hafter : (deliverExpansion config (s.triggerPlan config key) s.host).after =
      s.host.after := by
    rw [hdelivered]
    rfl
  rw [h.host]
  split_ifs with hpart
  · exact hafter
  · obtain ⟨unit, htyped⟩ := htyped.resolve_left hpart
    rw [htyped]
    exact hafter

omit [InputEngine E] [AsciiCType] in
/-- What the undo erases is what the expansion and its trigger have put on screen. -/
theorem Expanded.before_undoMacro {s' : State E} (h : Expanded config key s s' undo)
    (htyped : s.TypedBehind config key) :
    (s'.undoMacro undo).host.before =
      s.host.before.rdrop (s.triggerPlan config key).bsCount ++ undo.shortcut := by
  obtain ⟨-, htrailing, units, hunits, hdelivered⟩ := deliverExpansion_of_armed h.arms s.host
  change (s'.host.replace _ undo.shortcut).before = _
  have hexpanded : (deliverExpansion config (s.triggerPlan config key) s.host).before =
      s.host.before.rdrop (s.triggerPlan config key).bsCount ++ units := by
    rw [hdelivered]
    rfl
  cases hpart : (s.triggerPlan config key).isPartOfMacro with
  | true =>
      rw [h.host, hpart, if_pos rfl, htrailing, hpart, ← hunits]
      exact CaretText.before_replace hexpanded _
  | false =>
      obtain ⟨unit, htyped⟩ := htyped.resolve_left (by simp [hpart])
      rw [h.host, hpart, if_neg Bool.false_ne_true, htrailing, hpart, ← hunits, htyped]
      have hbehind : ((deliverExpansion config (s.triggerPlan config key) s.host).insert
          [unit]).before =
          s.host.before.rdrop (s.triggerPlan config key).bsCount ++ (units ++ [unit]) := by
        rw [CaretText.before_insert, hexpanded, List.append_assoc]
      have hlength : units.length + (if (!false) = true then 1 else 0) =
          (units ++ [unit]).length := by simp
      rw [hlength]
      exact CaretText.before_replace hbehind _

/-- The shortcut comes back behind a text exactly if the planner has counted what stands behind
it. -/
theorem Expanded.shortcutBack_iff {s' : State E} {back : Key} {config' : Config}
    (h : Expanded config key s s' undo) (mode' : Mode) (htyped : s.TypedBehind config key)
    (hback : back.TakesUndo config') (front : List WChar) :
    ShortcutBack front undo.shortcut key s (s'.pressIn config' mode' back) ↔
      Behind front s.host.before (s.triggerPlan config key).bsCount := by
  obtain ⟨commitState, hpress⟩ := pressIn_of_takesUndo mode' hback h.armed h.idle
  have hbefore : (s'.pressIn config' mode' back).host.before =
      s.host.before.rdrop (s.triggerPlan config key).bsCount ++ undo.shortcut := by
    rw [hpress]
    exact h.before_undoMacro htyped
  rw [behind_iff]
  constructor
  · intro hfront
    exact List.append_cancel_right (hbefore.symm.trans hfront.before)
  · intro hfront
    refine ⟨hbefore.trans (by rw [hfront]), ?_, fun config mode commitState => ?_⟩
    · rw [hpress]
      exact h.after_host htyped
    · rw [hpress]
      exact host_macroStage_of_tempMacroOff config mode key rfl rfl

/-! ## What the hook counts -/

/-- The tracked keys are a macro key, with the trigger or without it. -/
def matchesKeys (config : Config) (key : Key) (s : State E) : Bool :=
  ((s.trackMacroKey key).planInputs config key.macroChar).matchesBuffer config.mapper

omit [WideCType] [AsciiCType] [WordBreaks] in
theorem isAlphaVk_of_trigger {vkCode : Nat} (h : isCommitTrigger vkCode = true) :
    isAlphaVk vkCode = false := by
  simp only [isCommitTrigger, isDigitVk, vkSpace, vkReturn, vkEscape, vkTab, vkLeft, vkDown, vkHome,
    vkEnd, vkPrior, vkNext, vkOem1, vkOem3, vkOem4, vkOem8, vkOemPlus, vkOemComma, vkOemMinus,
    vkOemPeriod, vkDelete, vkInsert, Bool.or_eq_true, beq_iff_eq, decide_eq_true_eq] at h
  simp only [isAlphaVk, decide_eq_false_iff_not]
  omega

/-- What the hook takes for the units of the shortcut on screen: one for each tracked key, if the
keys have been carried over a commit or nothing is composed, and the composition otherwise. -/
def shortcutUnits (config : Config) (key : Key) (s : State E) : Nat :=
  if s.matchesKeys config key && (s.macroCrossCommit || s.previousComposition.isEmpty) then
    s.rawMacroBuffer.length
  else s.previousComposition.length

omit [InputEngine E] [AsciiCType] in
theorem Expanded.bsCount_eq {s' : State E} (h : Expanded config key s s' undo) :
    (s.triggerPlan config key).bsCount = s.shortcutUnits config key := by
  have hunicode : config.currentCodeTable = .unicode := by
    have harms := h.arms
    unfold undoOfPlan at harms
    split_ifs at harms with htests
    simp only [Bool.and_eq_true, beq_iff_eq] at htests
    exact htests.1.2
  have htracked : s.trackMacroKey key = _ :=
    trackMacroKey_of_trigger (isAlphaVk_of_trigger h.trigger) h.trigger
  have hcomposition :
      ((s.trackMacroKey key).planInputs config key.macroChar).compositionCount =
        s.previousComposition.length := by
    rw [htracked, Macro.PlanInputs.compositionCount, if_neg (by simp [planInputs, hunicode])]
    split_ifs <;> rfl
  have hbuffer : ((s.trackMacroKey key).planInputs config key.macroChar).bufferCount =
      s.rawMacroBuffer.length := by
    rw [htracked, Macro.PlanInputs.bufferCount]
    by_cases htext : L ' ' < key.macroChar
    · simp [planInputs, Macro.isTextTrigger, htext]
    · simp [planInputs, Macro.isTextTrigger, htext]
  have hcross : ((s.trackMacroKey key).planInputs config key.macroChar).macroCrossCommit =
      s.macroCrossCommit := by
    rw [htracked]
    split_ifs <;> rfl
  have hprevious : ((s.trackMacroKey key).planInputs config key.macroChar).previousComposition =
      s.previousComposition := by
    rw [htracked]
    split_ifs <;> rfl
  rw [triggerPlan, Macro.PlanInputs.bsCount_plan h.matched, hcomposition, hbuffer, hcross,
    hprevious]
  rfl

end State

/-! ## Sessions with macros -/

/-- A hook, the text before the keys it tracks, and the text before the word. -/
structure MacroSession (E : Type) where
  hook : State E
  beforeKeys : List WChar
  beforeWord : List WChar

inductive MacroEvent where
  | press (config : Config) (mode : Mode) (key : Key)
  /-- The composition is dropped, and the caret stands in another text. -/
  | reset (host : CaretText WChar)

namespace MacroSession

variable {E : Type} [InputEngine E] [WideCType]

/-- A hook that has seen no key yet. -/
def start (engine : E) (host : CaretText WChar) : MacroSession E where
  hook := { engine, host }
  beforeKeys := host.before
  beforeWord := host.before

variable [AsciiCType] [WordBreaks]

/-- A key is pressed.  The text before the tracked keys stays what it was when the first of them
came; a shortcut that comes back is tracked again.  The text before the word is the one before the
composition when the word was started or brought back. -/
def press (config : Config) (mode : Mode) (key : Key) (t : MacroSession E) : MacroSession E :=
  let s := t.hook.pressIn config mode key
  { hook := s
    beforeKeys :=
      if s.rawMacroBuffer = [] then s.host.before
      else if t.hook.rawMacroBuffer = [] ∧ key.vkCode = vkBack then
        s.host.before.rdrop s.rawMacroBuffer.length
      else t.beforeKeys
    beforeWord :=
      if t.hook.count = 0 then s.host.before.rdrop (onScreen config s.previousComposition).length
      else t.beforeWord }

def next (t : MacroSession E) : MacroEvent → MacroSession E
  | .press config mode key => t.press config mode key
  | .reset host =>
      { hook := { t.hook.resetComposition with host }
        beforeKeys := host.before
        beforeWord := host.before }

/-- The session after a sequence of events. -/
def after (engine : E) (host : CaretText WChar) (events : List MacroEvent) : MacroSession E :=
  events.foldl next (start engine host)

/-- The text before what the trigger expands. -/
def front (config : Config) (key : Key) (t : MacroSession E) : List WChar :=
  if t.hook.matchesKeys config key then t.beforeKeys else t.beforeWord

/-- The trigger belongs to the macro or types one unit, and the shortcut has on screen as many
units as the hook counts. -/
structure Accounted (config : Config) (key : Key) (t : MacroSession E) : Prop where
  typed : t.hook.TypedBehind config key
  shown : Behind (t.front config key) t.hook.host.before (t.hook.shortcutUnits config key)

/-- An expansion of an accounted shortcut is taken back exactly, and no other one of a trigger
that is typed. -/
theorem shortcutBack_iff {t : MacroSession E} {config config' : Config} {mode : Mode}
    {key back : Key} {undo : MacroUndoState} (mode' : Mode) (htyped : t.hook.TypedBehind config key)
    (hkey : key.vkCode ≠ vkBack) (harmed : (t.press config mode key).hook.macroUndo = some undo)
    (hback : back.TakesUndo config') :
    State.ShortcutBack (t.front config key) (t.hook.triggerPlan config key).shortcut key t.hook
        ((t.press config mode key).press config' mode' back).hook ↔
      t.Accounted config key := by
  have hexpanded := State.expanded_of_macroUndo hkey harmed
  obtain ⟨hshortcut, -⟩ := State.deliverExpansion_of_armed hexpanded.arms t.hook.host
  have hiff := hexpanded.shortcutBack_iff mode' htyped hback (t.front config key)
  rw [hexpanded.bsCount_eq, hshortcut] at hiff
  refine hiff.trans ⟨fun hshown => ⟨htyped, hshown⟩, Accounted.shown⟩

end MacroSession

end HookEngine

end VKey
