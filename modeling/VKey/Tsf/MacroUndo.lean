import VKey.Hook.MacroUndo
import VKey.Tsf.MacroTracking

/-!
# Taking an expansion back in a text service

An expansion takes the place of the composition, or of as many units before the caret as the
planner counts, and brings its trigger along.  The undo replaces all of it by the shortcut, which
comes back in the place where it stood if that place has been counted right.
-/

namespace VKey

namespace EngineController

open HookEngine (MacroResult)

namespace MacroController

variable {E : Type} [InputEngine E] [AsciiCType] [WordBreaks] {settings : MacroSettings}
  {trigger : Trigger} {s : MacroController E} {undo : MacroUndoState}

/-! ## What a trigger finds -/

/-- The state in which the macro is looked up. -/
def tracked (triggerChar : WChar) (s : MacroController E) : MacroController E :=
  (s.trackTrigger triggerChar).getD s

/-- The state in which the macro has been found. -/
def found (settings : MacroSettings) (trigger : Trigger) (s : MacroController E) :
    MacroController E :=
  ((s.tracked trigger.triggerChar).findPlan settings trigger.triggerChar).1

/-- What the trigger expands to. -/
def triggerPlan (settings : MacroSettings) (trigger : Trigger) (s : MacroController E) :
    Macro.MacroPlan :=
  ((s.tracked trigger.triggerChar).findPlan settings trigger.triggerChar).2

omit [AsciiCType] [WordBreaks] in
theorem tracked_eq (triggerChar : WChar) (s : MacroController E) :
    ∃ rawMacroBuffer, s.tracked triggerChar = { s with rawMacroBuffer } := by
  unfold tracked trackTrigger
  dsimp only
  split_ifs
  · exact ⟨_, rfl⟩
  · exact ⟨_, rfl⟩
  · exact ⟨_, rfl⟩

omit [AsciiCType] in
/-- A look-up changes the keys at most, and whether they count as carried over a commit. -/
theorem found_eq (settings : MacroSettings) (trigger : Trigger) (s : MacroController E) :
    ∃ rawMacroBuffer macroCrossCommit,
      s.found settings trigger = { s with rawMacroBuffer, macroCrossCommit } := by
  obtain ⟨rawMacroBuffer, htracked⟩ := tracked_eq trigger.triggerChar s
  unfold found findPlan
  rw [htracked]
  dsimp only
  split_ifs
  · exact ⟨_, _, rfl⟩
  · split
    · exact ⟨_, _, rfl⟩
    · exact ⟨_, _, rfl⟩

/-! ## The document behind an expansion -/

/-- The expansion takes the place of the composition. -/
def replacesComposition (s : MacroController E) : Bool :=
  !s.macroCrossCommit && s.composition.isSome

/-- The document in which an expansion is put. -/
def editedDocument (s : MacroController E) : CaretText WChar :=
  if s.replacesComposition then s.document else s.commitShown.document

omit [AsciiCType] [WordBreaks] in
theorem document_replaceShortcut {characterCount : Nat} {replacement : List WChar}
    {s' : MacroController E} (h : s.replaceShortcut characterCount replacement = some s') :
    s'.document =
      s.editedDocument.replace
        (if s.replacesComposition then s.composition.getD 0 else characterCount) replacement := by
  unfold replaceShortcut at h
  unfold editedDocument replacesComposition
  cases hcross : s.macroCrossCommit with
  | true =>
      rw [hcross, Bool.true_or, if_pos rfl] at h
      obtain ⟨document, hreplaced, rfl⟩ := Option.map_eq_some_iff.mp h
      unfold replacePrecedingText at hreplaced
      split_ifs at hreplaced
      exact (Option.some_inj.mp hreplaced).symm
  | false =>
      cases hcomposition : s.composition with
      | none =>
          rw [hcross, hcomposition, if_pos (by rfl)] at h
          obtain ⟨document, hreplaced, rfl⟩ := Option.map_eq_some_iff.mp h
          unfold replacePrecedingText at hreplaced
          split_ifs at hreplaced
          exact (Option.some_inj.mp hreplaced).symm
      | some units =>
          rw [hcross, hcomposition, if_neg (by simp)] at h
          cases h
          rw [commitEditSession, hcomposition]
          rfl

/-- A macro has been expanded. -/
structure Expanded (settings : MacroSettings) (trigger : Trigger) (s s' : MacroController E) :
    Prop where
  tracks : s.trackTrigger trigger.triggerChar = some (s.tracked trigger.triggerChar)
  matched : (s.triggerPlan settings trigger).matched = true
  document : s'.document =
    (s.found settings trigger).editedDocument.replace
      (if (s.found settings trigger).replacesComposition then s.composition.getD 0
        else (s.triggerPlan settings trigger).bsCount)
      (replacementOf (s.triggerPlan settings trigger) trigger)
  armed : s'.macroUndo = undoOfPlan settings.config trigger (s.triggerPlan settings trigger)

theorem expanded_of_handleMacroTrigger
    (h : (s.handleMacroTrigger settings trigger).2 ≠ .noMatch) :
    Expanded settings trigger s (s.handleMacroTrigger settings trigger).1 := by
  revert h
  unfold handleMacroTrigger
  split_ifs
  · exact fun h => absurd rfl h
  · exact fun h => absurd rfl h
  · exact fun h => absurd rfl h
  cases htracks : s.trackTrigger trigger.triggerChar with
  | none => exact fun h => absurd rfl h
  | some tracked =>
      have htracked : s.tracked trigger.triggerChar = tracked := by
        rw [MacroController.tracked, htracks, Option.getD_some]
      have hfound : (tracked.findPlan settings trigger.triggerChar).1 =
          s.found settings trigger := by rw [found, htracked]
      have hplan : (tracked.findPlan settings trigger.triggerChar).2 =
          s.triggerPlan settings trigger := by rw [triggerPlan, htracked]
      dsimp only
      rw [hfound, hplan]
      cases hmatched : (s.triggerPlan settings trigger).matched with
      | false => exact fun h => absurd rfl h
      | true =>
          rw [if_neg (by simp), expandPlan]
          cases hreplaced : (s.found settings trigger).replaceShortcut
              (s.triggerPlan settings trigger).bsCount
              (replacementOf (s.triggerPlan settings trigger) trigger) with
          | none => exact fun h => absurd rfl h
          | some replaced =>
              intro _
              obtain ⟨_, _, hsame⟩ := found_eq settings trigger s
              have hdocument := document_replaceShortcut hreplaced
              have hcomposition : (s.found settings trigger).composition = s.composition := by
                rw [hsame]
              rw [hcomposition] at hdocument
              exact ⟨htracks.trans (congrArg some htracked.symm), hmatched, hdocument, rfl⟩

/-! ## The undo -/

/-- The shortcut stands behind the text again, the text behind the caret is as before, and no
trigger expands it. -/
structure ShortcutBack (front shortcut : List WChar) (s s' : MacroController E) : Prop where
  before : s'.document.before = front ++ shortcut
  after : s'.document.after = s.document.after
  notAgain : ∀ (settings : MacroSettings) (trigger : Trigger),
    (s'.handleMacroTrigger settings trigger).2 = .noMatch ∧
      (s'.handleMacroTrigger settings trigger).1.document = s'.document

omit [InputEngine E] [AsciiCType] [WordBreaks] in
/-- An undo that is taken replaces the expansion by the shortcut. -/
theorem undoMacro_of_taken {expired : Bool} (hundo : s.macroUndo = some undo)
    (htaken : (s.undoMacro settings expired).2 = true) :
    (s.undoMacro settings expired).1 =
      { s with
        document := s.document.replace undo.expansionLength undo.shortcut
        macroUndo := none
        rawMacroBuffer := undo.shortcut
        macroCrossCommit := true
        tempMacroOff := true } := by
  unfold undoMacro at htaken ⊢
  rw [hundo] at htaken ⊢
  dsimp only at htaken ⊢
  split_ifs at htaken ⊢
  unfold replacePrecedingText at htaken ⊢
  split_ifs at htaken ⊢
  rfl

theorem handleMacroTrigger_of_tempMacroOff (settings : MacroSettings) (trigger : Trigger)
    (hoff : s.tempMacroOff = true) :
    (s.handleMacroTrigger settings trigger).2 = .noMatch ∧
      (s.handleMacroTrigger settings trigger).1.document = s.document := by
  unfold handleMacroTrigger
  rw [hoff, Bool.true_or, if_pos rfl]
  split_ifs
  · exact ⟨rfl, rfl⟩
  · exact ⟨rfl, rfl⟩

omit [AsciiCType] [WordBreaks] in
theorem undoOfPlan_eq_some {config : HookEngine.Config} {plan : Macro.MacroPlan}
    (h : undoOfPlan config trigger plan = some undo) :
    undo.shortcut = plan.shortcut ∧
      undo.expansionLength = (replacementOf plan trigger).length := by
  unfold undoOfPlan at h
  split_ifs at h
  cases h
  exact ⟨rfl, rfl⟩

/-- What the expansion replaces, in the document in which it is put. -/
def replacedUnits (settings : MacroSettings) (trigger : Trigger) (s : MacroController E) : Nat :=
  if (s.found settings trigger).replacesComposition then s.composition.getD 0
  else (s.triggerPlan settings trigger).bsCount

theorem Expanded.shortcutBack_iff {s' : MacroController E} {settings' : MacroSettings}
    {expired : Bool} (h : Expanded settings trigger s s') (hundo : s'.macroUndo = some undo)
    (htaken : (s'.undoMacro settings' expired).2 = true) (front : List WChar) :
    ShortcutBack front (s.triggerPlan settings trigger).shortcut s
        (s'.undoMacro settings' expired).1 ↔
      Behind front (s.found settings trigger).editedDocument.before
        (s.replacedUnits settings trigger) := by
  obtain ⟨hshortcut, hlength⟩ := undoOfPlan_eq_some (h.armed.symm.trans hundo)
  rw [undoMacro_of_taken hundo htaken, behind_iff]
  have hexpanded : s'.document.before =
      (s.found settings trigger).editedDocument.before.rdrop (s.replacedUnits settings trigger) ++
        replacementOf (s.triggerPlan settings trigger) trigger := by
    rw [h.document]
    rfl
  have hbefore : (s'.document.replace undo.expansionLength undo.shortcut).before =
      (s.found settings trigger).editedDocument.before.rdrop (s.replacedUnits settings trigger) ++
        (s.triggerPlan settings trigger).shortcut := by
    rw [hlength, hshortcut]
    exact CaretText.before_replace hexpanded _
  constructor
  · intro hback
    exact List.append_cancel_right (hbefore.symm.trans hback.before)
  · intro hfront
    refine ⟨hbefore.trans (by rw [hfront]), ?_, fun settings trigger => ?_⟩
    · change s'.document.after = s.document.after
      rw [h.document]
      change (s.found settings trigger).editedDocument.after = s.document.after
      obtain ⟨_, _, hsame⟩ := found_eq settings trigger s
      unfold editedDocument commitShown commitEditSession
      rw [hsame]
      split_ifs
      · rfl
      · dsimp only
        split
        · rfl
        · rfl
      · rfl
    · exact handleMacroTrigger_of_tempMacroOff settings trigger rfl

/-! ## What the text service counts -/

/-- The keys or the composition are a macro key. -/
def matchesTyped (settings : MacroSettings) (trigger : Trigger) (s : MacroController E) : Bool :=
  ((s.tracked trigger.triggerChar).evaluateMacroPlan settings trigger.triggerChar).matched

/-- The tracked keys are a macro key, with the trigger or without it. -/
def matchesKeys (settings : MacroSettings) (trigger : Trigger) (s : MacroController E) : Bool :=
  s.matchesTyped settings trigger &&
    ((s.tracked trigger.triggerChar).planInputs settings trigger.triggerChar).matchesBuffer
      settings.config.mapper

/-- The units of a macro key that stands before the caret. -/
def contextUnits (settings : MacroSettings) (trigger : Trigger) (s : MacroController E) : Nat :=
  ((s.lookupMacroInContext settings trigger.triggerChar).map Macro.ContextMatch.shortcutLen).getD 0

/-- What the text service takes for the units of the shortcut: the composition, if that is
replaced; one for each tracked key, if the keys have been carried over a commit or nothing is
composed; what the engine shows; or the macro key before the caret. -/
def shortcutUnits (settings : MacroSettings) (trigger : Trigger) (s : MacroController E) : Nat :=
  if (s.found settings trigger).replacesComposition then s.composition.getD 0
  else if s.matchesTyped settings trigger then
    if s.matchesKeys settings trigger &&
        (s.macroCrossCommit || (InputEngine.peek s.engine).isEmpty) then s.rawMacroBuffer.length
    else (InputEngine.peek s.engine).length
  else s.contextUnits settings trigger

omit [InputEngine E] [AsciiCType] in
theorem bsCount_of_lookup {triggerChar : WChar} {found : Macro.ContextMatch}
    (h : s.lookupMacroInContext settings triggerChar = some found) :
    found.plan.bsCount = found.shortcutLen := by
  unfold lookupMacroInContext at h
  split_ifs at h
  exact Macro.Context.bsCount_of_matchInPrecedingText h

omit [AsciiCType] [WordBreaks] in
theorem bufferCount_tracked
    (h : s.trackTrigger trigger.triggerChar = some (s.tracked trigger.triggerChar)) :
    ((s.tracked trigger.triggerChar).planInputs settings trigger.triggerChar).bufferCount =
      s.rawMacroBuffer.length := by
  generalize s.tracked trigger.triggerChar = tracked at h
  unfold trackTrigger at h
  dsimp only at h
  unfold Macro.PlanInputs.bufferCount Macro.isTextTrigger
  change (if decide (L ' ' < trigger.triggerChar) = true then tracked.rawMacroBuffer.length - 1
    else tracked.rawMacroBuffer.length) = _
  split_ifs at h with hadds
  · rw [Bool.and_eq_true] at hadds
    rw [if_pos hadds.2, ← Option.some_inj.mp h, List.length_append, List.length_singleton,
      Nat.add_sub_cancel]
  · rw [← Option.some_inj.mp h]
    split_ifs with htext
    · have hnone : s.rawMacroBuffer = [] := by
        by_contra hsome
        refine hadds ?_
        rw [htext, Bool.and_true, Bool.or_eq_true]
        exact Or.inl (by simpa using hsome)
      rw [hnone]
      rfl
    · rfl

omit [AsciiCType] in
theorem evaluateMacroPlan_of_matched {triggerChar : WChar}
    (h : (s.evaluateMacroPlan settings triggerChar).matched = true) :
    s.evaluateMacroPlan settings triggerChar =
      Macro.plan (s.planInputs settings triggerChar) settings.config.mapper := by
  unfold evaluateMacroPlan at h ⊢
  split_ifs at h ⊢
  rfl

omit [AsciiCType] in
theorem bsCount_tracked
    (htracks : s.trackTrigger trigger.triggerChar = some (s.tracked trigger.triggerChar))
    (h : s.matchesTyped settings trigger = true) :
    ((s.tracked trigger.triggerChar).evaluateMacroPlan settings trigger.triggerChar).bsCount =
      if s.matchesKeys settings trigger &&
          (s.macroCrossCommit || (InputEngine.peek s.engine).isEmpty) then s.rawMacroBuffer.length
      else (InputEngine.peek s.engine).length := by
  have hplan := evaluateMacroPlan_of_matched h
  have hmatched : (Macro.plan
      ((s.tracked trigger.triggerChar).planInputs settings trigger.triggerChar)
      settings.config.mapper).matched = true := hplan ▸ h
  rw [hplan, Macro.PlanInputs.bsCount_plan hmatched, bufferCount_tracked htracks, matchesKeys, h,
    Bool.true_and]
  obtain ⟨rawMacroBuffer, htracked⟩ := tracked_eq trigger.triggerChar s
  rw [htracked]
  rfl

omit [AsciiCType] in
theorem triggerPlan_of_matchesTyped (h : s.matchesTyped settings trigger = true) :
    s.triggerPlan settings trigger =
      (s.tracked trigger.triggerChar).evaluateMacroPlan settings trigger.triggerChar := by
  unfold matchesTyped at h
  unfold triggerPlan findPlan
  dsimp only
  rw [if_pos h]

omit [AsciiCType] in
/-- What is not typed is found before the caret, and is committed text. -/
theorem exists_lookup_of_context (hmatched : (s.triggerPlan settings trigger).matched = true)
    (h : s.matchesTyped settings trigger = false) :
    ∃ found, s.lookupMacroInContext settings trigger.triggerChar = some found ∧
      s.triggerPlan settings trigger = found.plan ∧
      (s.found settings trigger).macroCrossCommit = true := by
  have hcontext : (s.tracked trigger.triggerChar).lookupMacroInContext settings
      trigger.triggerChar = s.lookupMacroInContext settings trigger.triggerChar := by
    obtain ⟨rawMacroBuffer, htracked⟩ := tracked_eq trigger.triggerChar s
    rw [htracked]
    rfl
  unfold matchesTyped at h
  unfold triggerPlan findPlan at hmatched ⊢
  unfold found findPlan
  dsimp only at hmatched ⊢
  rw [hcontext, if_neg (by simp [h])] at hmatched ⊢
  cases hfound : s.lookupMacroInContext settings trigger.triggerChar with
  | none =>
      rw [hfound] at hmatched
      exact absurd hmatched (by simp [h])
  | some found => exact ⟨found, rfl, rfl, rfl⟩

omit [AsciiCType] in
theorem bsCount_of_context (hmatched : (s.triggerPlan settings trigger).matched = true)
    (h : s.matchesTyped settings trigger = false) :
    (s.triggerPlan settings trigger).bsCount = s.contextUnits settings trigger := by
  obtain ⟨found, hfound, hplan, -⟩ := exists_lookup_of_context hmatched h
  rw [hplan, contextUnits, hfound]
  exact bsCount_of_lookup hfound

omit [AsciiCType] in
theorem Expanded.replacedUnits_eq {s' : MacroController E} (h : Expanded settings trigger s s') :
    s.replacedUnits settings trigger = s.shortcutUnits settings trigger := by
  unfold replacedUnits shortcutUnits
  cases (s.found settings trigger).replacesComposition with
  | true => rfl
  | false =>
      rw [if_neg Bool.false_ne_true, if_neg Bool.false_ne_true]
      cases htyped : s.matchesTyped settings trigger with
      | true =>
          rw [if_pos rfl, triggerPlan_of_matchesTyped htyped]
          exact bsCount_tracked h.tracks htyped
      | false =>
          rw [if_neg Bool.false_ne_true]
          exact bsCount_of_context h.matched htyped

end MacroController

/-! ## Sessions with macros -/

/-- A text service, and the text before the keys it tracks. -/
structure MacroSession (E : Type) where
  controller : MacroController E
  beforeKeys : List WChar

inductive MacroEvent (E : Type) where
  | trackCharacter (settings : MacroSettings) (ch : WChar)
  | trackBackspace (settings : MacroSettings)
  | clearTracking
  | clearTrackingAfterCommit
  | resetMacroUndo
  | trigger (settings : MacroSettings) (trigger : Trigger)
  | undo (settings : MacroSettings) (expired : Bool)
  /-- Whatever else happens to the engine and to the document. -/
  | edit (engine : E) (document : CaretText WChar) (composition : Option Nat)
      (wasFirstCharAutoCapped : Bool)

namespace MacroSession

variable {E : Type}

/-- A text service that has seen no key yet. -/
def start (engine : E) (document : CaretText WChar) : MacroSession E where
  controller := { engine, document }
  beforeKeys := document.before

/-- The text before the tracked keys stays what it was when the first of them came. -/
def follow (s : MacroController E) (t : MacroSession E) : MacroSession E where
  controller := s
  beforeKeys := if s.rawMacroBuffer = [] then s.document.before else t.beforeKeys

variable [InputEngine E] [AsciiCType] [WordBreaks] {settings settings' : MacroSettings}
  {trigger : Trigger} {undo : MacroUndoState} {expired : Bool} {t : MacroSession E}

/-- A shortcut that comes back is tracked again. -/
def next (t : MacroSession E) : MacroEvent E → MacroSession E
  | .trackCharacter settings ch => t.follow (t.controller.trackMacroCharacter settings ch)
  | .trackBackspace settings => t.follow (t.controller.trackMacroBackspace settings)
  | .clearTracking => t.follow t.controller.clearMacroTracking
  | .clearTrackingAfterCommit => t.follow t.controller.clearMacroTrackingAfterCommit
  | .resetMacroUndo => t.follow { t.controller with macroUndo := none }
  | .trigger settings trigger => t.follow (t.controller.handleMacroTrigger settings trigger).1
  | .undo settings expired =>
      let undone := t.controller.undoMacro settings expired
      if undone.2 then
        { controller := undone.1
          beforeKeys := undone.1.document.before.rdrop undone.1.rawMacroBuffer.length }
      else t.follow undone.1
  | .edit engine document composition wasFirstCharAutoCapped =>
      t.follow { t.controller with engine, document, composition, wasFirstCharAutoCapped }

/-- The session after a sequence of events. -/
def after (engine : E) (document : CaretText WChar) (events : List (MacroEvent E)) :
    MacroSession E :=
  events.foldl next (start engine document)

/-- The text before what the trigger expands. -/
def front (settings : MacroSettings) (trigger : Trigger) (t : MacroSession E) : List WChar :=
  if t.controller.matchesKeys settings trigger then t.beforeKeys
  else if t.controller.matchesTyped settings trigger then
    t.controller.document.before.rdrop (t.controller.composition.getD 0)
  else t.controller.document.before.rdrop (t.controller.contextUnits settings trigger)

/-- The shortcut has on screen as many units as the text service counts. -/
def Accounted (settings : MacroSettings) (trigger : Trigger) (t : MacroSession E) : Prop :=
  Behind (t.front settings trigger) (t.controller.found settings trigger).editedDocument.before
    (t.controller.shortcutUnits settings trigger)

theorem controller_undo (settings : MacroSettings) (expired : Bool) (t : MacroSession E) :
    (t.next (.undo settings expired)).controller =
      (t.controller.undoMacro settings expired).1 := by
  unfold next
  dsimp only
  split_ifs
  · rfl
  · rfl

theorem shortcutBack_iff
    (hexpands : (t.controller.handleMacroTrigger settings trigger).2 ≠ .noMatch)
    (harmed : (t.next (.trigger settings trigger)).controller.macroUndo = some undo)
    (htaken :
      ((t.next (.trigger settings trigger)).controller.undoMacro settings' expired).2 = true) :
    MacroController.ShortcutBack (t.front settings trigger)
        (t.controller.triggerPlan settings trigger).shortcut t.controller
        ((t.next (.trigger settings trigger)).next (.undo settings' expired)).controller ↔
      t.Accounted settings trigger := by
  have hexpanded := MacroController.expanded_of_handleMacroTrigger hexpands
  rw [controller_undo, Accounted, ← hexpanded.replacedUnits_eq]
  exact hexpanded.shortcutBack_iff harmed htaken _

end MacroSession

end EngineController

/-! ## Both backends -/

open HookEngine (vkBack vkSpace vkOemPeriod)

/-- After any session of the hook and of the text service, an expansion that arms the undo is
taken back exactly if its shortcut is accounted. -/
theorem macroUndo_exact_iff {E : Type} [InputEngine E] [WideCType] [AsciiCType] [WordBreaks]
    (engine : E) (document : CaretText WChar) :
    (∀ (events : List HookEngine.MacroEvent) (config config' : HookEngine.Config)
        (mode mode' : HookEngine.Mode) (key back : HookEngine.Key)
        (undo : HookEngine.MacroUndoState) (t : HookEngine.MacroSession E),
      t = .after engine document events → t.hook.TypedBehind config key → key.vkCode ≠ vkBack →
        (t.press config mode key).hook.macroUndo = some undo → back.TakesUndo config' →
          (HookEngine.State.ShortcutBack (t.front config key)
              (t.hook.triggerPlan config key).shortcut key t.hook
              ((t.press config mode key).press config' mode' back).hook ↔
            t.Accounted config key)) ∧
    ∀ (events : List (EngineController.MacroEvent E))
        (settings settings' : EngineController.MacroSettings) (trigger : EngineController.Trigger)
        (undo : EngineController.MacroUndoState) (expired : Bool)
        (t : EngineController.MacroSession E),
      t = .after engine document events →
        (t.controller.handleMacroTrigger settings trigger).2 ≠ .noMatch →
          (t.next (.trigger settings trigger)).controller.macroUndo = some undo →
            ((t.next (.trigger settings trigger)).controller.undoMacro settings' expired).2 = true →
              (EngineController.MacroController.ShortcutBack (t.front settings trigger)
                  (t.controller.triggerPlan settings trigger).shortcut t.controller
                  ((t.next (.trigger settings trigger)).next (.undo settings' expired)).controller ↔
                t.Accounted settings trigger) :=
  ⟨fun _ _ _ _ mode' _ _ _ _ _ htyped hkey harmed hback =>
      HookEngine.MacroSession.shortcutBack_iff mode' htyped hkey harmed hback,
    fun _ _ _ _ _ _ _ _ hexpands harmed htaken =>
      EngineController.MacroSession.shortcutBack_iff hexpands harmed htaken⟩

/-- Macros are on, and there is one. -/
def oneMacro (key expansion : List WChar) : HookEngine.Config where
  macroEnabled := true
  macroTable := ⟨[(key, expansion)], List.nodup_singleton _⟩
  macroUndoOnBackspace := true

def btwText : List WChar := [L 'b', L 't', L 'w']

/-- The keys B, T and W. -/
def btwKeys : List HookEngine.Key :=
  [{ vkCode := 0x42, macroChar := L 'b' }, { vkCode := 0x54, macroChar := L 't' },
    { vkCode := 0x57, macroChar := L 'w' }]

def spaceBar : HookEngine.Key where
  vkCode := vkSpace
  macroChar := L ' '
  space_iff := Iff.rfl

def backspaceKey : HookEngine.Key where
  vkCode := vkBack

theorem takesUndo_oneMacro (key expansion : List WChar) :
    backspaceKey.TakesUndo (oneMacro key expansion) := ⟨rfl, rfl, rfl, rfl, rfl⟩

theorem typesUnit_spaceBar [WideCType] : spaceBar.TypesUnit :=
  ⟨_, HookEngine.Key.press_of_typesCharacter rfl rfl⟩

/-- The letters of a text are typed and tracked one after the other. -/
def typeTracked (settings : EngineController.MacroSettings) (front : List WChar)
    (typed : List WChar) (ch : WChar) : List (EngineController.MacroEvent TypingEngine) :=
  let typed := typed ++ [ch]
  [.trackCharacter settings ch,
    .edit (typed.foldl (fun engine ch => InputEngine.pushKey engine ch false) (TypingEngine.new {}))
      { before := front ++ typed } (some typed.length) false]

def aText : CaretText WChar := { before := [L 'a', L ' '] }

def btwConfig : HookEngine.Config := oneMacro btwText [L 'x']

def btwEvents : List HookEngine.MacroEvent := btwKeys.map (.press btwConfig {})

def btwHook : HookEngine.MacroSession TypingEngine :=
  HookEngine.MacroSession.after (TypingEngine.new {}) aText btwEvents

def btwSettings : EngineController.MacroSettings := { config := btwConfig }

def btwServiceEvents : List (EngineController.MacroEvent TypingEngine) :=
  typeTracked btwSettings aText.before [] (L 'b') ++
    typeTracked btwSettings aText.before [L 'b'] (L 't') ++
    typeTracked btwSettings aText.before [L 'b', L 't'] (L 'w')

def btwService : EngineController.MacroSession TypingEngine :=
  EngineController.MacroSession.after (TypingEngine.new {}) aText btwServiceEvents

def spaceTrigger : EngineController.Trigger := { vkCode := vkSpace, triggerChar := L ' ' }

/-- Behind `a ` the keys B, T, W, the space bar and Backspace leave `a btw`, in the hook and in
the text service. -/
theorem macroUndo_exact_btw :
    ((btwHook.press btwConfig {} spaceBar).press btwConfig {} backspaceKey).hook.host.before =
        btwHook.front btwConfig spaceBar ++
          (btwHook.hook.triggerPlan btwConfig spaceBar).shortcut ∧
      ((btwService.next (.trigger btwSettings spaceTrigger)).next
          (.undo btwSettings false)).controller.document.before =
        btwService.front btwSettings spaceTrigger ++
          (btwService.controller.triggerPlan btwSettings spaceTrigger).shortcut := by
  obtain ⟨hhook, hservice⟩ := macroUndo_exact_iff (TypingEngine.new {}) aText
  obtain ⟨undo, hundo⟩ : ∃ undo, (btwHook.press btwConfig {} spaceBar).hook.macroUndo = some undo :=
    Option.isSome_iff_exists.mp (by decide +kernel)
  obtain ⟨armed, harmed⟩ :
      ∃ armed, (btwService.next (.trigger btwSettings spaceTrigger)).controller.macroUndo =
        some armed :=
    Option.isSome_iff_exists.mp (by decide +kernel)
  have htyped : btwHook.hook.TypedBehind btwConfig spaceBar := Or.inr typesUnit_spaceBar
  have haccounted : btwHook.Accounted btwConfig spaceBar :=
    ⟨htyped, behind_iff.mpr (by decide +kernel)⟩
  have hkept : btwService.Accounted btwSettings spaceTrigger := behind_iff.mpr (by decide +kernel)
  have hback := hhook btwEvents btwConfig btwConfig {} {} spaceBar backspaceKey undo btwHook rfl
    htyped nofun hundo (takesUndo_oneMacro _ _)
  have htaken := hservice btwServiceEvents btwSettings btwSettings spaceTrigger armed false
    btwService rfl (by decide +kernel) harmed (by decide +kernel)
  exact ⟨(hback.mpr haccounted).before, (htaken.mpr hkept).before⟩

/-- The macro `.btw`. -/
def dotConfig : HookEngine.Config := oneMacro (L '.' :: btwText) [L 'x']

def dotEvents : List HookEngine.MacroEvent :=
  ({ vkCode := vkOemPeriod, macroChar := L '.' } :: btwKeys).map (.press dotConfig {})

def dotHook : HookEngine.MacroSession TypingEngine :=
  HookEngine.MacroSession.after (TypingEngine.new {}) {} dotEvents

/-- The macro `b`. -/
def revivedSettings : EngineController.MacroSettings := { config := oneMacro [L 'b'] [L 'x'] }

/-- The word `an` before the caret is composed again with the letter H, which is not tracked; B
is. -/
def revivedEvents : List (EngineController.MacroEvent TypingEngine) :=
  .edit ([L 'a', L 'n', L 'h'].foldl (fun engine ch => InputEngine.pushKey engine ch false)
      (TypingEngine.new {})) { before := [L 'a', L 'n', L 'h'] } (some 3) false ::
    typeTracked revivedSettings [] [L 'a', L 'n', L 'h'] (L 'b')

def revivedService : EngineController.MacroSession TypingEngine :=
  EngineController.MacroSession.after (TypingEngine.new {}) { before := [L 'a', L 'n'] }
    revivedEvents

/-- The full stop of `.btw` is not in the composition, which the hook counts: the undo leaves
`..btw`.  The text service replaces a whole composition by the macro of its last key: the undo
leaves `b` of `anhb`. -/
theorem not_macroUndo_exact :
    (¬∀ (events : List HookEngine.MacroEvent) (config config' : HookEngine.Config)
        (mode mode' : HookEngine.Mode) (key back : HookEngine.Key)
        (undo : HookEngine.MacroUndoState) (t : HookEngine.MacroSession TypingEngine),
      t = .after (TypingEngine.new {}) {} events → t.hook.TypedBehind config key →
        key.vkCode ≠ vkBack → (t.press config mode key).hook.macroUndo = some undo →
          back.TakesUndo config' →
            HookEngine.State.ShortcutBack (t.front config key)
              (t.hook.triggerPlan config key).shortcut key t.hook
              ((t.press config mode key).press config' mode' back).hook) ∧
    ¬∀ (events : List (EngineController.MacroEvent TypingEngine))
        (settings settings' : EngineController.MacroSettings) (trigger : EngineController.Trigger)
        (undo : EngineController.MacroUndoState) (expired : Bool)
        (t : EngineController.MacroSession TypingEngine),
      t = .after (TypingEngine.new {}) { before := [L 'a', L 'n'] } events →
        (t.controller.handleMacroTrigger settings trigger).2 ≠ .noMatch →
          (t.next (.trigger settings trigger)).controller.macroUndo = some undo →
            ((t.next (.trigger settings trigger)).controller.undoMacro settings' expired).2 = true →
              EngineController.MacroController.ShortcutBack (t.front settings trigger)
                (t.controller.triggerPlan settings trigger).shortcut t.controller
                ((t.next (.trigger settings trigger)).next
                  (.undo settings' expired)).controller := by
  constructor
  · intro h
    obtain ⟨undo, hundo⟩ :
        ∃ undo, (dotHook.press dotConfig {} spaceBar).hook.macroUndo = some undo :=
      Option.isSome_iff_exists.mp (by decide +kernel)
    have hback := h dotEvents dotConfig dotConfig {} {} spaceBar backspaceKey undo dotHook rfl
      (Or.inr typesUnit_spaceBar) nofun hundo (takesUndo_oneMacro _ _)
    have hleft : ((dotHook.press dotConfig {} spaceBar).press dotConfig {}
        backspaceKey).hook.host.before ≠
          dotHook.front dotConfig spaceBar ++
            (dotHook.hook.triggerPlan dotConfig spaceBar).shortcut := by
      decide +kernel
    exact hleft hback.before
  · intro h
    obtain ⟨undo, hundo⟩ : ∃ undo,
        (revivedService.next (.trigger revivedSettings spaceTrigger)).controller.macroUndo =
          some undo :=
      Option.isSome_iff_exists.mp (by decide +kernel)
    have hback := h revivedEvents revivedSettings revivedSettings spaceTrigger undo false
      revivedService rfl (by decide +kernel) hundo (by decide +kernel)
    have hleft : ((revivedService.next (.trigger revivedSettings spaceTrigger)).next
        (.undo revivedSettings false)).controller.document.before ≠
          revivedService.front revivedSettings spaceTrigger ++
            (revivedService.controller.triggerPlan revivedSettings spaceTrigger).shortcut := by
      decide +kernel
    exact hleft hback.before

end VKey
