import VKey.Output.ClipboardInjector

/-!
# When the clipboard is given back

The restore is skipped if the sequence number has moved since it was sampled.  So the text that is
given back has to be the last one of another program as long as the number has not moved; this is
kept by a call whose saved text is not outdated when its own text is put on the clipboard, and whose
sample is not of a later write.
-/

namespace VKey.Output

namespace ClipboardState

variable {s : ClipboardState} {call : PasteCall} {texts : List (List Char16)} {text : List Char16}

/-! ## Other programs -/

theorem clipText_foreignWrites (s : ClipboardState) (texts : List (List Char16)) :
    (s.foreignWrites texts).clipText = texts.getLast?.getD s.clipText := by
  induction texts generalizing s with
  | nil => rfl
  | cons text rest ih =>
      rw [foreignWrites, List.foldl_cons]
      refine (ih (s.foreignWrite text)).trans ?_
      cases rest with
      | nil => rfl
      | cons other rest =>
            rw [List.getLast?_cons_cons, List.getLast?_cons, Option.getD_some, Option.getD_some]

theorem foreignWrites_variables (s : ClipboardState) (texts : List (List Char16)) :
    (s.foreignWrites texts).originalClipText = s.originalClipText ∧
      (s.foreignWrites texts).hasOriginalClip = s.hasOriginalClip ∧
      (s.foreignWrites texts).restoreTimerId = s.restoreTimerId ∧
      (s.foreignWrites texts).lastWrittenSeq = s.lastWrittenSeq := by
  induction texts generalizing s with
  | nil => exact ⟨rfl, rfl, rfl, rfl⟩
  | cons text rest ih => exact ih (s.foreignWrite text)

@[simp] theorem hasOriginalClip_foreignWrites :
    (s.foreignWrites texts).hasOriginalClip = s.hasOriginalClip :=
    (s.foreignWrites_variables texts).2.1

@[simp] theorem lastWrittenSeq_foreignWrites :
    (s.foreignWrites texts).lastWrittenSeq = s.lastWrittenSeq :=
    (s.foreignWrites_variables texts).2.2.2

theorem le_sequenceNumber_foreignWrites (s : ClipboardState) (texts : List (List Char16)) :
    s.sequenceNumber ≤ (s.foreignWrites texts).sequenceNumber := by
  induction texts generalizing s with
  | nil => exact Nat.le_refl _
  | cons text rest ih => exact (Nat.le_succ s.sequenceNumber).trans (ih (s.foreignWrite text))

theorem clipText_eq_foreignWrites (h : s.clipText = s.foreignText) (texts : List (List Char16)) :
    (s.foreignWrites texts).clipText = (s.foreignWrites texts).foreignText := by
  induction texts generalizing s with
  | nil => exact h
  | cons text rest ih => exact ih (s := s.foreignWrite text) rfl

/-! ## What is given back -/

/-- As long as the sequence number has not moved, the saved text is the last one of another program;
else that text is on the clipboard. -/
structure Returnable (s : ClipboardState) : Prop where
  le : s.lastWrittenSeq ≤ s.sequenceNumber
  moved : s.sequenceNumber ≠ s.lastWrittenSeq → s.clipText = s.foreignText
  unmoved : s.sequenceNumber = s.lastWrittenSeq →
    s.hasOriginalClip = true ∧ s.originalClipText = s.foreignText

theorem Returnable.foreignWrites (h : s.Returnable) (texts : List (List Char16)) :
    (s.foreignWrites texts).Returnable := by
  induction texts generalizing s with
  | nil => exact h
  | cons text rest ih =>
      refine ih (s := s.foreignWrite text) ⟨h.le.trans (Nat.le_succ _), fun _ => rfl, fun heq => ?_⟩
      have hle := h.le
      simp only [foreignWrite] at heq
      omega

theorem Returnable.clipText_eq (h : s.Returnable) (hsaved : s.hasOriginalClip = false) :
    s.clipText = s.foreignText :=
  h.moved fun heq => absurd (hsaved.symm.trans (h.unmoved heq).1) Bool.false_ne_true

theorem Returnable.forgetOriginal (h : s.Returnable)
    (hmoved : s.sequenceNumber ≠ s.lastWrittenSeq) :
    s.forgetOriginal.Returnable :=
  ⟨h.le, h.moved, fun heq => absurd heq hmoved⟩

/-- The restore leaves the last text of another program on the clipboard. -/
theorem Returnable.restored (h : s.Returnable) (beforeOpen : List (List Char16)) :
    (s.restoreOriginalClipboardIfSeqMatches beforeOpen
      s.lastWrittenSeq).forgetOriginal.Returnable := by
  have hwrites := h.foreignWrites beforeOpen
  rw [restoreOriginalClipboardIfSeqMatches]
  by_cases hmoved : s.sequenceNumber ≠ s.lastWrittenSeq
  · rw [if_pos hmoved]
    exact h.forgetOriginal hmoved
  rw [if_neg hmoved]
  dsimp only
  by_cases hopened : (s.foreignWrites beforeOpen).sequenceNumber ≠ s.lastWrittenSeq
  · rw [if_pos hopened]
    exact hwrites.forgetOriginal (by rwa [lastWrittenSeq_foreignWrites])
  rw [if_neg hopened]
  have hunmoved := not_not.mp hopened
  rw [← (s.foreignWrites_variables beforeOpen).2.2.2] at hunmoved
  obtain ⟨-, horiginal⟩ := hwrites.unmoved hunmoved
  have hlt := hwrites.le
  by_cases hempty : (s.foreignWrites beforeOpen).emptyClipboard.originalClipText.isEmpty = true
  · rw [if_pos hempty]
    have hnil : (s.foreignWrites beforeOpen).originalClipText = [] := List.isEmpty_iff.mp hempty
    refine ⟨hlt.trans (Nat.le_succ _), fun _ => hnil.symm.trans horiginal, fun heq => ?_⟩
    simp only [ClipboardState.forgetOriginal, emptyClipboard] at heq
    omega
  · rw [if_neg hempty]
    refine ⟨hlt.trans (Nat.le_succ_of_le (Nat.le_succ _)), fun _ => horiginal, fun heq => ?_⟩
    simp only [ClipboardState.forgetOriginal, setClipboardText, emptyClipboard] at heq
    omega

/-! ## A call -/

/-- The text of another program that is on the clipboard when the text of the call is put there is
the one that was saved. -/
structure SavedUpToDate (s : ClipboardState) (call : PasteCall) : Prop where
  opened : (s.beginPaste call).savesOriginal = true →
    call.saveOpens = true ∨ ((s.beginPaste call).foreignWrites call.beforeSave).clipText = []
  unwritten : (s.beginPaste call).savesOriginal = false → call.beforeSave = []
  beforeWrite : call.beforeWrite = []

/-- What other programs write between the write of the call and Ctrl+V. -/
def PasteCall.behindWrite (call : PasteCall) : List (List Char16) :=
  (if call.writeOpens then call.beforeSample else []) ++ call.beforePaste

/-- The text of the call is put on the clipboard or was there, or another program writes behind the
write. -/
def Puts (s : ClipboardState) (call : PasteCall) : Prop :=
  call.behindWrite ≠ [] ∨
    if call.writeOpens then (call.allocates && call.setsData) = true
    else
      (((s.beginPaste call).saveOriginal call).foreignWrites call.beforeWrite).clipText = call.text

/-- Ctrl+V is sent while the clipboard has the text of the call, or one that another program put
there behind it. -/
def RightPaste (s : ClipboardState) (call : PasteCall) : Prop :=
  (s.atPaste call).clipText = call.text ∨ call.behindWrite.getLast? = some (s.atPaste call).clipText

theorem clipText_putText (s : ClipboardState) (call : PasteCall) :
    (s.putText call).clipText = if call.allocates && call.setsData then call.text else [] := by
  unfold putText
  dsimp only
  split_ifs <;> rfl

/-- A paste is right exactly if the text was put on the clipboard. -/
theorem rightPaste_iff (htext : call.text ≠ []) : s.RightPaste call ↔ s.Puts call := by
  have hclip : (s.atPaste call).clipText = call.behindWrite.getLast?.getD
      (if call.writeOpens then (if call.allocates && call.setsData then call.text else [])
      else (((s.beginPaste call).saveOriginal call).foreignWrites call.beforeWrite).clipText) := by
    rw [atPaste, clipText_foreignWrites, writeText, PasteCall.behindWrite, List.getLast?_append]
    cases call.writeOpens with
    | false => rw [if_neg Bool.false_ne_true, if_neg Bool.false_ne_true, if_neg Bool.false_ne_true,
        List.getLast?_nil, Option.or_none]
    | true =>
        rw [if_pos rfl, if_pos rfl, if_pos rfl]
        dsimp only
        rw [clipText_foreignWrites, clipText_putText]
        cases call.beforePaste.getLast? <;> rfl
  rw [RightPaste, Puts, hclip]
  rcases hlast : call.behindWrite.getLast? with _ | last
  · have hnil := List.getLast?_eq_none_iff.mp hlast
    rw [Option.getD_none, hnil]
    simp only [ne_eq, not_true_eq_false, false_or, reduceCtorEq, or_false]
    cases call.writeOpens <;> cases (call.allocates && call.setsData) <;> simp [htext.symm]
  · have hne : call.behindWrite ≠ [] := fun hnil => by simp [hnil] at hlast
    exact iff_of_true (Or.inr rfl) (Or.inl hne)

theorem Returnable.beginPaste (h : s.Returnable) (call : PasteCall) :
    (s.beginPaste call).Returnable :=
  Returnable.foreignWrites (s := { s with restoreTimerId := 0 })
    ⟨h.le, h.moved, h.unmoved⟩ call.beforeCheck

theorem Returnable.moved_of_saves (h : s.Returnable) (hsaves : s.savesOriginal = true) :
    s.sequenceNumber ≠ s.lastWrittenSeq := fun heq => by
  rw [savesOriginal, (h.unmoved heq).1, heq] at hsaves
  simp at hsaves

theorem hasOriginalClip_saveOriginal (s : ClipboardState) (call : PasteCall) :
    (s.saveOriginal call).hasOriginalClip = true := by
  rw [saveOriginal]
  cases hsaves : s.savesOriginal with
  | true => rfl
  | false =>
      rw [savesOriginal, Bool.or_eq_false_iff, Bool.not_eq_false'] at hsaves
      rw [if_neg Bool.false_ne_true, hasOriginalClip_foreignWrites]
      exact hsaves.1

theorem Returnable.saveOriginal (h : s.Returnable) (call : PasteCall) :
    (s.saveOriginal call).Returnable := by
  have hwrites := h.foreignWrites call.beforeSave
  rw [ClipboardState.saveOriginal]
  cases hsaves : s.savesOriginal with
  | false => exact hwrites
  | true =>
      have hmoved := h.moved_of_saves hsaves
      have hle := s.le_sequenceNumber_foreignWrites call.beforeSave
      have hlast := h.le
      rw [if_pos rfl]
      refine ⟨hwrites.le, hwrites.moved, fun heq => ?_⟩
      simp only [lastWrittenSeq_foreignWrites] at heq
      omega

/-- What was saved is the last text of another program. -/
theorem Returnable.originalClipText_eq (h : s.Returnable) (hsaved : s.SavedUpToDate call) :
    ((s.beginPaste call).saveOriginal call).originalClipText =
      ((s.beginPaste call).saveOriginal call).foreignText := by
  have hbegin := h.beginPaste call
  rw [ClipboardState.saveOriginal]
  cases hsaves : (s.beginPaste call).savesOriginal with
  | true =>
      have hclip := clipText_eq_foreignWrites (hbegin.moved (hbegin.moved_of_saves hsaves))
        call.beforeSave
      rw [if_pos rfl]
      rcases hsaved.opened hsaves with hopens | hempty
      · simp only [hopens, if_true]
        exact hclip
      · simp only [hempty, ite_self]
        exact hempty.symm.trans hclip
  | false =>
      rw [if_neg Bool.false_ne_true, hsaved.unwritten hsaves]
      rw [savesOriginal, Bool.or_eq_false_iff, bne_eq_false_iff_eq] at hsaves
      exact (hbegin.unmoved hsaves.2).2

theorem putText_variables (s : ClipboardState) (call : PasteCall) :
    (s.putText call).foreignText = s.foreignText ∧
      (s.putText call).originalClipText = s.originalClipText ∧
      (s.putText call).hasOriginalClip = s.hasOriginalClip := by
  unfold putText
  dsimp only
  split_ifs <;> exact ⟨rfl, rfl, rfl⟩

/-- A call in which no other program writes between the save and the write, or between the write and
the sample. -/
structure Undisturbed (s : ClipboardState) (call : PasteCall) : Prop where
  puts : s.Puts call
  saved : call.writeOpens = true → s.SavedUpToDate call
  sampled : call.writeOpens = true → call.beforeSample = []

theorem Returnable.atPaste (h : s.Returnable) (hcall : s.Undisturbed call) :
    (s.atPaste call).Returnable ∧ (s.atPaste call).hasOriginalClip = true := by
  have hsave := (h.beginPaste call).saveOriginal call
  have hhas := hasOriginalClip_saveOriginal (s.beginPaste call) call
  rw [ClipboardState.atPaste, writeText]
  cases hopens : call.writeOpens with
  | false =>
      rw [if_neg Bool.false_ne_true]
      refine ⟨(hsave.foreignWrites call.beforeWrite).foreignWrites call.beforePaste, ?_⟩
      rw [hasOriginalClip_foreignWrites, hasOriginalClip_foreignWrites, hhas]
  | true =>
      have hsaved := hcall.saved hopens
      obtain ⟨hforeign, horiginal, hput⟩ :=
        putText_variables ((s.beginPaste call).saveOriginal call) call
      rw [if_pos rfl, hcall.sampled hopens, hsaved.beforeWrite]
      refine ⟨Returnable.foreignWrites
        ⟨Nat.le_refl _, fun hmoved => absurd rfl hmoved, fun _ => ?_⟩ _, ?_⟩
      · exact ⟨hput.trans hhas,
          (horiginal.trans (h.originalClipText_eq hsaved)).trans hforeign.symm⟩
      · rw [hasOriginalClip_foreignWrites]
        exact hput.trans hhas

/-! ## Runs -/

/-- A restore is pending exactly as long as a text is saved. -/
structure Quiet (s : ClipboardState) : Prop where
  returnable : s.Returnable
  pending : s.restoreTimerId = 0 → s.hasOriginalClip = false

theorem quiet_initial (text : List Char16) (changes : Nat) : (initial text changes).Quiet :=
  ⟨⟨Nat.zero_le _, fun _ => rfl, fun heq => absurd heq (Nat.succ_ne_zero changes)⟩, fun _ => rfl⟩

theorem Quiet.restoreTimerProc (h : s.Quiet) (idEvent : Nat) (beforeOpen : List (List Char16)) :
    (s.restoreTimerProc idEvent beforeOpen).Quiet := by
  rw [ClipboardState.restoreTimerProc]
  by_cases hid : idEvent ≠ s.restoreTimerId
  · rw [if_pos hid]
    exact h
  rw [if_neg hid]
  have hkilled : Returnable { s with restoreTimerId := 0 } :=
    ⟨h.returnable.le, h.returnable.moved, h.returnable.unmoved⟩
  dsimp only
  by_cases hhas : (!s.hasOriginalClip) = true
  · rw [if_pos hhas]
    exact ⟨hkilled, fun _ => (Bool.not_eq_true' _).mp hhas⟩
  · rw [if_neg hhas]
    exact ⟨hkilled.restored beforeOpen, fun _ => rfl⟩

theorem Returnable.scheduleRestore (h : s.Returnable) (hhas : s.hasOriginalClip = true) :
    (s.scheduleRestore call).Quiet := by
  have hset : Returnable { s with restoreTimerId := call.timerId } := ⟨h.le, h.moved, h.unmoved⟩
  rw [ClipboardState.scheduleRestore]
  by_cases htimer : call.timerId = 0 ∧ s.hasOriginalClip = true
  · rw [if_pos htimer]
    exact ⟨hset.restored call.beforeRestore, fun _ => rfl⟩
  · rw [if_neg htimer]
    exact ⟨hset, fun hzero => absurd ⟨hzero, hhas⟩ htimer⟩

theorem Quiet.replace (h : s.Quiet) (hcall : call.text ≠ [] → s.Undisturbed call) :
    (s.replace call).Quiet := by
  rw [ClipboardState.replace]
  split_ifs with hempty
  · exact h
  · obtain ⟨hreturnable, hhas⟩ :=
      h.returnable.atPaste (hcall fun htext => hempty (List.isEmpty_iff.mpr htext))
    exact (hreturnable.foreignWrites call.beforeTimer).scheduleRestore
      (hasOriginalClip_foreignWrites.trans hhas)

/-- Ctrl+V is sent for the right text, and the clipboard is given back if no restore is pending. -/
structure Lawful (s : ClipboardState) (event : Event) : Prop where
  paste : ∀ call, event = .replace call → call.text ≠ [] → s.RightPaste call
  givenBack :
    (s.next event).restoreTimerId = 0 → (s.next event).clipText = (s.next event).foreignText

def UndisturbedStep (s : ClipboardState) (event : Event) : Prop :=
  ∀ call, event = .replace call → call.text ≠ [] → s.Undisturbed call

theorem Quiet.next (h : s.Quiet) {event : Event} (hevent : s.UndisturbedStep event) :
    (s.next event).Quiet := by
  cases event with
  | replace call => exact h.replace (hevent call rfl)
  | timer idEvent beforeOpen => exact h.restoreTimerProc idEvent beforeOpen
  | foreign text => exact ⟨h.returnable.foreignWrites [text], h.pending⟩

/-- In a run of undisturbed calls every text is pasted and the clipboard is given back. -/
theorem lawful_run (text : List Char16) (changes : Nat) (events : List Event)
    (h : EachStep next UndisturbedStep (initial text changes) events) :
    EachStep next Lawful (initial text changes) events :=
  h.imp Quiet
    (fun _ _ hquiet hevent =>
      ⟨fun call hcall htext => (rightPaste_iff htext).mpr (hevent call hcall htext).puts,
        fun htimer =>
          (hquiet.next hevent).returnable.clipText_eq ((hquiet.next hevent).pending htimer)⟩)
    (fun _ _ hquiet hevent => hquiet.next hevent) (quiet_initial text changes)

/-- A call that nothing disturbs, and the timer behind it. -/
def pasteAndRestore : List Event := [.replace { text := [0x78] }, .timer 1 []]

theorem lawful_run_pasteAndRestore :
    EachStep next UndisturbedStep (initial [0x61] 0) pasteAndRestore ∧
      EachStep next Lawful (initial [0x61] 0) pasteAndRestore := by
  have hundisturbed : EachStep next UndisturbedStep (initial [0x61] 0) pasteAndRestore := by
    refine And.intro (fun call hcall _ => ?_) (And.intro (fun call hcall => nomatch hcall) trivial)
    obtain rfl := (Event.replace.inj hcall).symm
    exact ⟨Or.inr ((if_pos rfl).mpr rfl), fun _ =>
      ⟨fun _ => Or.inl rfl, fun _ => rfl, rfl⟩, fun _ => rfl⟩
  exact ⟨hundisturbed, lawful_run [0x61] 0 pasteAndRestore hundisturbed⟩

/-- The clipboard cannot be opened for the write, and its old text is pasted; another program writes
before the sequence number is sampled, and the text that it has put there is lost. -/
theorem not_lawful_run :
    ¬EachStep next Lawful (initial [0x61] 0) [.replace { text := [0x78], writeOpens := false }] ∧
      ¬EachStep next Lawful (initial [0x61] 0)
        [.replace { text := [0x78], beforeSample := [[0x62]] }, .timer 1 []] := by
  refine ⟨fun h => ?_, fun h => ?_⟩
  · have hpaste := h.1.paste _ rfl (by decide)
    rw [RightPaste] at hpaste
    revert hpaste
    decide
  · exact absurd (h.2.1.givenBack rfl) (by decide)

end ClipboardState

end VKey.Output
