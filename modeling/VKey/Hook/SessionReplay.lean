import VKey.Hook.SessionStep

/-!
# Bringing a word back

A word whose gap has been counted stands at the caret when it is brought back, and it is the word of
the engine from then on.  With this, every key of a session keeps the hook in step with the screen.
-/

namespace VKey

namespace HookEngine

namespace State

variable {E : Type} [InputEngine E] {config : Config} {s b r s' : State E} {pre front : List WChar}
  {key : Key} {entry : CommitEntry} {rest : List CommitEntry}

/-! ## The word that has been brought back -/

/-- What popping a committed word does. -/
inductive Replayed (entry : CommitEntry) (rest : List CommitEntry) (b : State E) :
    State E × Bool → Prop
  /-- The engine cannot show the word. -/
  | failed (r : State E) (hcount : r.count = 0) (hstate : r.commitState.state = .idle)
      (hstack : r.commitState.stack = rest) (hhost : r.host = b.host)
      (hprevious : r.previousComposition = b.previousComposition)
      (hwidths : r.previousEncodedWidths = b.previousEncodedWidths) :
      Replayed entry rest b (r, false)
  /-- The engine shows the word. -/
  | shown (r : State E) (hstate : r.commitState.state = .idle) (hstack : r.commitState.stack = rest)
      (hleading : r.commitState.leadingTriggersForCurrentWord = entry.extraLeadingTriggers)
      (hhost : r.host = b.host) (hpeek : InputEngine.peek r.engine = entry.text)
      (hprevious : r.previousComposition = entry.text)
      (hwidths : r.previousEncodedWidths = entry.widths) : Replayed entry rest b (r, true)

theorem replayed_replayCommittedChars (hstack : b.commitState.stack = entry :: rest)
    (preference : CommittedTextRestorePreference) :
    Replayed entry rest b (b.replayCommittedChars preference) := by
  unfold replayCommittedChars
  rw [hstack]
  dsimp only
  by_cases hfailed :
      (restoreCommittedText b.engine entry.text (replayHistory entry.history) preference).1 =
        .failed
  · rw [if_pos hfailed]
    exact .failed _ (count_restoreCommittedText hfailed) rfl rfl rfl rfl rfl
  · rw [if_neg hfailed]
    exact .shown _ rfl rfl rfl rfl (peek_restoreCommittedText hfailed) rfl rfl

/-- A word at the caret is the word of the engine again. -/
structure Revived (config : Config) (front : List WChar) (r : State E) : Prop where
  shows : r.Shows config front
  previous : r.previousComposition = InputEngine.peek r.engine
  idle : r.commitState.state = .idle
  entries : EntriesFit config r.commitState.stack
  layout : LaidOut front (segments config r.commitState.stack)
    (1 + r.commitState.leadingTriggersForCurrentWord)

theorem Revived.word (h : r.Revived config front) : r.Word config front := h.shows.word h.previous

section Keys

variable [WideCType]

theorem Revived.follows (h : r.Revived config front) (hprimed : s.commitState.state = .primed)
    (hword : s'.Word config front) (hundo : SameUndo r.commitState s'.commitState) :
    Follows config key front s s' := by
  have hstate : s'.commitState.state = .idle := hundo.state.trans h.idle
  have hentries : EntriesFit config s'.commitState.stack := hundo.stack ▸ h.entries
  by_cases hcount : s'.count = 0
  · exact .of_lost hword.widths hcount hentries
      (losesGap_idle hcount hstate (Or.inr (Or.inr hprimed)))
  · refine .of_word hword hcount (by rw [hstate]; nofun) hentries fun _ => ?_
    rw [hundo.stack, hundo.leading]
    exact h.layout

/-- Backspace takes the last letter of a word that has been brought back. -/
theorem Revived.handleBackspace (h : r.Revived config front)
    (hprimed : s.commitState.state = .primed) :
    Follows config key front s (r.handleBackspace config) := by
  have hword : (r.handleBackspace config).Word config front :=
    Shows.showShortened ⟨h.shows.before, h.shows.widths⟩
  by_cases hcount : (r.handleBackspace config).count = 0
  · have hundo := undo_handleBackspace.2 hcount
    by_cases hstack : r.commitState.stack = []
    · exact .of_empty hword.widths hcount (hundo.stack.trans hstack)
    · refine .of_laidOut hword.widths hcount (hundo.stack ▸ h.entries) ?_
      rw [hword.empty hcount, gap_of_count hcount, hundo.state hstack, hundo.pending hstack,
        hundo.stack]
      exact h.layout
  · exact h.follows hprimed hword (undo_handleBackspace.1 hcount)

/-! ## A key right behind the word -/

omit [WideCType] in
/-- A word whose gap has been counted stands at the caret when it is brought back. -/
theorem Begins.revived (hbegins : Begins key s b) (h : Session.InStep config ⟨s, pre⟩)
    (hstate : b.commitState.state = .primed) (hzero : b.count = 0)
    (hstack : b.commitState.stack = entry :: rest) (hanchored : entry.anchored = true) :
    ∃ front, s.host.before = front ++ onScreen config entry.text ∧
      ∀ r, Replayed entry rest b (r, true) → r.Revived config front := by
  have hb := hbegins.inStep h
  have hlayout := hb.layout
  have hgap : b.gap = 0 := by rw [gap_of_count hzero, hstate]
  dsimp only at hlayout
  rw [hstack, segments_cons hanchored, hgap] at hlayout
  obtain ⟨front, hpre, hrest⟩ := hlayout.pop
  have hbefore : b.host.before = front ++ onScreen config entry.text :=
    (hb.word.empty hzero).trans hpre
  refine ⟨front, by rw [← hbegins.text.host]; exact hbefore, ?_⟩
  rintro _ (_ | ⟨r, hidle, hstack', hleading, hhost, hpeek, hprevious, hwidths⟩)
  have hentries := hb.entries
  dsimp only at hentries
  rw [hstack] at hentries
  constructor
  · refine ⟨?_, fun htable => ?_⟩
    · rw [hhost, hprevious]
      exact hbefore
    · rw [hwidths, hprevious]
      exact hentries htable entry List.mem_cons_self
  · exact hprevious.trans hpeek.symm
  · exact hidle
  · rw [hstack']
    exact hentries.of_subset (List.subset_cons_self _ _)
  · rw [hstack', hleading]
    exact hrest

/-- The word could not be brought back. -/
structure Unrevived (b r : State E) : Prop where
  count : r.count = 0
  idle : r.commitState.state = .idle
  stack : r.commitState.stack ⊆ b.commitState.stack
  previous : r.previousComposition = b.previousComposition
  widths : r.previousEncodedWidths = b.previousEncodedWidths

omit [WideCType] in
theorem unrevived_of_replayCommittedChars (hzero : b.count = 0)
    {preference : CommittedTextRestorePreference}
    (h : b.replayCommittedChars preference = (r, false)) : Unrevived b r := by
  cases hstack : b.commitState.stack with
  | nil =>
      rw [replayCommittedChars, hstack, Prod.mk.injEq] at h
      obtain ⟨rfl, -⟩ := h
      exact ⟨hzero, rfl, fun _ hmem => hmem, rfl, rfl⟩
  | cons entry rest =>
      have hreplayed := replayed_replayCommittedChars hstack preference
      rw [h] at hreplayed
      cases hreplayed with
      | failed _ hcount hstate hstack' hhost hprevious hwidths =>
          refine ⟨hcount, hstate, ?_, hprevious, hwidths⟩
          rw [hstack, hstack']
          exact List.subset_cons_self _ _

omit [WideCType] in
theorem Unrevived.of_idle (h : Unrevived b r) :
    Unrevived b { r with commitState := { r.commitState with state := .idle } } :=
  ⟨h.count, rfl, h.stack, h.previous, h.widths⟩

theorem Begins.follows_unrevived (hbegins : Begins key s b) (h : Session.InStep config ⟨s, pre⟩)
    (hprimed : s.commitState.state = .primed) (hr : Unrevived b r) (host : CaretText WChar) :
    Follows config key front s { r with host } := by
  have hb := hbegins.inStep h
  refine .of_lost (fun htable => ?_) hr.count (hb.entries.of_subset hr.stack)
    (losesGap_idle hr.count hr.idle (Or.inr (Or.inr hprimed)))
  rw [hr.widths, hr.previous]
  exact hb.word.widths htable

/-- The front of the text, if a word is brought back, and the text before the word otherwise. -/
def frontOf (config : Config) (s : State E) (pre : List WChar) : Option CommitEntry → List WChar
  | some entry => s.host.before.rdrop (onScreen config entry.text).length
  | none => pre

omit [WideCType] in
/-- The word that is brought back, or nothing. -/
theorem Begins.replay (hbegins : Begins key s b) (h : Session.InStep config ⟨s, pre⟩)
    (hstate : b.commitState.state = .primed) (hzero : b.count = 0)
    (hanchored : ∀ entry, b.commitState.stack.head? = some entry → entry.anchored = true)
    (preference : CommittedTextRestorePreference) :
    (∃ r, b.replayCommittedChars preference = (r, false) ∧ Unrevived b r) ∨
    ∃ r, b.replayCommittedChars preference = (r, true) ∧
      r.Revived config (frontOf config s pre b.commitState.stack.head?) := by
  rcases hreplay : b.replayCommittedChars preference with ⟨r, _ | _⟩
  · exact Or.inl ⟨r, rfl, unrevived_of_replayCommittedChars hzero hreplay⟩
  · refine Or.inr ⟨r, rfl, ?_⟩
    cases hstack : b.commitState.stack with
    | nil =>
        rw [replayCommittedChars, hstack] at hreplay
        cases hreplay
    | cons entry rest =>
        obtain ⟨front, hfront, hrevived⟩ :=
          hbegins.revived h hstate hzero hstack (hanchored entry (by rw [hstack]; rfl))
        have hreplayed := replayed_replayCommittedChars hstack preference
        rw [hreplay] at hreplayed
        rw [List.head?_cons, frontOf, hfront, CaretText.rdrop_append_length]
        exact hrevived r hreplayed

theorem replayedAt_of_other {action : PrimedAction} (haction : b.primedAction config key = action)
    (halpha : action ≠ .replayAlpha) (hdigit : action ≠ .replayDigit)
    (hback : action ≠ .replayBackspace) : b.replayedAt config key = none := by
  unfold replayedAt
  rw [haction]
  cases action with
  | replayAlpha => exact absurd rfl halpha
  | replayDigit => exact absurd rfl hdigit
  | replayBackspace => exact absurd rfl hback
  | dropTop | exempt | trigger => exact ite_self _

theorem replayedAt_of_replay {action : PrimedAction} (hstate : b.commitState.state = .primed)
    (hzero : b.count = 0) (haction : b.primedAction config key = action)
    (hreplays : action = .replayAlpha ∨ action = .replayDigit ∨ action = .replayBackspace) :
    b.replayedAt config key = b.commitState.stack.head? := by
  unfold replayedAt
  rw [if_pos ⟨hstate, hzero⟩, haction]
  rcases hreplays with rfl | rfl | rfl <;> rfl

theorem isAlphaVk_of_replayAlpha (haction : b.primedAction config key = .replayAlpha) :
    isAlphaVk key.vkCode = true := by
  by_contra halpha
  unfold primedAction at haction
  dsimp only at haction
  rw [if_neg halpha] at haction
  split_ifs at haction

theorem isDigitVk_of_replayDigit (haction : b.primedAction config key = .replayDigit) :
    isDigitVk key.vkCode = true := by
  by_contra hdigit
  unfold primedAction at haction
  dsimp only at haction
  split_ifs at haction
  simp_all

theorem vkCode_of_replayBackspace (haction : b.primedAction config key = .replayBackspace) :
    key.vkCode = vkBack := by
  by_contra hback
  unfold primedAction at haction
  dsimp only at haction
  rw [if_neg hback] at haction
  split_ifs at haction

theorem outcome_handleAlphaKey (key : Key) (s : State E) :
    (s.handleAlphaKey config key).2 ≠ .fallthrough := by
  unfold State.handleAlphaKey
  dsimp only
  split_ifs <;> nofun

omit [InputEngine E] [WideCType] in
theorem of_reEnterReady {isTrigger : Bool} {ch : WChar}
    (h : decidePrimedTriggerAction isTrigger ch = .reEnterReady) :
    isTrigger = true ∧ ch = L ' ' := by
  cases isTrigger with
  | false => cases h
  | true =>
      refine ⟨rfl, ?_⟩
      by_contra hch
      rw [decidePrimedTriggerAction, if_neg (by decide), if_neg hch] at h
      split_ifs at h

/-- Right behind a primed word only the space bar opens the undo window again. -/
theorem vkCode_of_reEnterReady (haction : b.primedAction config key = .trigger .reEnterReady) :
    key.vkCode = vkSpace := by
  unfold primedAction at haction
  dsimp only at haction
  by_contra hspace
  rw [if_neg hspace] at haction
  split_ifs at haction with _ _ _ _ _ htrigger
  · obtain ⟨-, hch⟩ := of_reEnterReady (PrimedAction.trigger.inj haction)
    exact hspace (key.space_iff.mp hch)
  · obtain ⟨hyes, -⟩ := of_reEnterReady (PrimedAction.trigger.inj haction)
    exact htrigger hyes

/-! ## The stages -/

section Stages

variable [AsciiCType] [WordBreaks]

/-- What commit-undo leaves of a key goes on to the late stages. -/
def continueStages (config : Config) (key : Key) (undoStage : State E × KeyOutcome) :
    State E × KeyOutcome :=
  if undoStage.2 ≠ .fallthrough then undoStage else undoStage.1.lateStages config key

@[simp] theorem continueStages_pass (s : State E) :
    continueStages config key (s, .pass) = (s, .pass) := rfl

@[simp] theorem continueStages_eat (s : State E) :
    continueStages config key (s, .eat) = (s, .eat) := rfl

@[simp] theorem continueStages_fallthrough (s : State E) :
    continueStages config key (s, .fallthrough) = s.lateStages config key := rfl

theorem processKeyDown_eq (hguarded : isTopGuarded key.vkCode = false) (s : State E) :
    s.processKeyDown config key =
      continueStages config key ((s.beforeStages config key).handleCommitUndoFsm config key) := by
  rw [processKeyDown, if_neg (by simp [hguarded])]
  rfl

omit [AsciiCType] [WordBreaks] in
/-- A key right behind a primed word does not fall into the gap. -/
theorem fallthrough_handlePrimed (config : Config) (key : Key)
    (hstate : b.commitState.state = .primed) :
    (b.handlePrimed config key).2 = .fallthrough →
      (b.handlePrimed config key).1.commitState.state ≠ .ready := by
  unfold State.handlePrimed
  cases b.primedAction config key with
  | replayAlpha =>
      dsimp only
      split_ifs
      · exact fun hfall => absurd hfall (outcome_handleAlphaKey key _)
      · exact nofun
  | replayDigit =>
      dsimp only
      split_ifs <;> exact nofun
  | replayBackspace =>
      dsimp only
      split_ifs <;> exact nofun
  | dropTop => exact fun _ => nofun
  | exempt => exact fun _ => by rw [hstate]; nofun
  | trigger action =>
      cases action with
      | cancel => exact fun _ => nofun
      | idle => exact fun _ => nofun
      | reEnterReady =>
          dsimp only
          unfold passOrReplace
          split_ifs <;> exact nofun

/-- What follows a key right behind a primed word.  The key deletes nothing before a word that is
brought back. -/
theorem Begins.handlePrimed (hbegins : Begins key s b) (h : Session.InStep config ⟨s, pre⟩)
    (hoff : config.macroEnabled = false) (hstate : b.commitState.state = .primed)
    (hzero : b.count = 0) (hreplayed : s.replayedEntry config key = b.replayedAt config key)
    (hanchored : ∀ entry, b.replayedAt config key = some entry → entry.anchored = true)
    (hclean : s.count = 0 → startsWithPunctuation config key = true → s.previousComposition = []) :
    Follows config key (frontOf config s pre (b.replayedAt config key)) s
      (deliver key (continueStages config key (b.handlePrimed config key))) ∧
    (b.replayedAt config key ≠ none → (b.replayCommittedChars (replayPreference key)).2 = true →
      frontOf config s pre (b.replayedAt config key) <+:
        (deliver key (continueStages config key (b.handlePrimed config key))).host.before) := by
  obtain ⟨hshortcut, hsame⟩ := hbegins.active (by simp [hstate])
  have hprimed : s.commitState.state = .primed := hsame.state.symm.trans hstate
  have hnone : b.replayedAt config key = none → s.replayedEntry config key = none := hreplayed.trans
  unfold State.handlePrimed
  cases haction : b.primedAction config key with
  | replayAlpha =>
      rw [replayedAt_of_replay hstate hzero haction (Or.inl rfl)] at hanchored ⊢
      have halpha := isAlphaVk_of_replayAlpha haction
      have hpreference : replayPreference key = .replayHistory := by
        rw [replayPreference, if_neg]
        intro hback
        exact absurd (hback ▸ halpha) (by decide)
      dsimp only
      rcases hbegins.replay h hstate hzero hanchored .replayHistory with
        ⟨r, hreplay, hr⟩ | ⟨r, hreplay, hr⟩
      · rw [hpreference, hreplay, if_neg Bool.false_ne_true, continueStages_pass, deliver_pass]
        exact ⟨hbegins.follows_unrevived h hprimed hr _, fun _ hshown =>
          absurd hshown Bool.false_ne_true⟩
      · rw [hreplay, if_pos rfl, continueStages, if_pos (outcome_handleAlphaKey key r)]
        have hword := hr.word.handleAlphaKey halpha hshortcut
        exact ⟨hr.follows hprimed hword (sameUndo_handleAlphaKey key), fun _ _ =>
          hword.prefix_before⟩
  | replayDigit =>
      rw [replayedAt_of_replay hstate hzero haction (Or.inr (Or.inl rfl))] at hanchored ⊢
      have hdigit := isDigitVk_of_replayDigit haction
      have hpreference : replayPreference key = .replayHistory := by
        rw [replayPreference, if_neg]
        intro hback
        exact absurd (hback ▸ hdigit) (by decide)
      dsimp only
      rcases hbegins.replay h hstate hzero hanchored .replayHistory with
        ⟨r, hreplay, hr⟩ | ⟨r, hreplay, hr⟩
      · rw [hpreference, hreplay, if_pos (by rfl), continueStages_pass, deliver_pass]
        exact ⟨hbegins.follows_unrevived h hprimed (hr.of_idle) _, fun _ hshown =>
          absurd hshown Bool.false_ne_true⟩
      · rw [hreplay]
        by_cases hcount : r.count = 0
        · rw [if_pos (by simp [hcount]), continueStages_pass, deliver_pass]
          refine ⟨.of_lost hr.word.widths hcount hr.entries
            (losesGap_idle hcount rfl (Or.inr (Or.inr hprimed))), fun _ _ => ?_⟩
          rw [injectKey, Key.press_of_typesCharacter hshortcut (by simp [typesCharacter, hdigit])]
          exact hr.word.prefix_before.trans (List.prefix_append _ _)
        · rw [if_neg (by simp [hcount]), continueStages_eat, deliver_eat]
          have hword := hr.word.handleVniDigitKey hcount key
          exact ⟨hr.follows hprimed hword (sameUndo_handleVniDigitKey key),
            fun _ _ => hword.prefix_before⟩
  | replayBackspace =>
      rw [replayedAt_of_replay hstate hzero haction (Or.inr (Or.inr rfl))] at hanchored ⊢
      have hpreference : replayPreference key = .visibleText :=
        if_pos (vkCode_of_replayBackspace haction)
      dsimp only
      rcases hbegins.replay h hstate hzero hanchored .visibleText with
        ⟨r, hreplay, hr⟩ | ⟨r, hreplay, hr⟩
      · rw [hpreference, hreplay, if_neg Bool.false_ne_true, continueStages_pass, deliver_pass]
        exact ⟨hbegins.follows_unrevived h hprimed hr _, fun _ hshown =>
          absurd hshown Bool.false_ne_true⟩
      · rw [hreplay, if_pos rfl, continueStages_eat, deliver_eat]
        have hword : (r.handleBackspace config).Word config
            (frontOf config s pre b.commitState.stack.head?) :=
          Shows.showShortened ⟨hr.shows.before, hr.shows.widths⟩
        exact ⟨hr.handleBackspace hprimed, fun _ _ => hword.prefix_before⟩
  | dropTop =>
      have hother := replayedAt_of_other haction (by simp) (by simp) (by simp)
      rw [hother]
      exact ⟨(hbegins.enters_idle h hstate hzero (List.tail_subset _)).lateStages h.word hoff
        hbegins.macroUndo (hnone hother) hclean, fun hsome => absurd rfl hsome⟩
  | exempt =>
      have hother := replayedAt_of_other haction (by simp) (by simp) (by simp)
      rw [hother]
      have hactive : b.commitState.state ≠ .ready := by simp [hstate]
      exact ⟨(hbegins.enters h hactive).lateStages h.word hoff hbegins.macroUndo
        (hnone hother) hclean, fun hsome => absurd rfl hsome⟩
  | trigger action =>
      have hother := replayedAt_of_other haction (by simp) (by simp) (by simp)
      rw [hother]
      refine ⟨?_, fun hsome => absurd rfl hsome⟩
      cases action with
      | cancel =>
          exact (hbegins.enters_cancel h).lateStages h.word hoff hbegins.macroUndo
            (hnone hother) hclean
      | idle =>
          exact (hbegins.enters_idle h hstate hzero (List.Subset.refl _)).lateStages h.word hoff
            hbegins.macroUndo (hnone hother) hclean
      | reEnterReady =>
          have hfollows := hbegins.reEnterReady h hstate (vkCode_of_reEnterReady haction) hzero
          have heaten : ∀ t : State E, (t.passOrReplace key 0 [L ' ']).2 ≠ .fallthrough := by
            intro t
            unfold passOrReplace
            split_ifs <;> simp
          dsimp only
          rw [continueStages, if_pos (heaten _)]
          exact hfollows

/-- A key that the state machine does not see. -/
theorem follows_guarded (h : Session.InStep config ⟨s, pre⟩)
    (hguarded : isTopGuarded key.vkCode = true) :
    Follows config key pre s (s.press config key) := by
  have hboundary : isReplayContextBoundary key.vkCode = false := by
    simp only [isTopGuarded, Bool.or_eq_true, decide_eq_true_eq, beq_iff_eq] at hguarded
    simp only [isReplayContextBoundary, vkReturn, vkTab, Bool.or_eq_false_iff,
      beq_eq_false_iff_ne]
    omega
  have hpress : ∃ macroUndo, s.press config key = { s with macroUndo } := by
    unfold press processKeyDown beforeStages
    dsimp only
    rw [if_pos hguarded, if_neg (by simp [hboundary]), deliver_pass, injectKey,
      Key.press_of_isTopGuarded hguarded]
    split_ifs
    · exact ⟨none, rfl⟩
    · exact ⟨s.macroUndo, rfl⟩
  obtain ⟨macroUndo, hpress⟩ := hpress
  rw [hpress]
  refine ⟨h.word.widths, fun _ =>
    ⟨h.word.shows, h.word.previous, h.word.empty, h.word.widths⟩, h.ready, h.entries, fun _ => ?_⟩
  have hbefore : (if s.count = 0 then s.host.before else pre) = pre := by
    split_ifs with hzero
    · exact h.word.empty hzero
    · rfl
  change LaidOut (if s.count = 0 then s.host.before else pre) _ s.gap
  rw [hbefore]
  exact h.layout

omit [AsciiCType] [WordBreaks] in
theorem handleCommitUndoFsm_primed (hstate : (s.beforeFsm key).commitState.state = .primed)
    (hzero : (s.beforeFsm key).count = 0) :
    s.handleCommitUndoFsm config key = (s.beforeFsm key).handlePrimed config key := by
  unfold handleCommitUndoFsm
  dsimp only
  rw [if_neg (by simp [hstate]), if_pos ⟨hstate, hzero⟩]
  have hready := fallthrough_handlePrimed config key hstate
  generalize (s.beforeFsm key).handlePrimed config key = r at hready
  by_cases hfall : r.2 = .fallthrough
  · rw [if_pos hfall, handleReadyGap, if_pos (hready hfall)]
  · rw [if_neg hfall]

/-- What follows a key.  It deletes nothing before a word that it brings back. -/
theorem follows_press (h : Session.InStep config ⟨s, pre⟩) (hoff : config.macroEnabled = false)
    (hanchored : ∀ entry, s.replayedEntry config key = some entry → entry.anchored = true)
    (hclean : s.count = 0 → startsWithPunctuation config key = true → s.previousComposition = []) :
    Follows config key (frontOf config s pre (s.replayedEntry config key)) s (s.press config key) ∧
    (s.replayedEntry config key ≠ none → s.isReplayShown config key = true →
      frontOf config s pre (s.replayedEntry config key) <+: (s.press config key).host.before) := by
  cases hguarded : isTopGuarded key.vkCode with
  | true =>
      rw [replayedEntry, if_pos hguarded]
      exact ⟨follows_guarded h hguarded, fun hsome => absurd rfl hsome⟩
  | false =>
      have hreplayed : s.replayedEntry config key =
          ((s.beforeStages config key).beforeFsm key).replayedAt config key :=
        if_neg (by simp [hguarded])
      have hbegins := begins hoff key s
      unfold press
      rw [processKeyDown_eq hguarded]
      by_cases hprimed : ((s.beforeStages config key).beforeFsm key).commitState.state = .primed ∧
          ((s.beforeStages config key).beforeFsm key).count = 0
      · obtain ⟨hfollows, hkept⟩ := hbegins.handlePrimed h hoff hprimed.1 hprimed.2 hreplayed
          (fun entry hentry => hanchored entry (hreplayed.trans hentry)) hclean
        rw [handleCommitUndoFsm_primed hprimed.1 hprimed.2, hreplayed]
        exact ⟨hfollows, hkept⟩
      have hnone : s.replayedEntry config key = none := by
        rw [hreplayed, replayedAt, if_neg hprimed]
      rw [hnone]
      refine ⟨?_, fun hsome => absurd rfl hsome⟩
      unfold handleCommitUndoFsm
      dsimp only
      generalize (s.beforeStages config key).beforeFsm key = b at hbegins hprimed
      split_ifs with hback
      · obtain ⟨hstate, hback, hzero⟩ := hback
        have heaten : (b.handleReadyBackspace key).2 ≠ .fallthrough := by
          unfold State.handleReadyBackspace passOrReplace
          split_ifs <;> nofun
        rw [continueStages, if_pos heaten]
        exact hbegins.handleReadyBackspace h hstate hback hzero
      · rw [continueStages_fallthrough]
        by_cases hstate : b.commitState.state = .ready
        · exact hbegins.handleReadyGap h hoff hstate hnone hclean
        · rw [handleReadyGap, if_pos hstate]
          exact (hbegins.enters h hstate).lateStages h.word hoff hbegins.macroUndo hnone hclean

end Stages

end Keys

end State

/-! ## The step of a session -/

namespace Session

variable {E : Type} [InputEngine E] [WideCType] {config : Config} {key : Key} {t : Session E}

theorem front_eq (key : Key) (t : Session E) :
    t.front config key =
      State.frontOf config t.hook t.preceding (t.hook.replayedEntry config key) := by
  unfold front
  cases t.hook.replayedEntry config key <;> rfl

theorem settle_eq (config : Config) (key : Key) (s s' : State E) :
    ∃ commitState, settle config key s s' = { s' with commitState } ∧
      commitState.state = s'.commitState.state ∧
      (State.EntriesFit config s'.commitState.stack →
        State.EntriesFit config commitState.stack) := by
  unfold settle
  split_ifs
  · refine ⟨_, rfl, rfl, fun hfit htable entry hentry => ?_⟩
    obtain ⟨kept, hkept, rfl⟩ := List.mem_map.mp hentry
    exact hfit htable kept hkept
  · exact ⟨s'.commitState, rfl, rfl, id⟩

/-- A key keeps the hook in step with the screen. -/
theorem InStep.press [AsciiCType] [WordBreaks] (h : t.InStep config)
    (hoff : config.macroEnabled = false)
    (hanchored : ∀ entry, t.hook.replayedEntry config key = some entry → entry.anchored = true)
    (hclean : t.hook.count = 0 → State.startsWithPunctuation config key = true →
      t.hook.previousComposition = []) : (t.press config key).InStep config := by
  obtain ⟨hfollows, -⟩ := State.follows_press h hoff hanchored hclean
  rw [← front_eq key t] at hfollows
  unfold Session.press
  dsimp only
  constructor
  · obtain ⟨commitState, hsettle, -, -⟩ := settle_eq config key t.hook
      (t.hook.press config key)
    rw [hsettle]
    split_ifs with hcount
    · exact ⟨fun hne => absurd hcount hne, fun hne => absurd hcount hne, fun _ => rfl,
        hfollows.widths⟩
    · have hword := hfollows.word hcount
      exact ⟨hword.shows, hword.previous, hword.empty, hword.widths⟩
  · obtain ⟨commitState, hsettle, hstate, -⟩ := settle_eq config key t.hook
      (t.hook.press config key)
    rw [hsettle]
    exact fun hready => hfollows.ready (hstate.symm.trans hready)
  · obtain ⟨commitState, hsettle, -, hentries⟩ := settle_eq config key t.hook
      (t.hook.press config key)
    rw [hsettle]
    exact hentries hfollows.entries
  · unfold settle
    by_cases hlost : t.hook.losesGap config key (t.hook.press config key) = true
    · rw [if_pos hlost, State.segments_loseAnchors]
      exact LaidOut.nil
    · rw [if_neg hlost]
      exact hfollows.layout (Bool.eq_false_iff.mpr hlost)

end Session

end HookEngine

end VKey
