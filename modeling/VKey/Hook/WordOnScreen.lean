import VKey.Hook.KeyPath
import Mathlib.Data.List.Basic

/-!
# The word on screen

The shadow of the hook and the text of the host agree: the host has the text before the word and
behind it the composition in the code table.  Every handler of a key keeps this, with the text
before the word unchanged.
-/

namespace VKey

namespace HookEngine

/-- A text in the code table, as the host has it. -/
def onScreen (config : Config) (text : List WChar) : List WChar :=
  CodeTableConverter.encodeString text config.currentCodeTable

section OnScreen

variable (config : Config)

@[simp] theorem onScreen_nil : onScreen config [] = [] := by
  unfold onScreen CodeTableConverter.encodeString
  split <;> rfl

theorem onScreen_eq_flatMap (text : List WChar) :
    onScreen config text =
      text.flatMap fun ch => (CodeTableConverter.convertChar ch config.currentCodeTable).units := by
  unfold onScreen CodeTableConverter.encodeString
  split
  · rename_i htable
    rw [htable]
    simp [CodeTableConverter.convertChar, CodeTableConverter.EncodedChar.units]
  · rfl

theorem onScreen_unicode {config : Config} (h : config.currentCodeTable = .unicode)
    (text : List WChar) : onScreen config text = text := by
  simp only [onScreen, CodeTableConverter.encodeString, h]

theorem length_onScreen (text : List WChar) :
    (onScreen config text).length = (text.map (State.encodedWidth config)).sum := by
  rw [onScreen_eq_flatMap, List.length_flatMap]
  rfl

end OnScreen

namespace State

variable {E : Type} {config : Config} {s : State E} {pre : List WChar}

/-! ## What the operations leave alone -/

/-- The undo windows of two states are the same. -/
structure SameUndo (c c' : CommitState) : Prop where
  state : c'.state = c.state
  stack : c'.stack = c.stack
  pending : c'.pendingTriggerCount = c.pendingTriggerCount
  leading : c'.leadingTriggersForCurrentWord = c.leadingTriggersForCurrentWord

theorem SameUndo.refl (c : CommitState) : SameUndo c c := ⟨rfl, rfl, rfl, rfl⟩

theorem SameUndo.trans {c c' c'' : CommitState} (h : SameUndo c c') (h' : SameUndo c' c'') :
    SameUndo c c'' :=
  ⟨h'.state.trans h.state, h'.stack.trans h.stack, h'.pending.trans h.pending,
    h'.leading.trans h.leading⟩

@[simp] theorem engine_replaceComposition (newText : List WChar) (reinject : Option WChar) :
    (s.replaceComposition config newText reinject).engine = s.engine := by
  unfold replaceComposition
  dsimp only
  split_ifs <;> rfl

@[simp] theorem commitState_replaceComposition (newText : List WChar) (reinject : Option WChar) :
    (s.replaceComposition config newText reinject).commitState = s.commitState := by
  unfold replaceComposition
  dsimp only
  split_ifs <;> rfl

@[simp] theorem previousComposition_replaceComposition (newText : List WChar)
    (reinject : Option WChar) :
    (s.replaceComposition config newText reinject).previousComposition = newText := by
  unfold replaceComposition
  dsimp only
  split_ifs <;> rfl

theorem sameUndo_appendHistory (ch : WChar) :
    SameUndo s.commitState (s.appendHistory ch).commitState :=
  ⟨rfl, rfl, rfl, rfl⟩

/-! ## The shadow of the screen -/

/-- The widths belong to the composition on screen. -/
def WidthsFit (config : Config) (s : State E) : Prop :=
  config.currentCodeTable ≠ .unicode →
    s.previousEncodedWidths = s.previousComposition.map (encodedWidth config)

/-- The host has the text before the word and the composition on screen. -/
structure Shows (config : Config) (pre : List WChar) (s : State E) : Prop where
  before : s.host.before = pre ++ onScreen config s.previousComposition
  widths : s.WidthsFit config

/-! ## Replacing what is on screen -/

theorem resize_of_length {widths : List Nat} {n : Nat} (h : n ≤ widths.length) :
    resize widths n = widths.take n := by
  rw [resize, Nat.sub_eq_zero_of_le h, List.replicate_zero, List.append_nil]

theorem commonLength_le (as bs : List WChar) : commonLength as bs ≤ as.length := by
  induction as, bs using commonLength.induct with
  | case1 a as bs ih =>
      rw [commonLength, if_pos rfl]
      exact Nat.succ_le_succ ih
  | case2 a as b bs hne =>
      rw [commonLength, if_neg hne]
      exact Nat.zero_le _
  | case3 as bs hnone =>
      unfold commonLength
      split
      · exact absurd rfl (hnone _ _ _ _ rfl)
      · exact Nat.zero_le _

/-- A replacement changes the text of the word and nothing before it. -/
theorem Shows.replaceComposition (h : s.Shows config pre) (newText : List WChar) :
    (s.replaceComposition config newText none).Shows config pre := by
  by_cases htable : config.currentCodeTable = .unicode
  · have hbefore : s.host.before = pre ++ s.previousComposition.flatMap fun ch => [ch] := by
      rw [h.before, onScreen_unicode htable, List.flatMap_singleton']
    have hreplaced := CaretText.before_replace_difference (fun ch => [ch]) hbefore newText
    simp only [List.flatMap_singleton', List.length_drop] at hreplaced
    refine ⟨?_, fun hne => absurd htable hne⟩
    rw [previousComposition_replaceComposition, onScreen_unicode htable, State.replaceComposition,
      if_neg (not_not_intro htable)]
    exact hreplaced
  · have hbefore := h.before
    rw [onScreen_eq_flatMap] at hbefore
    have hreplaced := CaretText.before_replace_difference _ hbefore newText
    have hsum : (s.previousEncodedWidths.drop (commonLength s.previousComposition newText)).sum =
        ((s.previousComposition.drop (commonLength s.previousComposition newText)).flatMap fun ch =>
          (CodeTableConverter.convertChar ch config.currentCodeTable).units).length := by
      rw [h.widths htable, ← List.map_drop, List.length_flatMap]
      rfl
    constructor
    · rw [previousComposition_replaceComposition, onScreen_eq_flatMap, State.replaceComposition,
        if_pos htable, hsum]
      exact hreplaced
    · intro _
      rw [previousComposition_replaceComposition, State.replaceComposition, if_pos htable]
      dsimp only
      rw [resize_of_length (by rw [h.widths htable, List.length_map]; exact commonLength_le _ _),
        h.widths htable, ← List.map_take, ← List.map_append, take_commonLength,
        List.take_append_drop]

/-- With the key in front of it, a replacement finds the key at the end of the composition. -/
theorem Shows.replaceComposition_reinject {ch : WChar} (htable : config.currentCodeTable = .unicode)
    (hbefore : s.host.before ++ [ch] = pre ++ s.previousComposition) (newText : List WChar) :
    (s.replaceComposition config newText (some ch)).Shows config pre := by
  have hinserted :
    (s.host.insert [ch]).before = pre ++ s.previousComposition.flatMap fun ch => [ch] := by
    rw [CaretText.before_insert, hbefore, List.flatMap_singleton']
  have hreplaced := CaretText.before_replace_difference (fun ch => [ch]) hinserted newText
  simp only [List.flatMap_singleton', List.length_drop] at hreplaced
  refine ⟨?_, fun hne => absurd htable hne⟩
  rw [previousComposition_replaceComposition, onScreen_unicode htable, State.replaceComposition,
    if_neg (not_not_intro htable)]
  exact hreplaced

/-! ## The word of the engine -/

variable [InputEngine E]

@[simp] theorem commitState_clearStale : s.clearStale.commitState = s.commitState := by
  unfold clearStale
  split_ifs <;> rfl

/-- The host has the text before the word and the word of the engine, if it has one. -/
structure Word (config : Config) (pre : List WChar) (s : State E) : Prop where
  shows : s.count ≠ 0 → s.host.before = pre ++ onScreen config s.previousComposition
  previous : s.count ≠ 0 → s.previousComposition = InputEngine.peek s.engine
  empty : s.count = 0 → s.host.before = pre
  widths : s.WidthsFit config

theorem Shows.word (h : s.Shows config pre)
    (hpeek : s.previousComposition = InputEngine.peek s.engine) : s.Word config pre where
  shows _ := h.before
  previous _ := hpeek
  empty hcount := by
    rw [h.before, hpeek, peek_of_count s.engine hcount, onScreen_nil, List.append_nil]
  widths := h.widths

theorem Word.toShows (h : s.Word config pre) (hcount : s.count ≠ 0) : s.Shows config pre :=
  ⟨h.shows hcount, h.widths⟩

theorem Word.before (h : s.Word config pre) :
    s.host.before = pre ++ onScreen config (InputEngine.peek s.engine) := by
  by_cases hcount : s.count = 0
  · rw [h.empty hcount, peek_of_count s.engine hcount, onScreen_nil, List.append_nil]
  · rw [h.shows hcount, h.previous hcount]

theorem Word.prefix_before (h : s.Word config pre) : pre <+: s.host.before := by
  rw [h.before]
  exact List.prefix_append _ _

/-! ## The keys of a word -/

theorem Word.clearStale (h : s.Word config pre) : s.clearStale.Shows config pre := by
  unfold State.clearStale
  split_ifs with hstale
  · refine ⟨?_, fun _ => rfl⟩
    simp [h.empty hstale.1]
  · by_cases hcount : s.count = 0
    · have hnil : s.previousComposition = [] := by
        by_contra hne
        exact hstale ⟨hcount, hne⟩
      refine ⟨?_, h.widths⟩
      rw [h.empty hcount, hnil, onScreen_nil, List.append_nil]
    · exact h.toShows hcount

theorem Shows.word_replaceComposition (h : s.Shows config pre) :
    (s.replaceComposition config (InputEngine.peek s.engine) none).Word config pre := by
  refine (h.replaceComposition _).word ?_
  rw [previousComposition_replaceComposition, engine_replaceComposition]

section Letters

variable [WideCType] {key : Key}

theorem Word.pushLetter (h : s.Word config pre) (key : Key) :
    (s.pushLetter key).Shows config pre := by
  have hflag : ∀ s : State E, s.Word config pre →
      ((if s.letter key ≠ key.originalCh ∧ s.rawMacroBuffer.length = 1 then
        { s with wasFirstCharAutoCapped := true } else s) : State E).Word config pre := by
    intro s h
    split_ifs
    · exact ⟨h.shows, h.previous, h.empty, h.widths⟩
    · exact h
  exact ⟨(hflag s h).clearStale.before, (hflag s h).clearStale.widths⟩

theorem sameUndo_pushLetter (key : Key) :
    SameUndo s.commitState (s.pushLetter key).commitState := by
  unfold State.pushLetter appendHistory
  dsimp only
  rw [commitState_clearStale]
  split_ifs <;> exact ⟨rfl, rfl, rfl, rfl⟩

omit [InputEngine E] in
theorem eq_append_of_isSimpleAppend {composition : List WChar}
    (h : s.isSimpleAppend key composition = true) :
    composition = s.previousComposition ++ [key.originalCh] := by
  simp only [isSimpleAppend, Bool.and_eq_true, beq_iff_eq, List.isPrefixOf_iff_prefix] at h
  obtain ⟨⟨hlength, hlast⟩, rest, rfl⟩ := h
  rw [List.length_append, Nat.add_left_cancel_iff] at hlength
  obtain ⟨ch, rfl⟩ := List.length_eq_one_iff.mp hlength
  rw [List.getLast?_concat, Option.some_inj] at hlast
  rw [hlast]

omit [InputEngine E] in
theorem host_deliver_pass (halpha : isAlphaVk key.vkCode = true) (hshortcut : key.shortcut = false)
    (s : State E) : (deliver key (s, .pass)).host = s.host.insert [key.originalCh] := by
  have htypes : typesCharacter key.vkCode = true := by simp [typesCharacter, halpha]
  rw [deliver_pass, injectKey, Key.press_of_typesCharacter hshortcut htypes,
    Key.unit, if_pos halpha]

/-- A letter key is added to the word on screen. -/
theorem Word.handleAlphaKey (h : s.Word config pre) (halpha : isAlphaVk key.vkCode = true)
    (hshortcut : key.shortcut = false) :
    (deliver key (s.handleAlphaKey config key)).Word config pre := by
  have hshows := h.pushLetter key
  unfold State.handleAlphaKey
  dsimp only
  generalize s.pushLetter key = s at hshows
  split_ifs with hpass hreinject
  · simp only [Bool.and_eq_true, beq_iff_eq] at hpass
    have htable : config.currentCodeTable = .unicode := hpass.1.1.1.2
    have happend := eq_append_of_isSimpleAppend hpass.2
    refine Shows.word ⟨?_, fun hne => absurd htable hne⟩ rfl
    rw [host_deliver_pass halpha hshortcut, CaretText.before_insert]
    change s.host.before ++ _ = pre ++ onScreen config (InputEngine.peek s.engine)
    rw [hshows.before, onScreen_unicode htable, onScreen_unicode htable, happend, List.append_assoc]
  · simp only [Bool.and_eq_true, beq_iff_eq] at hreinject
    have htable : config.currentCodeTable = .unicode := hreinject.1.2
    refine (Shows.replaceComposition_reinject htable ?_ _).word ?_
    · rw [hshows.before, onScreen_unicode htable, List.append_assoc]
    · rw [previousComposition_replaceComposition, engine_replaceComposition]
  · exact hshows.word_replaceComposition

theorem sameUndo_handleAlphaKey (key : Key) :
    SameUndo s.commitState (deliver key (s.handleAlphaKey config key)).commitState := by
  have hpush := sameUndo_pushLetter (s := s) key
  unfold State.handleAlphaKey
  dsimp only
  split_ifs
  · exact hpush
  · rw [deliver_eat, commitState_replaceComposition]
    exact hpush
  · rw [deliver_eat, commitState_replaceComposition]
    exact hpush

end Letters

/-- A digit key that the engine takes. -/
theorem Word.handleVniDigitKey (h : s.Word config pre) (hcount : s.count ≠ 0) (key : Key) :
    (s.handleVniDigitKey config key).Word config pre :=
  Shows.word_replaceComposition ⟨(h.toShows hcount).before, (h.toShows hcount).widths⟩

theorem sameUndo_handleVniDigitKey (key : Key) :
    SameUndo s.commitState (s.handleVniDigitKey config key).commitState := by
  unfold State.handleVniDigitKey
  dsimp only
  rw [commitState_replaceComposition]
  exact sameUndo_appendHistory _

theorem Word.pushPunctuation (h : s.Word config pre)
    (hclean : s.count = 0 → s.previousComposition = []) (pushed : WChar × Option Bool) :
    (s.pushPunctuation config pushed).Word config pre := by
  have hshows : s.Shows config pre := by
    by_cases hcount : s.count = 0
    · refine ⟨?_, h.widths⟩
      rw [h.empty hcount, hclean hcount, onScreen_nil, List.append_nil]
    · exact h.toShows hcount
  exact Shows.word_replaceComposition ⟨hshows.before, hshows.widths⟩

theorem sameUndo_pushPunctuation (pushed : WChar × Option Bool) :
    SameUndo s.commitState (s.pushPunctuation config pushed).commitState := by
  unfold State.pushPunctuation
  dsimp only
  rw [commitState_replaceComposition]
  exact sameUndo_appendHistory _

/-! ## Backspace in a word -/

omit [InputEngine E] in
/-- The composition is deleted from the screen, and nothing before it. -/
theorem Shows.erasePrevious (h : s.Shows config pre) :
    (s.erasePrevious config).host.before = pre ∧ (s.erasePrevious config).previousComposition = [] ∧
      (s.erasePrevious config).WidthsFit config := by
  unfold State.erasePrevious
  dsimp only
  split_ifs with hempty htable
  · have hnil : s.previousComposition = [] := List.isEmpty_iff.mp hempty
    refine ⟨?_, hnil, h.widths⟩
    rw [h.before, hnil, onScreen_nil, List.append_nil]
  · refine ⟨?_, rfl, fun _ => rfl⟩
    rw [CaretText.before_eraseBefore, h.widths htable, ← length_onScreen, h.before,
      CaretText.rdrop_append_length]
  · refine ⟨?_, rfl, fun _ => rfl⟩
    have hunicode := not_not.mp htable
    have hbefore := h.before
    rw [onScreen_unicode hunicode] at hbefore
    rw [CaretText.before_eraseBefore, hbefore, CaretText.rdrop_append_length]

omit [InputEngine E] in
@[simp] theorem engine_erasePrevious : (s.erasePrevious config).engine = s.engine := by
  unfold erasePrevious
  dsimp only
  split_ifs <;> rfl

omit [InputEngine E] in
@[simp] theorem commitState_erasePrevious :
    (s.erasePrevious config).commitState = s.commitState := by
  unfold erasePrevious
  dsimp only
  split_ifs <;> rfl

/-- The undo window after a word has been deleted letter by letter. -/
structure BackedOut (c c' : CommitState) : Prop where
  stack : c'.stack = c.stack
  state : c.stack ≠ [] → c'.state = .ready
  pending : c.stack ≠ [] → c'.pendingTriggerCount = c.leadingTriggersForCurrentWord

/-- Nothing but the word is shortened. -/
theorem Shows.showShortened (h : s.Shows config pre) :
    (s.showShortened config).Word config pre := by
  unfold State.showShortened
  dsimp only
  split_ifs with hleft hstack
  · exact h.word_replaceComposition
  all_goals
    obtain ⟨hbefore, hprevious, hwidths⟩ := h.erasePrevious
    have hpeek : InputEngine.peek (s.erasePrevious config).engine = [] := by
      rw [engine_erasePrevious]
      exact peek_of_count s.engine (Nat.eq_zero_of_not_pos hleft)
    have hempty : (s.erasePrevious config).Shows config pre := by
      refine ⟨?_, hwidths⟩
      rw [hbefore, hprevious, onScreen_nil, List.append_nil]
  · exact Shows.word ⟨hempty.before, hempty.widths⟩ (hprevious.trans hpeek.symm)
  · exact hempty.word (hprevious.trans hpeek.symm)

theorem Word.handleBackspace (h : s.Word config pre) (hcount : s.count ≠ 0) :
    (s.handleBackspace config).Word config pre :=
  Shows.showShortened ⟨(h.toShows hcount).before, (h.toShows hcount).widths⟩

/-- The undo window is left alone while the word lasts, and opens when it is gone. -/
theorem undo_showShortened (config : Config) (s : State E) :
    ((s.showShortened config).count ≠ 0 →
      SameUndo s.commitState (s.showShortened config).commitState) ∧
    ((s.showShortened config).count = 0 →
      BackedOut s.commitState (s.showShortened config).commitState) := by
  unfold State.showShortened
  dsimp only
  have hcount : (s.erasePrevious config).count = s.count := by
    rw [count, count, engine_erasePrevious]
  split_ifs with hleft hstack
  · rw [commitState_replaceComposition]
    refine ⟨fun _ => SameUndo.refl _, fun hzero => ?_⟩
    rw [count, engine_replaceComposition] at hzero
    exact absurd hzero (Nat.pos_iff_ne_zero.mp hleft)
  · refine ⟨fun hne => absurd ?_ hne, fun _ => ⟨?_, fun _ => rfl, fun _ => ?_⟩⟩
    · exact hcount.trans (Nat.eq_zero_of_not_pos hleft)
    · change (s.erasePrevious config).commitState.stack = s.commitState.stack
      rw [commitState_erasePrevious]
    · change (s.erasePrevious config).commitState.leadingTriggersForCurrentWord =
        s.commitState.leadingTriggersForCurrentWord
      rw [commitState_erasePrevious]
  · refine ⟨fun hne => absurd ?_ hne, fun _ => ?_⟩
    · exact hcount.trans (Nat.eq_zero_of_not_pos hleft)
    · rw [commitState_erasePrevious] at hstack ⊢
      exact ⟨rfl, fun hne => absurd hne hstack, fun hne => absurd hne hstack⟩

theorem undo_handleBackspace :
    ((s.handleBackspace config).count ≠ 0 →
      SameUndo s.commitState (s.handleBackspace config).commitState) ∧
    ((s.handleBackspace config).count = 0 →
      BackedOut s.commitState (s.handleBackspace config).commitState) := by
  obtain ⟨hsame, hout⟩ := undo_showShortened config s.backspaced
  refine ⟨fun hne => (sameUndo_appendHistory _).trans (hsame hne), fun hzero => ?_⟩
  obtain ⟨hstack, hstate, hpending⟩ := hout hzero
  exact ⟨hstack, hstate, hpending⟩

/-! ## The end of a word -/

@[simp] theorem count_clearWordState : s.clearWordState.count = 0 := count_reset s.engine

@[simp] theorem count_resetComposition : s.resetComposition.count = 0 := count_reset _

/-- The undo window after a commit: the word has been pushed. -/
structure Pushed (config : Config) (text : List WChar) (c c' : CommitState) : Prop where
  state : c'.state = c.state
  pending : c'.pendingTriggerCount = c.pendingTriggerCount
  leading : c'.leadingTriggersForCurrentWord = 0
  pushedToStack : c'.pushedToStack = true
  stack : ∃ entry kept, c'.stack = entry :: kept ∧ kept <+: c.stack ∧ entry.text = text ∧
    entry.extraLeadingTriggers = c.leadingTriggersForCurrentWord ∧ entry.anchored = true ∧
    (config.currentCodeTable ≠ .unicode → entry.widths = entry.text.map (encodedWidth config))

/-- The state after a commit: the text of the word stays on screen. -/
structure Committed (config : Config) (pre : List WChar) (s s' : State E) : Prop where
  count : s'.count = 0
  previous : s'.previousComposition = []
  widths : s'.previousEncodedWidths = []
  undo : ∃ text, s'.host.before = pre ++ onScreen config text ∧
    (Pushed config text s.commitState s'.commitState ∨
      SameUndo s.commitState s'.commitState ∧ s'.commitState.pushedToStack = false)

theorem prefix_dropLast_of_full (stack : List CommitEntry) :
    (if kMaxStack ≤ stack.length then stack.dropLast else stack) <+: stack := by
  split_ifs
  · exact List.dropLast_prefix stack
  · exact List.prefix_rfl

omit [InputEngine E] in
theorem undo_pushCommitted (hwidths : s.WidthsFit config) (wasQuickConsonant : Bool)
    (rawSnapshot : List WChar) :
    let c := (s.pushCommitted wasQuickConsonant rawSnapshot s.previousComposition).commitState
    Pushed config s.previousComposition s.commitState c ∨
      SameUndo s.commitState c ∧ c.pushedToStack = false := by
  unfold pushCommitted
  dsimp only
  split_ifs
  · refine Or.inl ⟨rfl, rfl, rfl, rfl, _, _, rfl, prefix_dropLast_of_full _, rfl, rfl, rfl, ?_⟩
    exact hwidths
  · exact Or.inr ⟨⟨rfl, rfl, rfl, rfl⟩, rfl⟩

omit [InputEngine E] in
theorem host_pushCommitted (wasQuickConsonant : Bool) (rawSnapshot text : List WChar) :
    (s.pushCommitted wasQuickConsonant rawSnapshot text).host = s.host := by
  unfold pushCommitted
  dsimp only
  split_ifs <;> rfl

theorem Committed.of_pushed {s' : State E} (text : List WChar)
    (hbefore : s'.host.before = pre ++ onScreen config text)
    (hundo : Pushed config text s.commitState s'.commitState ∨
      SameUndo s.commitState s'.commitState ∧ s'.commitState.pushedToStack = false) :
    Committed config pre s s'.clearWordState where
  count := count_clearWordState
  previous := rfl
  widths := rfl
  undo := by
    refine ⟨text, hbefore, ?_⟩
    rcases hundo with h | ⟨h, hpushed⟩
    · exact Or.inl ⟨h.state, h.pending, h.leading, h.pushedToStack, h.stack⟩
    · exact Or.inr ⟨⟨h.state, h.stack, h.pending, h.leading⟩, hpushed⟩

theorem Word.showCommitted (h : s.Word config pre) (hcount : s.count ≠ 0) (verbatim : Bool) :
    (s.showCommitted config verbatim).Shows config pre ∧
      (s.showCommitted config verbatim).commitState = s.commitState := by
  have hleft : State.Shows config pre { s with engine := (InputEngine.commit s.engine).2 } :=
    ⟨(h.toShows hcount).before, (h.toShows hcount).widths⟩
  unfold State.showCommitted
  dsimp only
  split_ifs
  · exact ⟨hleft.replaceComposition _, commitState_replaceComposition _ _⟩
  · exact ⟨hleft, rfl⟩

/-- A commit leaves the text before the word alone. -/
theorem Word.commitComposition (h : s.Word config pre) (hcount : s.count ≠ 0) (verbatim : Bool) :
    Committed config pre s (s.commitComposition config verbatim).1 := by
  obtain ⟨hshows, hundo⟩ := h.showCommitted hcount verbatim
  refine Committed.of_pushed (s.showCommitted config verbatim).previousComposition ?_ ?_
  · rw [host_pushCommitted]
    exact hshows.before
  · rw [← hundo]
    exact undo_pushCommitted hshows.widths _ _

end State

end HookEngine

end VKey
