import VKey.Hook.CleanShadow

/-!
# Commit-undo and the caret

Commit-undo brings a word back without a look at the text of the host.  The word stands at the caret
as long as the hook has counted everything that has come behind it.
-/

namespace VKey

namespace HookEngine

namespace Session

variable {E : Type} [InputEngine E] [WideCType] [AsciiCType] [WordBreaks]
  {config : Config} {key : Key} {t : Session E}

/-- A word that the key brings back stands at the caret, and the key deletes nothing before it. -/
def RevivesAtCaret (config : Config) (t : Session E) (key : Key) : Prop :=
  ∀ entry, t.hook.replayedEntry config key = some entry →
    ∃ front, t.hook.host.before = front ++ entry.text ∧
      (t.hook.isReplayShown config key = true → front <+: (t.hook.press config key).host.before)

/-- The gap of a word that the key brings back has been counted. -/
def RevivesCounted (config : Config) (t : Session E) (key : Key) : Prop :=
  ∀ entry ∈ t.hook.replayedEntry config key, entry.anchored = true

instance (config : Config) (t : Session E) (key : Key) :
    Decidable (RevivesCounted config t key) :=
  inferInstanceAs (Decidable (∀ entry ∈ t.hook.replayedEntry config key, entry.anchored = true))

/-! ## Words behind a counted gap -/

theorem run_foldl_press (config : Config) (keys : List Key) (t : Session E) :
    Run (Step config) t keys (keys.foldl (fun t key => t.press config key) t) := by
  induction keys generalizing t with
  | nil => exact .nil
  | cons key keys ih => exact .cons rfl (ih _)

omit [AsciiCType] [WordBreaks] in
/-- A word behind a counted gap stands in the text. -/
theorem InStep.before_of_replayed (h : t.InStep config) (hoff : config.macroEnabled = false)
    {entry : CommitEntry} (hreplayed : t.hook.replayedEntry config key = some entry)
    (hanchored : entry.anchored = true) :
    t.hook.host.before = t.front config key ++ onScreen config entry.text := by
  have hbegins := State.begins hoff key t.hook
  rw [front_eq, hreplayed]
  unfold State.replayedEntry State.replayedAt at hreplayed
  split_ifs at hreplayed with hguarded hprimed
  have hhead :
    ((t.hook.beforeStages config key).beforeFsm key).commitState.stack.head? = some entry := by
    split at hreplayed
    · exact hreplayed
    · exact hreplayed
    · exact hreplayed
    · cases hreplayed
  cases hstack : ((t.hook.beforeStages config key).beforeFsm key).commitState.stack with
  | nil =>
      rw [hstack] at hhead
      cases hhead
  | cons top rest =>
      rw [hstack, List.head?_cons, Option.some_inj] at hhead
      subst hhead
      obtain ⟨front, hfront, -⟩ := hbegins.revived h hprimed.1 hprimed.2 hstack hanchored
      rw [State.frontOf, hfront, CaretText.rdrop_append_length]

/-- The session after the keys: in step with the screen, and without a composition between words. -/
theorem inStep_of_run {engine : E} {host : CaretText WChar} {keys : List Key}
    (hcount : InputEngine.count engine = 0) (hoff : config.macroEnabled = false)
    (hkeys : ∀ key ∈ keys, State.cancelsComposition config key = false)
    (h : Run (Meeting (RevivesCounted config) (Step config)) (start engine host) keys t) :
    t.InStep config ∧ t.hook.Clean := by
  induction h with
  | nil => exact ⟨inStep_start hcount host, fun _ => rfl⟩
  | @snoc keys s t key hrun hstep ih =>
      obtain ⟨hinstep, hclean⟩ := ih fun key hkey => hkeys key (List.mem_append_left _ hkey)
      obtain ⟨hcounted, rfl⟩ := hstep
      refine ⟨hinstep.press hoff hcounted fun hzero _ => hclean hzero, ?_⟩
      obtain ⟨commitState, hsettle, -, -⟩ :=
        settle_eq config key s.hook (s.hook.press config key)
      unfold Session.press
      dsimp only
      rw [hsettle]
      exact hclean.press hoff (hkeys key (List.mem_append_right _ (List.mem_singleton_self key)))

/-- In every run that brings back only words whose gap has been counted, every word stands at the
caret when it is brought back. -/
theorem revivesAtCaret_of_run {engine : E} {host : CaretText WChar} {keys : List Key}
    (hcount : InputEngine.count engine = 0) (hoff : config.macroEnabled = false)
    (htable : config.currentCodeTable = .unicode)
    (hkeys : ∀ key ∈ keys, State.cancelsComposition config key = false)
    (h : Run (Meeting (RevivesCounted config) (Step config)) (start engine host) keys t)
    (hcounted : RevivesCounted config t key) : RevivesAtCaret config t key := by
  obtain ⟨hinstep, hclean⟩ := inStep_of_run hcount hoff hkeys h
  intro entry hentry
  have hbefore := hinstep.before_of_replayed hoff hentry (hcounted entry hentry)
  rw [onScreen_unicode htable] at hbefore
  refine ⟨t.front config key, hbefore, fun hshown => ?_⟩
  obtain ⟨-, hkept⟩ := State.follows_press hinstep hoff hcounted fun hzero _ => hclean hzero
  rw [front_eq]
  refine hkept ?_ hshown
  rw [hentry]
  exact Option.some_ne_none entry

end Session

/-- After `a`, the space bar and Backspace, the key S brings the word back at the caret. -/
theorem Session.revivesAtCaret_of_run_space : ∃ t : Session TypingEngine,
    Run (Step {}) (start (TypingEngine.new {}) {})
      [{ vkCode := 0x41, macroChar := L 'a' }, { vkCode := vkSpace, macroChar := L ' ' },
        { vkCode := vkBack }] t ∧
      t.hook.replayedEntry {} { vkCode := 0x53, macroChar := L 's' } ≠ none ∧
      RevivesAtCaret {} t { vkCode := 0x53, macroChar := L 's' } := by
  have hrun : Run (Meeting (RevivesCounted {}) (Step {})) (start (TypingEngine.new {}) {})
      [{ vkCode := 0x41, macroChar := L 'a' }, { vkCode := vkSpace, macroChar := L ' ' },
        { vkCode := vkBack }] _ :=
    .cons ⟨by decide +kernel, rfl⟩ (.cons ⟨by decide +kernel, rfl⟩
      (.cons ⟨by decide +kernel, rfl⟩ .nil))
  exact ⟨_, hrun.mono fun _ _ _ hstep => hstep.2, by decide +kernel,
    revivesAtCaret_of_run rfl rfl rfl (by decide) hrun (by decide +kernel)⟩

/-- Delete ends a word and leaves it on the stack, as if a trigger stood behind it.  After `a`,
Delete, `b` and two Backspaces nothing is left before the caret, and the key S brings `a` back
there. -/
theorem Session.not_revivesAtCaret_of_run : ¬∀ (config : Config) (host : CaretText WChar)
    (keys : List Key) (t : Session TypingEngine) (key : Key), config.macroEnabled = false →
      config.currentCodeTable = .unicode →
      (∀ key ∈ keys, State.cancelsComposition config key = false) →
      Run (Step config) (start (TypingEngine.new config.typing) host) keys t →
      RevivesAtCaret config t key := by
  intro h
  obtain ⟨t, ht⟩ : ∃ t : Session TypingEngine,
      t = [{ vkCode := 0x41, macroChar := L 'a' }, { vkCode := vkDelete },
        { vkCode := 0x42, macroChar := L 'b' }, { vkCode := vkBack }, { vkCode := vkBack }].foldl
          (fun t key => t.press {} key) (start (TypingEngine.new {}) {}) := ⟨_, rfl⟩
  have hrevives := h {} {} _ t { vkCode := 0x53, macroChar := L 's' } rfl rfl (by decide)
    (ht ▸ run_foldl_press {} _ _)
  have hreplayed : (t.hook.replayedEntry {} { vkCode := 0x53, macroChar := L 's' }).map
      CommitEntry.text = some [L 'a'] := by
    rw [ht]
    decide +kernel
  have hbefore : t.hook.host.before = [] := by
    rw [ht]
    decide +kernel
  obtain ⟨entry, hentry, htext⟩ := Option.map_eq_some_iff.mp hreplayed
  obtain ⟨front, hfront, -⟩ := hrevives entry hentry
  rw [hbefore, htext] at hfront
  exact absurd hfront.symm (List.append_ne_nil_of_right_ne_nil front (List.cons_ne_nil _ _))

end HookEngine

end VKey
