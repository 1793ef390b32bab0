import VKey.Hook.LayoutSwitch
import VKey.Support.Run

/-!
# A visit to an excluded application

While an excluded application has the focus the flag of the shared state is English.  The mode
survives the visit unless a poll takes the flag for the choice of the user, or a window without a
lock comes in between.
-/

namespace VKey

namespace HookEngine

namespace FocusMode

/-! ## The mode of the user under suppression -/

/-- The mode that comes back when the layout suppresses it no longer is `m`. -/
structure State.Logical {Exe : Type} (cfg : Config) (m : Bool) (s : State Exe) : Prop where
  own : (if s.layoutSuppressed then s.modeBeforeCjk else s.vietnameseMode) = m
  quiet : s.layoutSuppressed = true → s.vietnameseMode = false
  enabled : s.layoutSuppressed = true → cfg.cjkAutoSwitch = true

/-- The flag is the mode. -/
def State.Published {Exe : Type} (s : State Exe) : Prop := s.sharedFlag = s.vietnameseMode

/-- A suppression is left when the layout is compatible again. -/
def State.Replayed {Exe : Type} (s : State Exe) : Prop :=
  s.layoutSuppressed = true → s.cachedIsCompatLayout = false

namespace State

variable {Exe : Type} {cfg : Config} {m : Bool} {s : State Exe}

theorem Unlocked.published_notifyModeChange (h : s.Unlocked) : s.notifyModeChange.Published :=
  h.sharedMode

theorem Logical.congr {s' : State Exe} (h : s.Logical cfg m)
    (hmode : s'.vietnameseMode = s.vietnameseMode)
    (hsuppressed : s'.layoutSuppressed = s.layoutSuppressed)
    (hbefore : s'.modeBeforeCjk = s.modeBeforeCjk) : s'.Logical cfg m := by
  constructor
  · rw [hmode, hsuppressed, hbefore]
    exact h.own
  · rw [hmode, hsuppressed]
    exact h.quiet
  · rw [hsuppressed]
    exact h.enabled

theorem Logical.mode (h : s.Logical cfg m) (hsuppressed : s.layoutSuppressed = false) :
    s.vietnameseMode = m := by
  have hown := h.own
  rwa [hsuppressed, if_neg Bool.false_ne_true] at hown

theorem Logical.onLayoutChanged (h : s.Logical cfg m) (compatible : Bool) :
    (s.onLayoutChanged cfg compatible).Logical cfg m := by
  obtain ⟨heq, -⟩ | ⟨-, hcjk, -, hsuppressed, heq⟩ | ⟨-, -, -, hsuppressed, heq⟩ :=
    onLayoutChanged_cases cfg compatible s
  · rwa [heq]
  · have hmode := h.mode hsuppressed
    rw [heq]
    split_ifs with hm
    · exact ⟨hmode, fun _ => rfl, fun _ => hcjk⟩
    · exact ⟨hmode, fun _ => Bool.eq_false_iff.mpr hm, fun _ => hcjk⟩
  · have hown := h.own
    rw [hsuppressed, if_pos rfl] at hown
    rw [heq]
    exact ⟨hown, fun htrue => absurd htrue Bool.false_ne_true, fun htrue =>
      absurd htrue Bool.false_ne_true⟩

/-- A check that changes the mode publishes it. -/
theorem Published.onLayoutChanged (h : s.Published) (compatible : Bool) :
    (s.onLayoutChanged cfg compatible).Published := by
  obtain ⟨heq, -⟩ | ⟨hunlocked, -, -, -, heq⟩ | ⟨hunlocked, -, -, -, heq⟩ :=
    onLayoutChanged_cases cfg compatible s
  · rwa [heq]
  · rw [heq]
    split_ifs with hm
    · exact Unlocked.published_notifyModeChange hunlocked
    · exact h
  · rw [heq]
    exact Unlocked.published_notifyModeChange hunlocked

theorem Logical.checkLayoutChange (h : s.Logical cfg m) (compatible : Option Bool) :
    (s.checkLayoutChange cfg compatible).Logical cfg m := by
  cases compatible with
  | none => exact h
  | some compatible =>
      rw [State.checkLayoutChange]
      split_ifs
      · refine Logical.onLayoutChanged ?_ compatible
        exact h.congr rfl rfl rfl
      · exact h

theorem Published.checkLayoutChange (h : s.Published) (compatible : Option Bool) :
    (s.checkLayoutChange cfg compatible).Published := by
  cases compatible with
  | none => exact h
  | some compatible =>
      rw [State.checkLayoutChange]
      split_ifs
      · exact Published.onLayoutChanged (s := { s with cachedIsCompatLayout := compatible })
          h compatible
      · exact h

theorem Replayed.checkLayoutChange (h : s.Replayed) (hlogical : s.Logical cfg m)
    (hunlocked : s.Unlocked)
    (compatible : Option Bool) : (s.checkLayoutChange cfg compatible).Replayed := by
  cases compatible with
  | none => exact h
  | some compatible =>
      intro hsuppressed
      rw [cachedIsCompatLayout_checkLayoutChange]
      by_contra hcompatible
      rw [Bool.not_eq_false] at hcompatible
      subst hcompatible
      rw [State.checkLayoutChange] at hsuppressed
      split_ifs at hsuppressed with hchanged
      · obtain ⟨heq, hskip⟩ | ⟨-, -, hfalse, -, -⟩ | ⟨-, -, -, -, heq⟩ :=
          onLayoutChanged_cases cfg true { s with cachedIsCompatLayout := true }
        · rw [heq] at hsuppressed
          have hskip := hskip hunlocked (hlogical.enabled hsuppressed)
          rw [hsuppressed] at hskip
          cases hskip
        · cases hfalse
        · rw [heq] at hsuppressed
          cases hsuppressed
      · have hcached := h hsuppressed
        rw [← not_ne_iff.mp hchanged] at hcached
        cases hcached

/-- The replay of the layout check restores the mode and publishes it. -/
theorem replayLayout_mode (h : s.Logical cfg m) (hunlocked : s.Unlocked)
    (hcached : s.cachedIsCompatLayout = true) :
    (s.replayLayout cfg).vietnameseMode = m ∧ (s.replayLayout cfg).sharedFlag = m := by
  rw [replayLayout, hcached]
  obtain ⟨heq, hskip⟩ | ⟨-, -, hfalse, -⟩ | ⟨-, -, -, hsuppressed, heq⟩ :=
    onLayoutChanged_cases cfg true s
  · have hsuppressed : s.layoutSuppressed = false := by
      rw [← Bool.not_eq_true]
      intro hsuppressed
      have hnot := hskip hunlocked (h.enabled hsuppressed)
      rw [hsuppressed] at hnot
      cases hnot
    rw [heq]
    simp only [if_true]
    exact ⟨h.mode hsuppressed, hunlocked.sharedMode.trans (h.mode hsuppressed)⟩
  · cases hfalse
  · have hown := h.own
    rw [hsuppressed, if_pos rfl] at hown
    rw [heq, hsuppressed]
    simp only [notifyModeChange, Bool.true_eq_false, if_false]
    refine ⟨hown, ?_⟩
    rw [sharedMode, hunlocked.1, hunlocked.2]
    exact hown

theorem leaveApp_of_smartSwitch_off [DecidableEq Exe] (hsmart : cfg.smartSwitch = false)
    (before s : State Exe)
    (savedMode : Bool) : leaveApp cfg before savedMode s = s := by
  rw [leaveApp]
  cases s.lastRealExe with
  | none => rfl
  | some oldLastReal => simp only [hsmart, Bool.false_and, Bool.false_eq_true, if_false]

end State

/-! ## The visit -/

/-- The state with what the threads hold: the target and the bit of a toggle, the flag that the
worker has read, and the modes that notifications are about to publish. -/
structure Visit (Exe κ : Type) where
  mode : State Exe
  pendingToggleMode : Option Bool := none
  /-- The bit of the mailbox. -/
  kToggleVN : Bool := false
  polled : Option Bool := none
  notice : κ → Option Bool := fun _ => none

inductive VisitEvent (Exe κ : Type) where
  | focus (cls : FocusClassification Exe) (compatible : Option Bool) (reading : BrowserReading)
  | tickPoll (compatible : Option Bool) (reading : BrowserReading)
  /-- A thread loads what it is going to publish. -/
  | notify (k : κ)
  | publish (k : κ)
  | poll
  | sync
  | markActivity
  | toggle
  | drainToggle (foregroundPid : Nat) (reading : BrowserReading)

section Visit

variable {Exe κ : Type} [DecidableEq Exe] [DecidableEq κ] {cfg : Config}
  {currentProcessId : Nat} {m : Bool} {v v' : Visit Exe κ}

/-- The steps of a visit: excluded applications and helper windows get the focus, and every toggle
is blocked.  Only a configuration with excluded applications has locks. -/
inductive VisitStep (cfg : Config) (currentProcessId : Nat) :
    Visit Exe κ → VisitEvent Exe κ → Visit Exe κ → Prop
  | focus {v : Visit Exe κ} {cls : FocusClassification Exe} {compatible : Option Bool}
      {reading : BrowserReading}
      (hwindow : cls.perAppMode = .forceEnglish ∨ cls.skipAppTracking = true)
      (hlock : cls.perAppMode ≠ .none → cfg.excludeApps = true) :
      VisitStep cfg currentProcessId v (.focus cls compatible reading)
        { v with mode := v.mode.applyFocus cfg currentProcessId cls compatible reading }
  | tickPoll {v : Visit Exe κ} {compatible : Option Bool} {reading : BrowserReading} :
      VisitStep cfg currentProcessId v (.tickPoll compatible reading)
        { v with mode := v.mode.applyTickPoll cfg compatible reading }
  | notify {v : Visit Exe κ} {k : κ} :
      VisitStep cfg currentProcessId v (.notify k)
        { v with notice := Function.update v.notice k (some v.mode.sharedMode) }
  | publish {v : Visit Exe κ} {k : κ} {sharedMode : Bool} (hnotice : v.notice k = some sharedMode) :
      VisitStep cfg currentProcessId v (.publish k)
        { v with
          mode := { v.mode with sharedFlag := sharedMode }
          notice := Function.update v.notice k none }
  | poll {v : Visit Exe κ} :
      VisitStep cfg currentProcessId v .poll { v with polled := some v.mode.sharedFlag }
  | sync {v : Visit Exe κ} {sharedVn : Bool} (hpolled : v.polled = some sharedVn) :
      VisitStep cfg currentProcessId v .sync
        { v with mode := v.mode.syncMode sharedVn, polled := none }
  | markActivity {v : Visit Exe κ} :
      VisitStep cfg currentProcessId v .markActivity
        { v with mode := v.mode.syncMode v.mode.sharedFlag }
  | toggle {v : Visit Exe κ} :
      VisitStep cfg currentProcessId v .toggle
        { v with
          mode := { v.mode with sharedFlag := !v.mode.sharedFlag }
          pendingToggleMode := some !v.mode.sharedFlag
          kToggleVN := true }
  | drainToggle {v : Visit Exe κ} {foregroundPid : Nat} {reading : BrowserReading}
      (hposted : v.kToggleVN = true) (hblocked : v.mode.blocksToggle cfg foregroundPid = true) :
      VisitStep cfg currentProcessId v (.drainToggle foregroundPid reading)
        { v with
          mode := v.mode.applyToggleVN cfg v.pendingToggleMode foregroundPid reading
          pendingToggleMode := none
          kToggleVN := false }

/-- A poll finds the flag as the mode, and nothing stale is published; a window without a lock
follows a lock only if the flag is the mode and no suppression has to be left; the browser context
asks for no other mode. -/
def Undisturbed (cfg : Config) (v : Visit Exe κ) : VisitEvent Exe κ → Prop
  | .focus cls compatible reading =>
      (∀ target, resolveBrowserModeTarget cls.isExcluded cls.isForcedVietnamese reading.route
          reading.requestedMode = some target →
        target = (v.mode.checkLayoutChange cfg compatible).vietnameseMode) ∧
      (¬v.mode.Unlocked → cls.perAppMode = .none →
        v.mode.Published ∧
          (v.mode.layoutSuppressed = true → compatible.getD v.mode.cachedIsCompatLayout = false))
  | .tickPoll _ reading => v.mode.AsksNothing reading
  | .publish k => ∀ sharedMode, v.notice k = some sharedMode → sharedMode = v.mode.sharedMode
  | .sync => ∀ sharedVn, v.polled = some sharedVn → sharedVn = v.mode.vietnameseMode
  | .markActivity => v.mode.Published
  | .notify _ => True
  | .poll => True
  | .toggle => True
  | .drainToggle _ _ => True

/-- What is kept during a visit. -/
structure Away (cfg : Config) (m : Bool) (v : Visit Exe κ) : Prop where
  logical : v.mode.Logical cfg m
  published : v.mode.Unlocked → v.kToggleVN = false → v.mode.Published
  replayed : v.mode.Unlocked → v.mode.Replayed
  locks : ¬v.mode.Unlocked → cfg.excludeApps = true

/-- A normal application has the focus and nothing is under way. -/
structure Settled (m : Bool) (v : Visit Exe κ) : Prop where
  mode : v.mode.vietnameseMode = m
  flag : v.mode.sharedFlag = m
  unlocked : v.mode.Unlocked
  unsuppressed : v.mode.layoutSuppressed = false

omit [DecidableEq Exe] [DecidableEq κ] in
theorem Settled.away (h : Settled m v) : Away cfg m v where
  logical := by
    refine ⟨?_, fun hsuppressed => ?_, fun hsuppressed => ?_⟩
    · rw [h.unsuppressed, if_neg Bool.false_ne_true]
      exact h.mode
    · cases h.unsuppressed.symm.trans hsuppressed
    · cases h.unsuppressed.symm.trans hsuppressed
  published _ _ := h.flag.trans h.mode.symm
  replayed _ hsuppressed := by cases h.unsuppressed.symm.trans hsuppressed
  locks hlocked := absurd h.unlocked hlocked

omit [DecidableEq κ] in
/-- The window of an application or a helper window gets the focus. -/
theorem Away.enterWindow {cls : FocusClassification Exe} {compatible : Option Bool}
    {reading : BrowserReading} (h : Away cfg m v)
    (hundisturbed : Undisturbed cfg v (.focus cls compatible reading : VisitEvent Exe κ))
    (hlock : cls.perAppMode ≠ .none → cfg.excludeApps = true) :
    Away cfg m { v with
        mode := v.mode.enterWindow cfg currentProcessId cls compatible reading } := by
  obtain ⟨hasks, hstale⟩ := hundisturbed
  have hentered : State.Entered cls reading (v.mode.checkLayoutChange cfg compatible)
      (v.mode.enterWindow cfg currentProcessId cls compatible reading) :=
        State.enterWindow_entered hasks
  have hcls : cls.isExcluded = false → cls.isForcedVietnamese = false → cls.perAppMode = .none := by
    intro hexcluded hforced
    cases hmode : cls.perAppMode with
    | none => rfl
    | forceEnglish =>
        rw [FocusClassification.isExcluded, hmode] at hexcluded
        cases hexcluded
    | forceVietnamese =>
        rw [FocusClassification.isForcedVietnamese, hmode] at hforced
        cases hforced
  constructor
  · exact (h.logical.checkLayoutChange compatible).congr hentered.mode hentered.suppressed
      hentered.before
  · intro hunlocked hposted
    have hshared := State.Unlocked.sharedMode hunlocked
    refine hentered.flag.elim (fun hflag => ?_) fun hflag => hflag.trans hshared
    rw [State.Published, hflag, hentered.mode]
    by_cases hbefore : v.mode.Unlocked
    · exact (h.published hbefore hposted).checkLayoutChange compatible
    · rw [State.checkLayoutChange_of_locked hbefore]
      exact (hstale hbefore (hcls (hentered.excluded.symm.trans hunlocked.1)
        (hentered.forced.symm.trans hunlocked.2))).1
  · intro hunlocked
    rw [State.Replayed, hentered.suppressed, hentered.cached]
    by_cases hbefore : v.mode.Unlocked
    · exact (h.replayed hbefore).checkLayoutChange h.logical hbefore compatible
    · rw [State.checkLayoutChange_of_locked hbefore]
      exact (hstale hbefore (hcls (hentered.excluded.symm.trans hunlocked.1)
        (hentered.forced.symm.trans hunlocked.2))).2
  · intro hlocked
    refine hlock fun hnone => hlocked ⟨?_, ?_⟩
    · rw [hentered.excluded, FocusClassification.isExcluded, hnone]
      rfl
    · rw [hentered.forced, FocusClassification.isForcedVietnamese, hnone]
      rfl

omit [DecidableEq Exe] [DecidableEq κ] in
theorem Away.of_locked {mode : State Exe} {pending polled : Option Bool} {kToggleVN : Bool}
    {notice : κ → Option Bool} (hlogical : mode.Logical cfg m) (hlocked : ¬mode.Unlocked)
    (hlock : cfg.excludeApps = true) :
    Away cfg m (Visit.mk mode pending kToggleVN polled notice) where
  logical := hlogical
  published hunlocked := absurd hunlocked hlocked
  replayed hunlocked := absurd hunlocked hlocked
  locks _ := hlock

omit [DecidableEq κ] in
theorem Away.focus {cls : FocusClassification Exe} {compatible : Option Bool}
    {reading : BrowserReading} (hsmart : cfg.smartSwitch = false) (h : Away cfg m v)
    (hundisturbed : Undisturbed cfg v (.focus cls compatible reading : VisitEvent Exe κ))
    (hwindow : cls.perAppMode = .forceEnglish ∨ cls.skipAppTracking = true)
    (hlock : cls.perAppMode ≠ .none → cfg.excludeApps = true) :
    Away cfg m { v with
        mode := v.mode.applyFocus cfg currentProcessId cls compatible reading } := by
  have hentered : Away cfg m
      { v with mode := v.mode.enterWindow cfg currentProcessId cls compatible reading } :=
    h.enterWindow hundisturbed hlock
  have hflags : State.Entered cls reading (v.mode.checkLayoutChange cfg compatible)
      (v.mode.enterWindow cfg currentProcessId cls compatible reading) :=
    State.enterWindow_entered hundisturbed.1
  rw [State.applyFocus]
  generalize v.mode.enterWindow cfg currentProcessId cls compatible reading =
    entered at hentered hflags ⊢
  by_cases hskip : cls.skipAppTracking = true
  · simp only [if_pos hskip]
    exact hentered
  · have hexcluded : cls.isExcluded = true := decide_eq_true (hwindow.resolve_right hskip)
    simp only [if_neg hskip]
    split_ifs with hfeatures
    · exact hentered
    · cases cls.exeName with
      | none => exact hentered
      | some exe =>
          have hlocked : ¬entered.Unlocked := fun hunlocked => by
            cases (hflags.excluded.trans hexcluded).symm.trans hunlocked.1
          simp only [State.enterApp, State.leaveApp_of_smartSwitch_off hsmart, if_pos hexcluded,
            State.enterExcludedApp]
          split_ifs
          · exact Away.of_locked (hentered.logical.congr rfl rfl rfl)
              hlocked (hentered.locks hlocked)
          · exact Away.of_locked (hentered.logical.congr rfl rfl rfl)
              hlocked (hentered.locks hlocked)

omit [DecidableEq Exe] [DecidableEq κ] in
theorem Away.tickPoll {compatible : Option Bool} {reading : BrowserReading} (h : Away cfg m v)
    (hasks : v.mode.AsksNothing reading) :
    Away cfg m { v with mode := v.mode.applyTickPoll cfg compatible reading } := by
  have hrefresh : Away cfg m { v with mode := v.mode.refreshBrowserRoute reading } := by
    obtain heq | heq := State.refreshBrowserRoute_of_asksNothing hasks
    · rw [heq]
      exact ⟨h.logical.congr rfl rfl rfl, h.published, h.replayed, h.locks⟩
    · rw [heq]
      exact ⟨h.logical.congr rfl rfl rfl, fun hunlocked _ => State.Unlocked.sharedMode hunlocked,
        h.replayed, h.locks⟩
  have hlocks := State.checkLayoutChange_sameApps cfg compatible
    (v.mode.refreshBrowserRoute reading)
  have hunlocked : (v.mode.applyTickPoll cfg compatible reading).Unlocked ↔
      (v.mode.refreshBrowserRoute reading).Unlocked := by
    rw [State.Unlocked, State.Unlocked, State.applyTickPoll, hlocks.excluded, hlocks.forced]
  constructor
  · exact hrefresh.logical.checkLayoutChange compatible
  · intro hfree hposted
    exact (hrefresh.published (hunlocked.mp hfree) hposted).checkLayoutChange compatible
  · intro hfree
    exact (hrefresh.replayed (hunlocked.mp hfree)).checkLayoutChange hrefresh.logical
      (hunlocked.mp hfree) compatible
  · exact fun hlocked => hrefresh.locks fun hfree => hlocked (hunlocked.mpr hfree)

omit [DecidableEq Exe] in
theorem syncMode_of_eq {s : State Exe} {sharedVn : Bool} (h : sharedVn = s.vietnameseMode) :
    s.syncMode sharedVn = s := if_neg (not_not_intro h)

theorem applyToggleVN_of_blocked {s : State Exe} {foregroundPid : Nat}
    (pendingToggleMode : Option Bool)
    (reading : BrowserReading) (h : s.blocksToggle cfg foregroundPid = true) :
    ∃ flag, s.applyToggleVN cfg pendingToggleMode foregroundPid reading =
      { s with sharedFlag := flag } := by
  rw [State.blocksToggle, Bool.and_eq_true, Bool.or_eq_true, Bool.and_eq_true, Bool.and_eq_true,
    Bool.and_eq_true] at h
  obtain ⟨hexclude, ⟨hexcluded, hgenuine⟩ | ⟨⟨hexcluded, hforced⟩, hgenuine⟩⟩ := h
  · refine ⟨false, ?_⟩
    simp only [State.applyToggleVN, hexclude, hexcluded, hgenuine, Bool.and_self, if_true]
  · refine ⟨true, ?_⟩
    rw [Bool.not_eq_true'] at hexcluded
    simp only [State.applyToggleVN, hexclude, hexcluded, hforced, hgenuine,
      Bool.and_self, Bool.and_false, Bool.false_eq_true, if_true, if_false]

theorem Away.step {event : VisitEvent Exe κ} (hsmart : cfg.smartSwitch = false) (h : Away cfg m v)
    (hundisturbed : Undisturbed cfg v event) (hstep : VisitStep cfg currentProcessId v event v') :
    Away cfg m v' := by
  cases hstep with
  | focus hwindow hlock => exact h.focus hsmart hundisturbed hwindow hlock
  | tickPoll => exact h.tickPoll hundisturbed
  | notify => exact ⟨h.logical, h.published, h.replayed, h.locks⟩
  | @publish k sharedMode hnotice =>
      refine ⟨h.logical.congr rfl rfl rfl, fun hunlocked _ => ?_, h.replayed, h.locks⟩
      exact (hundisturbed sharedMode hnotice).trans (State.Unlocked.sharedMode hunlocked)
  | poll => exact ⟨h.logical, h.published, h.replayed, h.locks⟩
  | @sync sharedVn hpolled =>
      rw [syncMode_of_eq (hundisturbed sharedVn hpolled)]
      exact ⟨h.logical, h.published, h.replayed, h.locks⟩
  | markActivity =>
      rw [syncMode_of_eq hundisturbed]
      exact ⟨h.logical, h.published, h.replayed, h.locks⟩
  | toggle =>
      refine ⟨h.logical.congr rfl rfl rfl, fun _ hposted => ?_, h.replayed, h.locks⟩
      cases hposted
  | @drainToggle foregroundPid reading hposted hblocked =>
      obtain ⟨flag, hflag⟩ := applyToggleVN_of_blocked v.pendingToggleMode reading hblocked
      have hlocked : ¬v.mode.Unlocked := fun hunlocked => by
        rw [State.blocksToggle, hunlocked.1, hunlocked.2] at hblocked
        simp at hblocked
      rw [hflag]
      exact Away.of_locked (h.logical.congr rfl rfl rfl) hlocked (h.locks hlocked)

/-- Nothing that happens while excluded applications and helper windows have the focus changes the
mode of the user: a normal application finds it again, and the flag is the mode. -/
theorem mode_of_visit {start : Visit Exe κ} {events : List (VisitEvent Exe κ)}
    (hsmart : cfg.smartSwitch = false) (hstart : Settled m start)
    (h : Run (Meeting (Undisturbed cfg) (VisitStep cfg currentProcessId)) start events v)
    (hposted : v.kToggleVN = false) {cls : FocusClassification Exe} {exe : Exe}
    {reading : BrowserReading} (hnormal : cls.perAppMode = .none) (hexe : cls.exeName = some exe)
    (htracked : cls.skipAppTracking = false)
    (hasks : ∀ target, resolveBrowserModeTarget cls.isExcluded cls.isForcedVietnamese reading.route
      reading.requestedMode = some target →
        target = (v.mode.checkLayoutChange cfg (some true)).vietnameseMode) :
    (v.mode.applyFocus cfg currentProcessId cls (some true) reading).vietnameseMode = m ∧
      (v.mode.applyFocus cfg currentProcessId cls (some true) reading).sharedFlag = m := by
  have haway : Away cfg m v := by
    apply h.invariant hstart.away
    exact fun _ _ _ hbefore hstep => hbefore.step hsmart hstep.1 hstep.2
  have hentered : State.Entered cls reading (v.mode.checkLayoutChange cfg (some true))
      (v.mode.enterWindow cfg currentProcessId cls (some true) reading) :=
        State.enterWindow_entered hasks
  have hexcluded : cls.isExcluded = false := by rw [FocusClassification.isExcluded, hnormal]; rfl
  have hforced : cls.isForcedVietnamese = false := by
    rw [FocusClassification.isForcedVietnamese, hnormal]
    rfl
  have hlogical : (v.mode.enterWindow cfg currentProcessId cls (some true) reading).Logical cfg m :=
    (haway.logical.checkLayoutChange (some true)).congr hentered.mode
      hentered.suppressed hentered.before
  have hfree : (v.mode.enterWindow cfg currentProcessId cls (some true) reading).Unlocked :=
    ⟨hentered.excluded.trans hexcluded, hentered.forced.trans hforced⟩
  have hcached :=
    hentered.cached.trans (State.cachedIsCompatLayout_checkLayoutChange cfg true v.mode)
  have hpublished : v.mode.Unlocked →
      (v.mode.enterWindow cfg currentProcessId cls (some true) reading).layoutSuppressed = false ∧
        (v.mode.enterWindow cfg currentProcessId cls (some true) reading).Published := by
    intro hunlocked
    constructor
    · rw [hentered.suppressed, ← Bool.not_eq_true]
      intro hsuppressed
      have hfalse :=
        (haway.replayed hunlocked).checkLayoutChange haway.logical hunlocked (some true) hsuppressed
      rw [State.cachedIsCompatLayout_checkLayoutChange] at hfalse
      cases hfalse
    · refine hentered.flag.elim (fun hflag => ?_) fun hflag =>
        hflag.trans (State.Unlocked.sharedMode hfree)
      rw [State.Published, hflag, hentered.mode]
      exact (haway.published hunlocked hposted).checkLayoutChange (some true)
  rw [State.applyFocus, htracked, hexe]
  generalize v.mode.enterWindow cfg currentProcessId cls (some true) reading = entered at *
  have hsame : v.mode.Unlocked → entered.vietnameseMode = m ∧ entered.sharedFlag = m := by
    intro hunlocked
    obtain ⟨hsuppressed, hflag⟩ := hpublished hunlocked
    exact ⟨hlogical.mode hsuppressed, hflag.trans (hlogical.mode hsuppressed)⟩
  simp only [Bool.false_eq_true, if_false]
  split_ifs with hfeatures
  · refine hsame ?_
    by_contra hlocked
    rw [haway.locks hlocked] at hfeatures
    simp at hfeatures
  · have happ : State.applyAppMode cfg cls exe { entered with lastRealExe := some exe } =
        { entered with lastRealExe := some exe } := by
      rw [State.applyAppMode, hforced, hsmart]
      rfl
    simp only [State.enterApp, State.leaveApp_of_smartSwitch_off hsmart,
      hexcluded, Bool.false_eq_true, if_false, happ]
    by_cases hunlocked : v.mode.Unlocked
    · rw [hunlocked.1, hunlocked.2]
      exact hsame hunlocked
    · have hlock : (v.mode.isExcludedApp || v.mode.isForcedVnApp) = true := by
        rw [← Bool.not_eq_false, Bool.or_eq_false_iff]
        exact hunlocked
      rw [if_pos hlock]
      exact State.replayLayout_mode (hlogical.congr rfl rfl rfl) hfree hcached

end Visit

/-- Smart switch is off. -/
def locksOnly : Config where
  smartSwitch := false
  excludeApps := true
  tsfApps := false
  cjkAutoSwitch := false
  noOverrides := true

/-- Vietnamese mode in the application `false`; the application `true` is excluded. -/
def vietnameseApp : Visit Bool Unit where
  mode :=
    { vietnameseMode := true, sharedFlag := true, isExcludedApp := false, isForcedVnApp := false,
      excludedPid := 0, forcedVnPid := 0, browserContextActive := false, browserRoute := .default,
      cachedIsCompatLayout := true, layoutSuppressed := false, modeBeforeCjk := true,
      activeExe := some false, lastRealExe := some false, appModeMap := [] }

def appWindow (excluded : Bool) : FocusClassification Bool where
  exeName := some excluded
  pid := if excluded then 2 else 1
  perAppMode := decidePerAppMode excluded false
  skipAppTracking := false

/-- Without a poll during the visit the mode is Vietnamese again. -/
theorem mode_of_visit_once : ∃ (events : List (VisitEvent Bool Unit)) (v : Visit Bool Unit),
    Run (VisitStep locksOnly 0) vietnameseApp events v ∧ v.mode.sharedFlag = false ∧
      (v.mode.applyFocus locksOnly 0 (appWindow false) (some true) {}).vietnameseMode = true ∧
      (v.mode.applyFocus locksOnly 0 (appWindow false) (some true) {}).sharedFlag = true := by
  have hrun : Run (Meeting (Undisturbed locksOnly) (VisitStep locksOnly 0)) vietnameseApp
      [.focus (appWindow true) (some true) {}, .notify (), .publish ()] _ :=
    .cons ⟨⟨nofun, fun hlocked => absurd ⟨rfl, rfl⟩ hlocked⟩, .focus (Or.inl rfl) fun _ => rfl⟩
      (.cons ⟨trivial, .notify⟩
        (.cons ⟨fun _ hnotice => (Option.some.inj hnotice).symm, .publish rfl⟩ .nil))
  exact ⟨_, _, hrun.mono fun _ _ _ hstep => hstep.2, rfl,
    mode_of_visit rfl ⟨rfl, rfl, ⟨rfl, rfl⟩, rfl⟩ hrun rfl rfl rfl rfl nofun⟩

/-- A poll during the visit takes the flag for the mode, and the application is left in English. -/
theorem not_mode_of_visit : ¬∀ (events : List (VisitEvent Bool Unit)) (v : Visit Bool Unit),
    Run (VisitStep locksOnly 0) vietnameseApp events v → v.kToggleVN = false →
      (v.mode.applyFocus locksOnly 0 (appWindow false) (some true) {}).vietnameseMode = true ∧
      (v.mode.applyFocus locksOnly 0 (appWindow false) (some true) {}).sharedFlag = true := by
  intro h
  have hrun : Run (VisitStep locksOnly 0) vietnameseApp
      [.focus (appWindow true) (some true) {}, .poll, .sync] _ :=
    .cons (.focus (Or.inl rfl) fun _ => rfl) (.cons .poll (.cons (.sync rfl) .nil))
  obtain ⟨hmode, -⟩ := h _ _ hrun rfl
  revert hmode
  decide

end FocusMode

end HookEngine

end VKey
