import Mathlib.Data.List.Perm.Subperm
import VKey.Hook.LayoutSwitch
import VKey.Support.Run

/-!
# Smart switch gives the applications their modes back

The mode of an application is saved when another one gets the focus, and restored when it gets it
again.  The layout check for the new window comes before the save, so the save may take a mode that
it has changed.
-/

namespace VKey

namespace HookEngine

namespace FocusMode

namespace State

variable {Exe : Type} [DecidableEq Exe] {cfg : Config} {s : State Exe}

/-- The mode that the user has in the application: a mode that the layout suppresses does not
count. -/
def ownMode (s : State Exe) : Bool :=
  if s.layoutSuppressed then s.modeBeforeCjk else s.vietnameseMode

/-! ## The map of the modes -/

theorem lookup_filter_ne (entries : List (Exe × Bool)) {exe other : Exe} (h : other ≠ exe) :
    (entries.filter fun entry => entry.1 ≠ exe).lookup other = entries.lookup other := by
  induction entries with
  | nil => rfl
  | cons entry rest ih =>
      by_cases hentry : entry.1 = exe
      · rw [List.filter_cons_of_neg (by simpa using hentry), ih, List.lookup_cons,
          beq_false_of_ne (hentry ▸ h)]
      · rw [List.filter_cons_of_pos (by simpa using hentry), List.lookup_cons, List.lookup_cons, ih]

theorem appMode_setAppMode (s : State Exe) (exe other : Exe) (mode : Bool) :
    (s.setAppMode exe mode).appMode other = if other = exe then some mode else s.appMode other := by
  rw [appMode, setAppMode, List.lookup_cons]
  by_cases h : other = exe
  · rw [if_pos h, beq_iff_eq.mpr h]
  · rw [if_neg h, beq_false_of_ne h]
    exact lookup_filter_ne s.appModeMap h

/-- The map has each application once, and only the given ones. -/
structure MapWithin (apps : List Exe) (s : State Exe) : Prop where
  nodup : (s.appModeMap.map Prod.fst).Nodup
  subset : s.appModeMap.map Prod.fst ⊆ apps

omit [DecidableEq Exe] in
theorem MapWithin.length_lt {apps : List Exe} (h : s.MapWithin apps)
    (hfew : apps.length < kMaxSmartSwitchEntries) :
    s.appModeMap.length < kMaxSmartSwitchEntries := by
  have hle := (List.subperm_of_subset h.nodup h.subset).length_le
  rw [List.length_map] at hle
  exact hle.trans_lt hfew

theorem MapWithin.setAppMode {apps : List Exe} (h : s.MapWithin apps)
    {exe : Exe} (hexe : exe ∈ apps)
    (mode : Bool) : (s.setAppMode exe mode).MapWithin apps := by
  have hsublist : ((s.appModeMap.filter fun entry => entry.1 ≠ exe).map Prod.fst).Sublist
      (s.appModeMap.map Prod.fst) := List.filter_sublist.map Prod.fst
  constructor
  · refine List.nodup_cons.mpr ⟨fun hmem => ?_, hsublist.nodup h.nodup⟩
    obtain ⟨entry, hentry, rfl⟩ := List.mem_map.mp hmem
    exact of_decide_eq_true (List.mem_filter.mp hentry).2 rfl
  · intro other hother
    rcases List.mem_cons.mp hother with rfl | hother
    · exact hexe
    · exact h.subset (hsublist.subset hother)

theorem saveAppMode_eq {apps : List Exe} (h : s.MapWithin apps)
    (hfew : apps.length < kMaxSmartSwitchEntries) (exe : Exe) (savedMode : Bool) :
    s.saveAppMode exe savedMode = s.setAppMode exe savedMode := by
  rw [saveAppMode, if_neg (not_le.mpr (h.length_lt hfew))]

/-! ## The restore -/

theorem vietnameseMode_restoreAppMode {exe : Exe} {mode : Bool} (h : s.appMode exe = some mode) :
    (s.restoreAppMode exe).vietnameseMode = mode := by
  rw [restoreAppMode, h]
  simp only
  split_ifs with hmode
  · rfl
  · exact (not_ne_iff.mp hmode).symm

theorem restoreAppMode_layout (exe : Exe) (s : State Exe) :
    (s.restoreAppMode exe).layoutSuppressed = s.layoutSuppressed ∧
    (s.restoreAppMode exe).modeBeforeCjk = s.modeBeforeCjk ∧
    (s.restoreAppMode exe).cachedIsCompatLayout = s.cachedIsCompatLayout := by
  rw [restoreAppMode]
  split
  · split_ifs <;> exact ⟨rfl, rfl, rfl⟩
  · exact ⟨rfl, rfl, rfl⟩

omit [DecidableEq Exe] in
/-- The replay for a compatible layout ends a suppression. -/
theorem vietnameseMode_replayLayout {mode : Bool} (hmode : s.vietnameseMode = mode)
    (hcached : s.cachedIsCompatLayout = true)
    (hbefore : s.layoutSuppressed = true → mode = s.modeBeforeCjk) :
    (s.replayLayout cfg).vietnameseMode = mode := by
  have hchange : (s.onLayoutChanged cfg s.cachedIsCompatLayout).vietnameseMode = mode := by
    obtain ⟨heq, -⟩ | ⟨-, -, hfalse, -⟩ | ⟨-, -, -, hsuppressed, heq⟩ :=
      onLayoutChanged_cases cfg s.cachedIsCompatLayout s
    · rw [heq]
      exact hmode
    · rw [hcached] at hfalse
      cases hfalse
    · rw [heq]
      exact (hbefore hsuppressed).symm
  rw [replayLayout]
  split_ifs <;> exact hchange

theorem applyAppMode_sameApps (cfg : Config) (cls : FocusClassification Exe)
    (exe : Exe) (s : State Exe) :
    SameApps s (s.applyAppMode cfg cls exe) := by
  rw [applyAppMode]
  split_ifs
  · rw [forceVietnamese]
    split_ifs <;> exact ⟨rfl, rfl, rfl, rfl, rfl, rfl⟩
  · rw [restoreAppMode]
    cases s.appMode exe with
    | none => exact ⟨rfl, rfl, rfl, rfl, rfl, rfl⟩
    | some mode =>
        simp only
        split_ifs <;> exact ⟨rfl, rfl, rfl, rfl, rfl, rfl⟩
  · exact ⟨rfl, rfl, rfl, rfl, rfl, rfl⟩

omit [DecidableEq Exe] in
theorem replayLayout_sameApps (cfg : Config) (s : State Exe) : SameApps s (s.replayLayout cfg) := by
  have hchange := (onLayoutChanged_sameApps cfg s.cachedIsCompatLayout s).1
  rw [replayLayout]
  split_ifs
  · exact hchange.trans (notifyModeChange_sameApps _)
  · exact hchange

theorem SameApps.appMode {s' : State Exe} (h : SameApps s s') (exe : Exe) :
    s'.appMode exe = s.appMode exe := by
  rw [State.appMode, State.appMode, h.appModeMap]

omit [DecidableEq Exe] in
theorem enterExcludedApp_sameApps (pid : Nat) (wasExcludedApp : Bool) (s : State Exe) :
    SameApps s (s.enterExcludedApp pid wasExcludedApp) := by
  rw [enterExcludedApp]
  split_ifs <;> exact ⟨rfl, rfl, rfl, rfl, rfl, rfl⟩

theorem enterApp_sameApps (cfg : Config) (cls : FocusClassification Exe)
    (exe : Exe) (before : State Exe) (savedMode : Bool) (s : State Exe) :
    SameApps { (leaveApp cfg before savedMode s) with lastRealExe := some exe }
      (enterApp cfg cls exe before savedMode s) := by
  rw [enterApp]
  split_ifs
  · exact enterExcludedApp_sameApps _ _ _
  · exact (applyAppMode_sameApps cfg cls exe _).trans (replayLayout_sameApps cfg _)
  · exact applyAppMode_sameApps cfg cls exe _

theorem appMode_leaveApp_of_unlocked {apps : List Exe} {before : State Exe}
    (hsmart : cfg.smartSwitch = true)
    (hbrowser : before.browserContextActive = false) (hmap : s.MapWithin apps)
    (hfew : apps.length < kMaxSmartSwitchEntries) (hunlocked : before.Unlocked)
    (savedMode : Bool) (exe : Exe) :
    (leaveApp cfg before savedMode s).appMode exe =
      if s.lastRealExe = some exe then some savedMode else s.appMode exe := by
  rw [leaveApp]
  cases hlast : s.lastRealExe with
  | none => rw [if_neg (Option.some_ne_none exe).symm]
  | some old =>
      simp only [hsmart, hbrowser, hunlocked.1, hunlocked.2, Bool.not_false, Bool.and_self, if_true,
        Option.some.injEq]
      rw [saveAppMode_eq hmap hfew, appMode_setAppMode]
      simp only [eq_comm]

/-- Under a lock nothing is saved. -/
theorem leaveApp_of_locked {before : State Exe} (hlocked : ¬before.Unlocked) (savedMode : Bool) :
    leaveApp cfg before savedMode s = s := by
  have hgate : (cfg.smartSwitch && !before.isExcludedApp && !before.isForcedVnApp &&
      !before.browserContextActive) = false := by
    rw [← Bool.not_eq_true]
    intro hgate
    simp only [Bool.and_eq_true, Bool.not_eq_true'] at hgate
    exact hlocked ⟨hgate.1.1.2, hgate.1.2⟩
  rw [leaveApp]
  cases s.lastRealExe with
  | none => rfl
  | some old =>
      rw [hgate]
      rfl

theorem MapWithin.leaveApp {apps : List Exe} {before : State Exe} (h : s.MapWithin apps)
    (hfew : apps.length < kMaxSmartSwitchEntries)
    (hlast : ∀ exe, s.lastRealExe = some exe → exe ∈ apps)
    (savedMode : Bool) : (State.leaveApp cfg before savedMode s).MapWithin apps := by
  rw [State.leaveApp]
  cases hreal : s.lastRealExe with
  | none => exact h
  | some old =>
      simp only
      split_ifs
      · rw [saveAppMode_eq h hfew]
        exact h.setAppMode (hlast old hreal) savedMode
      · exact h

theorem leaveApp_eq (cfg : Config) (before : State Exe) (savedMode : Bool) (s : State Exe) :
    ∃ appModeMap, leaveApp cfg before savedMode s = { s with appModeMap } := by
  rw [leaveApp]
  split
  · split_ifs
    · rw [saveAppMode]
      split_ifs <;> exact ⟨_, rfl⟩
    · exact ⟨s.appModeMap, rfl⟩
  · exact ⟨s.appModeMap, rfl⟩

/-- The application that is left has its own mode when it is saved: the window that gets the focus
brings a compatible layout back, or the layout check for it does not suppress Vietnamese, nor has
one done so before. -/
def KeepsOwnMode (compatible : Option Bool) (s : State Exe) : Prop :=
  (compatible = some true ∧ s.cachedIsCompatLayout = false) ∨
  (s.layoutSuppressed = true ∧ s.vietnameseMode = s.modeBeforeCjk) ∨
  (s.layoutSuppressed = false ∧
    (compatible = some false → s.cachedIsCompatLayout = true → s.vietnameseMode = false))

omit [DecidableEq Exe] in
theorem KeepsOwnMode.vietnameseMode_eq {compatible : Option Bool} (h : s.KeepsOwnMode compatible)
    (hsame : ∀ c, compatible = some c → c = s.cachedIsCompatLayout) :
    s.vietnameseMode = s.ownMode := by
  rw [ownMode]
  obtain ⟨hcompatible, hcached⟩ | ⟨hsuppressed, hmode⟩ | ⟨hsuppressed, -⟩ := h
  · rw [← hsame true hcompatible] at hcached
    cases hcached
  · rw [if_pos hsuppressed, hmode]
  · rw [hsuppressed, if_neg Bool.false_ne_true]

omit [DecidableEq Exe] in
/-- The mode that is saved. -/
theorem KeepsOwnMode.modeBeforeBrowserRefresh_eq {compatible : Option Bool}
    (h : s.KeepsOwnMode compatible) (hcjk : cfg.cjkAutoSwitch = true) (hunlocked : s.Unlocked) :
    s.modeBeforeBrowserRefresh cfg compatible = s.ownMode := by
  rw [modeBeforeBrowserRefresh]
  cases compatible with
  | none => exact h.vietnameseMode_eq nofun
  | some compatible =>
      rw [checkLayoutChange]
      split_ifs with hchanged
      · rw [ownMode]
        obtain ⟨heq, hskip⟩ | ⟨-, -, rfl, hsuppressed, heq⟩ | ⟨-, -, -, hsuppressed, heq⟩ :=
          onLayoutChanged_cases cfg compatible { s with cachedIsCompatLayout := compatible }
        · have hcompatible : compatible = !s.layoutSuppressed := hskip hunlocked hcjk
          rw [heq]
          cases hsuppressed : s.layoutSuppressed with
          | false => rfl
          | true =>
              rw [hsuppressed] at hcompatible
              obtain ⟨htrue, -⟩ | ⟨-, hmode⟩ | ⟨hfalse, -⟩ := h
              · rw [hcompatible] at htrue
                cases htrue
              · exact hmode
              · rw [hsuppressed] at hfalse
                cases hfalse
        · have hcached : s.cachedIsCompatLayout = true := by
            rw [← Bool.not_eq_false]
            exact hchanged.symm
          have hfree : s.layoutSuppressed = false := hsuppressed
          have hmode : s.vietnameseMode = false := by
            obtain ⟨htrue, -⟩ | ⟨htrue, -⟩ | ⟨-, hmode⟩ := h
            · cases htrue
            · rw [hfree] at htrue
              cases htrue
            · exact hmode rfl hcached
          rw [heq, hfree, hmode]
          rfl
        · rw [heq, if_pos hsuppressed]
          rfl
      · exact h.vietnameseMode_eq fun c hc => (Option.some.inj hc) ▸ not_ne_iff.mp hchanged

/-! ## The window that gets the focus -/

theorem enterWindow_entered_default (cfg : Config) (currentProcessId : Nat)
    (cls : FocusClassification Exe) (compatible : Option Bool) (s : State Exe) :
    Entered cls {} (s.checkLayoutChange cfg compatible)
      (s.enterWindow cfg currentProcessId cls compatible {}) := by
  refine enterWindow_entered fun target htarget => ?_
  simp [resolveBrowserModeTarget] at htarget

theorem applyFocus_tracked {currentProcessId : Nat} {cls : FocusClassification Exe} {exe : Exe}
    (hsmart : cfg.smartSwitch = true) (hskip : cls.skipAppTracking = false)
    (hexe : cls.exeName = some exe)
    (compatible : Option Bool) (reading : BrowserReading) (s : State Exe) :
    s.applyFocus cfg currentProcessId cls compatible reading =
      enterApp cfg cls exe s (s.modeBeforeBrowserRefresh cfg compatible)
        (s.enterWindow cfg currentProcessId cls compatible reading) := by
  simp [applyFocus, hsmart, hskip, hexe]

/-- A toggle writes the entry of the application that has the focus, whose window may be a helper
window. -/
theorem toggleMode_eq (hsmart : cfg.smartSwitch = true) (newMode : Bool) (s : State Exe) :
    (s.toggleMode cfg (some newMode) {}).browserContextActive = false ∧
    (s.toggleMode cfg (some newMode) {}).activeExe = s.activeExe ∧
    (s.toggleMode cfg (some newMode) {}).lastRealExe = s.lastRealExe ∧
    (s.toggleMode cfg (some newMode) {}).appModeMap =
      match s.activeExe with
      | some exe => (s.setAppMode exe newMode).appModeMap
      | none => s.appModeMap := by
  have hasks : AsksNothing {} s := by
    intro target htarget
    simp [resolveBrowserModeTarget] at htarget
  rw [toggleMode]
  obtain heq | heq := refreshBrowserRoute_of_asksNothing hasks
  all_goals
    rw [heq]
    cases hactive : s.activeExe <;> simp [notifyModeChange, setAppMode, hsmart, hactive]

theorem applyFocus_untracked {currentProcessId : Nat} {cls : FocusClassification Exe}
    (h : cls.skipAppTracking = true ∨ cls.exeName = none) (compatible : Option Bool)
    (reading : BrowserReading) (s : State Exe) :
    s.applyFocus cfg currentProcessId cls compatible reading =
      s.enterWindow cfg currentProcessId cls compatible reading := by
  rw [applyFocus]
  obtain hskip | hexe := h
  · rw [if_pos hskip]
  · rw [hexe]
    simp only [ite_self]

end State

/-! ## Runs -/

/-- The window belongs to a real application. -/
def FocusClassification.Tracked {Exe : Type} (cls : FocusClassification Exe) (exe : Exe) : Prop :=
  cls.skipAppTracking = false ∧ cls.exeName = some exe

/-- The state with the toggle that is under way, and for each application the mode that it had when
another one last took the focus from it. -/
structure Switch (Exe : Type) where
  mode : State Exe
  pendingToggleMode : Option Bool := none
  kToggleVN : Bool := false
  left : Exe → Option Bool := fun _ => none

inductive SwitchEvent (Exe : Type) where
  | focus (cls : FocusClassification Exe) (compatible : Option Bool)
  | layout (compatible : Option Bool)
  | toggle
  | drainToggle (foregroundPid : Nat)

section Runs

variable {Exe : Type} [DecidableEq Exe] {cfg : Config} {currentProcessId : Nat}
  {perApp : Exe → PerAppMode} {apps : List Exe} {w w' : Switch Exe}

/-- The modes at which the applications were left, with that of the application that a real one
takes the focus from. -/
def Switch.leave (perApp : Exe → PerAppMode) (w : Switch Exe) : Exe → Option Bool :=
  match w.mode.lastRealExe with
  | some old => if perApp old = .none then Function.update w.left old
        (some w.mode.ownMode) else w.left
  | none => w.left

/-- No browser context is active, and the flag of the shared state is written by this process alone.
The windows belong to the applications of the list, each with its lock. -/
inductive SwitchStep (cfg : Config) (currentProcessId : Nat)
    (perApp : Exe → PerAppMode) (apps : List Exe) :
    Switch Exe → SwitchEvent Exe → Switch Exe → Prop
  | focusApp {w : Switch Exe} {cls : FocusClassification Exe} {compatible : Option Bool} {exe : Exe}
      (htracked : cls.Tracked exe) (hknown : exe ∈ apps) (hlock : cls.perAppMode = perApp exe) :
      SwitchStep cfg currentProcessId perApp apps w (.focus cls compatible)
        { w with
          mode := w.mode.applyFocus cfg currentProcessId cls compatible {}
          left := w.leave perApp }
  | focusHelper {w : Switch Exe} {cls : FocusClassification Exe} {compatible : Option Bool}
      (huntracked : cls.skipAppTracking = true ∨ cls.exeName = none)
      (hknown : ∀ exe, cls.exeName = some exe → exe ∈ apps)
      (hlock : cls.perAppMode = (cls.exeName.map perApp).getD .none) :
      SwitchStep cfg currentProcessId perApp apps w (.focus cls compatible)
        { w with mode := w.mode.applyFocus cfg currentProcessId cls compatible {} }
  | layout {w : Switch Exe} {compatible : Option Bool} :
      SwitchStep cfg currentProcessId perApp apps w (.layout compatible)
        { w with mode := w.mode.applyTickPoll cfg compatible {} }
  | toggle {w : Switch Exe} :
      SwitchStep cfg currentProcessId perApp apps w .toggle
        { w with
          mode := { w.mode with sharedFlag := !w.mode.sharedFlag }
          pendingToggleMode := some !w.mode.sharedFlag
          kToggleVN := true }
  | drainToggle {w : Switch Exe} {foregroundPid : Nat} (hposted : w.kToggleVN = true) :
      SwitchStep cfg currentProcessId perApp apps w (.drainToggle foregroundPid)
        { w with
          mode := w.mode.applyToggleVN cfg w.pendingToggleMode foregroundPid {}
          pendingToggleMode := none
          kToggleVN := false }

/-- The application that is left has its own mode when it is saved, unless a window of an
application with a lock has come in between: then the map must have that mode already. -/
def SavesOwnMode (perApp : Exe → PerAppMode) (compatible : Option Bool) (s : State Exe) : Prop :=
  ∀ old, s.lastRealExe = some old → perApp old = .none →
    (s.Unlocked → s.KeepsOwnMode compatible) ∧ (¬s.Unlocked → s.appMode old = some s.ownMode)

/-- A suppression that is left together with a lock gives back the mode of the application that gets
the focus. -/
def LeavesNoSuppression (cls : FocusClassification Exe) (compatible : Option Bool)
    (s : State Exe) : Prop :=
  ∀ exe, cls.exeName = some exe → cls.perAppMode = .none → ¬s.Unlocked → s.layoutSuppressed = true →
    compatible.getD s.cachedIsCompatLayout = true → ∀ mode, s.appMode exe = some mode →
      mode = s.modeBeforeCjk

/-- A toggle that is not rejected writes the entry of the real application, or of one without a
mode. -/
def TogglesOwnMode (cfg : Config) (perApp : Exe → PerAppMode) (foregroundPid : Nat) (newMode : Bool)
    (s : State Exe) : Prop :=
  (cfg.excludeApps && s.isExcludedApp) = false → s.blocksToggle cfg foregroundPid = false →
    ∀ exe, s.activeExe = some exe → s.lastRealExe = some exe ∨ perApp exe ≠ .none ∨
      ∀ mode, s.appMode exe = some mode → mode = newMode

/-- The conditions on a step. -/
def Orderly (cfg : Config) (perApp : Exe → PerAppMode) (w : Switch Exe) : SwitchEvent Exe → Prop
  | .focus cls compatible =>
      ∀ exe, cls.Tracked exe →
        SavesOwnMode perApp compatible w.mode ∧ LeavesNoSuppression cls compatible w.mode
  | .drainToggle foregroundPid =>
      TogglesOwnMode cfg perApp foregroundPid (w.pendingToggleMode.getD w.mode.sharedFlag) w.mode
  | .layout _ => True
  | .toggle => True

/-- The map has the mode at which each normal application other than the real one was left. -/
structure Remembered (perApp : Exe → PerAppMode) (apps : List Exe) (w : Switch Exe) : Prop where
  posted : w.kToggleVN = true → w.pendingToggleMode.isSome
  browser : w.mode.browserContextActive = false
  map : w.mode.MapWithin apps
  active : ∀ exe, w.mode.activeExe = some exe → exe ∈ apps
  last : ∀ exe, w.mode.lastRealExe = some exe → exe ∈ apps
  left : ∀ exe, perApp exe = .none → w.mode.lastRealExe ≠ some exe →
    ∀ mode, w.left exe = some mode →
    w.mode.appMode exe = some mode

/-- After the save the map has the mode at which each normal application was left. -/
theorem Remembered.leave {cls : FocusClassification Exe} {compatible : Option Bool}
    (h : Remembered perApp apps w) (hsmart : cfg.smartSwitch = true)
    (hcjk : cfg.cjkAutoSwitch = true)
    (hfew : apps.length < kMaxSmartSwitchEntries) (hsaves : SavesOwnMode perApp compatible w.mode)
    {exe : Exe} (hnormal : perApp exe = .none) {mode : Bool}
    (hleft : w.leave perApp exe = some mode) :
    (State.leaveApp cfg w.mode (w.mode.modeBeforeBrowserRefresh cfg compatible)
      (w.mode.enterWindow cfg currentProcessId cls compatible {})).appMode exe = some mode := by
  have hentered := State.enterWindow_entered_default cfg currentProcessId cls compatible w.mode
  have hsame := State.checkLayoutChange_sameApps cfg compatible w.mode
  generalize w.mode.enterWindow cfg currentProcessId cls compatible {} = entered at hentered ⊢
  have hmap : entered.appModeMap = w.mode.appModeMap := hentered.appModeMap.trans hsame.appModeMap
  have hlast : entered.lastRealExe = w.mode.lastRealExe :=
    hentered.lastRealExe.trans hsame.lastRealExe
  have hmode : ∀ other, entered.appMode other = w.mode.appMode other := by
    intro other
    rw [State.appMode, State.appMode, hmap]
  have hother : w.mode.lastRealExe ≠ some exe → w.mode.appMode exe = some mode := by
    intro hne
    refine h.left exe hnormal hne mode ?_
    rw [Switch.leave] at hleft
    cases hreal : w.mode.lastRealExe with
    | none => rwa [hreal] at hleft
    | some old =>
        rw [hreal] at hleft hne
        simp only at hleft
        split_ifs at hleft
        · rwa [Function.update_of_ne fun heq => hne (congrArg some heq.symm)] at hleft
        · exact hleft
  have hown : w.mode.lastRealExe = some exe → w.mode.ownMode = mode := by
    intro hreal
    rw [Switch.leave, hreal] at hleft
    simp only [hnormal, if_true, Function.update_self, Option.some.injEq] at hleft
    exact hleft
  by_cases hunlocked : w.mode.Unlocked
  · have hwithin : entered.MapWithin apps := by
      constructor
      · rw [hmap]
        exact h.map.nodup
      · rw [hmap]
        exact h.map.subset
    rw [State.appMode_leaveApp_of_unlocked hsmart h.browser hwithin hfew hunlocked, hlast]
    split_ifs with hreal
    · rw [((hsaves exe hreal hnormal).1 hunlocked).modeBeforeBrowserRefresh_eq
        hcjk hunlocked, hown hreal]
    · rw [hmode]
      exact hother hreal
  · rw [State.leaveApp_of_locked hunlocked, hmode]
    by_cases hreal : w.mode.lastRealExe = some exe
    · rw [(hsaves exe hreal hnormal).2 hunlocked, hown hreal]
    · exact hother hreal

theorem Remembered.mode_setAppMode (h : Remembered perApp apps w) {exe : Exe} {newMode : Bool}
    (hown : w.mode.lastRealExe = some exe ∨ perApp exe ≠ .none ∨
      ∀ mode, w.mode.appMode exe = some mode → mode = newMode) {other : Exe} (hnormal :
      perApp other = .none)
    (hne : w.mode.lastRealExe ≠ some other) {mode : Bool} (hleft : w.left other = some mode) :
    (w.mode.setAppMode exe newMode).appMode other = some mode := by
  have hmode := h.left other hnormal hne mode hleft
  rw [State.appMode_setAppMode]
  split_ifs with heq
  · subst heq
    obtain hreal | hlocked | hsame := hown
    · exact absurd hreal hne
    · exact absurd hnormal hlocked
    · rw [hsame mode hmode]
  · exact hmode

/-- What a step that saves nothing leaves of the map. -/
theorem Remembered.congr (h : Remembered perApp apps w)
    (hposted : w'.kToggleVN = true → w'.pendingToggleMode.isSome)
    (hbrowser : w'.mode.browserContextActive = false)
    (hactive : ∀ exe, w'.mode.activeExe = some exe → exe ∈ apps)
    (hlast : w'.mode.lastRealExe = w.mode.lastRealExe)
    (hmap : w'.mode.appModeMap = w.mode.appModeMap)
    (hleft : w'.left = w.left) : Remembered perApp apps w' := by
  refine ⟨hposted, hbrowser, ⟨?_, ?_⟩, hactive, ?_, ?_⟩
  · rw [hmap]
    exact h.map.nodup
  · rw [hmap]
    exact h.map.subset
  · rw [hlast]
    exact h.last
  · intro exe hnormal hne mode hmode
    rw [hlast] at hne
    rw [hleft] at hmode
    rw [State.appMode, hmap]
    exact h.left exe hnormal hne mode hmode

theorem Remembered.activeExe_enterWindow (h : Remembered perApp apps w)
    {cls : FocusClassification Exe}
    (hknown : ∀ exe, cls.exeName = some exe → exe ∈ apps) (compatible : Option Bool) {exe : Exe}
    (hactive : (w.mode.enterWindow cfg currentProcessId cls compatible {}).activeExe = some exe) :
    exe ∈ apps := by
  obtain heq | heq :=
    (State.enterWindow_entered_default cfg currentProcessId cls compatible w.mode).activeExe
  · rw [heq, (State.checkLayoutChange_sameApps cfg compatible w.mode).activeExe] at hactive
    exact h.active exe hactive
  · exact hknown exe (heq.symm.trans hactive)

theorem Remembered.focusApp {cls : FocusClassification Exe} {compatible : Option Bool} {exe : Exe}
    (h : Remembered perApp apps w) (hsmart : cfg.smartSwitch = true)
    (hcjk : cfg.cjkAutoSwitch = true)
    (hfew : apps.length < kMaxSmartSwitchEntries) (hsaves : SavesOwnMode perApp compatible w.mode)
    (htracked : cls.Tracked exe) (hknown : exe ∈ apps) :
    Remembered perApp apps
      { w with
        mode := w.mode.applyFocus cfg currentProcessId cls compatible {}
        left := w.leave perApp } := by
  have hleave : ∀ other, perApp other = .none → ∀ mode, w.leave perApp other = some mode →
      (State.leaveApp cfg w.mode (w.mode.modeBeforeBrowserRefresh cfg compatible)
        (w.mode.enterWindow cfg currentProcessId cls compatible {})).appMode other = some mode :=
    fun other hnormal mode hleft => h.leave hsmart hcjk hfew hsaves hnormal hleft
  have hname : ∀ other, cls.exeName = some other → other ∈ apps := by
    intro other hother
    rw [htracked.2] at hother
    exact Option.some.inj hother ▸ hknown
  have hactive :
    ∀ other, (w.mode.enterWindow cfg currentProcessId cls compatible {}).activeExe = some other →
      other ∈ apps := fun _ hother => h.activeExe_enterWindow hname compatible hother
  have hentered := State.enterWindow_entered_default cfg currentProcessId cls compatible w.mode
  have hsame := State.checkLayoutChange_sameApps cfg compatible w.mode
  rw [State.applyFocus_tracked hsmart htracked.1 htracked.2]
  generalize w.mode.enterWindow cfg currentProcessId cls compatible {} = entered at *
  have hwithin : entered.MapWithin apps := by
    constructor
    · rw [hentered.appModeMap, hsame.appModeMap]
      exact h.map.nodup
    · rw [hentered.appModeMap, hsame.appModeMap]
      exact h.map.subset
  have hlast : ∀ other, entered.lastRealExe = some other → other ∈ apps := by
    rw [hentered.lastRealExe, hsame.lastRealExe]
    exact h.last
  have hmap : (State.leaveApp cfg w.mode (w.mode.modeBeforeBrowserRefresh cfg compatible)
      entered).MapWithin apps := hwithin.leaveApp hfew hlast _
  have hafter := State.enterApp_sameApps cfg cls exe w.mode
    (w.mode.modeBeforeBrowserRefresh cfg compatible) entered
  obtain ⟨appModeMap, heq⟩ := State.leaveApp_eq cfg w.mode
    (w.mode.modeBeforeBrowserRefresh cfg compatible) entered
  refine ⟨h.posted, ?_, ⟨?_, ?_⟩, ?_, ?_, ?_⟩
  · rw [hafter.browser, heq]
    exact hentered.browser
  · rw [hafter.appModeMap]
    exact hmap.nodup
  · rw [hafter.appModeMap]
    exact hmap.subset
  · intro other hother
    rw [hafter.activeExe, heq] at hother
    exact hactive other hother
  · intro other hother
    rw [hafter.lastRealExe] at hother
    exact Option.some.inj hother ▸ hknown
  · intro other hnormal _ mode hmode
    rw [hafter.appMode other]
    exact hleave other hnormal mode hmode

theorem Remembered.toggleMode {newMode : Bool} {s : State Exe} (h : Remembered perApp apps w)
    (hsmart : cfg.smartSwitch = true) (hactive : s.activeExe = w.mode.activeExe)
    (hlast : s.lastRealExe = w.mode.lastRealExe) (hmap : s.appModeMap = w.mode.appModeMap)
    (hown : ∀ exe, w.mode.activeExe = some exe → w.mode.lastRealExe = some exe ∨
      perApp exe ≠ .none ∨
      ∀ mode, w.mode.appMode exe = some mode → mode = newMode) :
    Remembered perApp apps
      { w with
          mode := s.toggleMode cfg (some newMode) {}
          pendingToggleMode := none
          kToggleVN := false } := by
  obtain ⟨hbrowser, hactive', hlast', hmap'⟩ := State.toggleMode_eq hsmart newMode s
  cases hexe : w.mode.activeExe with
  | none =>
      rw [hactive, hexe] at hmap'
      refine h.congr nofun hbrowser ?_ (hlast'.trans hlast) (hmap'.trans hmap) rfl
      intro exe hnone
      rw [hactive', hactive, hexe] at hnone
      cases hnone
  | some exe =>
      rw [hactive, hexe] at hmap'
      have hset : (s.toggleMode cfg (some newMode) {}).appModeMap =
          (w.mode.setAppMode exe newMode).appModeMap := by
        simp only [hmap', State.setAppMode, hmap]
      have hwithin := h.map.setAppMode (h.active exe hexe) newMode
      refine ⟨nofun, hbrowser, ⟨?_, ?_⟩, ?_, ?_, ?_⟩
      · rw [hset]
        exact hwithin.nodup
      · rw [hset]
        exact hwithin.subset
      · intro other hother
        rw [hactive', hactive] at hother
        exact h.active other hother
      · intro other hother
        rw [hlast', hlast] at hother
        exact h.last other hother
      · intro other hnormal hne mode hmode
        rw [hlast', hlast] at hne
        rw [State.appMode, hset]
        exact h.mode_setAppMode (hown exe hexe) hnormal hne hmode

theorem Remembered.drainToggle {foregroundPid : Nat} (h : Remembered perApp apps w)
    (hsmart : cfg.smartSwitch = true) (hposted : w.kToggleVN = true)
    (htoggles : TogglesOwnMode cfg perApp foregroundPid
      (w.pendingToggleMode.getD w.mode.sharedFlag) w.mode) :
    Remembered perApp apps
      { w with
        mode := w.mode.applyToggleVN cfg w.pendingToggleMode foregroundPid {}
        pendingToggleMode := none
        kToggleVN := false } := by
  obtain ⟨newMode, hpending⟩ := Option.isSome_iff_exists.mp (h.posted hposted)
  rw [hpending, Option.getD_some] at htoggles
  rw [hpending, State.applyToggleVN]
  have hkept : ∀ s : State Exe, s.browserContextActive = false → s.activeExe = w.mode.activeExe →
      s.lastRealExe = w.mode.lastRealExe → s.appModeMap = w.mode.appModeMap →
      Remembered perApp apps { w with mode := s, pendingToggleMode := none, kToggleVN := false } :=
    fun s hbrowser hactive hlast hmap =>
      h.congr nofun hbrowser (fun exe hexe => h.active exe (hactive.symm.trans hexe)) hlast hmap rfl
  split_ifs with hexcluded hgenuine hforced hgenuine
  · exact hkept _ h.browser rfl rfl rfl
  · exact hkept _ h.browser rfl rfl rfl
  · exact hkept _ h.browser rfl rfl rfl
  · refine h.toggleMode hsmart rfl rfl rfl (htoggles (Bool.eq_false_iff.mpr hexcluded) ?_)
    rw [State.blocksToggle, Bool.eq_false_iff.mpr hgenuine]
    cases hfeature : cfg.excludeApps with
    | false => rfl
    | true =>
        rw [hfeature, Bool.true_and, Bool.not_eq_true] at hexcluded
        rw [hexcluded]
        simp
  · refine h.toggleMode hsmart rfl rfl rfl (htoggles (Bool.eq_false_iff.mpr hexcluded) ?_)
    rw [State.blocksToggle]
    cases hfeature : cfg.excludeApps with
    | false => rfl
    | true =>
        rw [hfeature, Bool.true_and, Bool.not_eq_true] at hexcluded hforced
        rw [hexcluded, hforced]
        simp

/-- Every step keeps what the map remembers. -/
theorem Remembered.step {event : SwitchEvent Exe} (h : Remembered perApp apps w)
    (hsmart : cfg.smartSwitch = true) (hcjk : cfg.cjkAutoSwitch = true)
    (hfew : apps.length < kMaxSmartSwitchEntries) (horderly : Orderly cfg perApp w event)
    (hstep : SwitchStep cfg currentProcessId perApp apps w event w') :
    Remembered perApp apps w' := by
  cases hstep with
  | focusApp htracked hknown hlock =>
      exact h.focusApp hsmart hcjk hfew (horderly _ htracked).1 htracked hknown
  | @focusHelper cls compatible huntracked hknown hlock =>
      have hentered := State.enterWindow_entered_default cfg currentProcessId cls compatible w.mode
      have hsame := State.checkLayoutChange_sameApps cfg compatible w.mode
      rw [State.applyFocus_untracked huntracked]
      exact h.congr h.posted hentered.browser
        (fun exe hexe => h.activeExe_enterWindow hknown compatible hexe)
        (hentered.lastRealExe.trans hsame.lastRealExe)
          (hentered.appModeMap.trans hsame.appModeMap) rfl
  | @layout compatible =>
      have hasks : State.AsksNothing {} w.mode := by
        intro target htarget
        simp [resolveBrowserModeTarget] at htarget
      have hsame := State.checkLayoutChange_sameApps cfg compatible (w.mode.refreshBrowserRoute {})
      have hroute : (w.mode.refreshBrowserRoute {}).browserContextActive = false ∧
          (w.mode.refreshBrowserRoute {}).activeExe = w.mode.activeExe ∧
          (w.mode.refreshBrowserRoute {}).lastRealExe = w.mode.lastRealExe ∧
          (w.mode.refreshBrowserRoute {}).appModeMap = w.mode.appModeMap := by
        obtain heq | heq := State.refreshBrowserRoute_of_asksNothing hasks
        · rw [heq]
          exact ⟨rfl, rfl, rfl, rfl⟩
        · rw [heq]
          exact ⟨rfl, rfl, rfl, rfl⟩
      obtain ⟨hbrowser, hactive, hlast, hmap⟩ := hroute
      refine h.congr h.posted (hsame.browser.trans hbrowser) ?_ (hsame.lastRealExe.trans hlast)
        (hsame.appModeMap.trans hmap) rfl
      intro exe hexe
      exact h.active exe ((hsame.activeExe.trans hactive).symm.trans hexe)
  | toggle => exact h.congr (fun _ => rfl) h.browser h.active rfl rfl rfl
  | drainToggle hposted => exact h.drainToggle hsmart hposted horderly

theorem Remembered.mode_restored {cls : FocusClassification Exe}
    {compatible : Option Bool} {exe : Exe}
    {mode : Bool} (h : Remembered perApp apps w) (hsmart : cfg.smartSwitch = true)
    (hcjk : cfg.cjkAutoSwitch = true) (hfew : apps.length < kMaxSmartSwitchEntries)
    (hsaves : SavesOwnMode perApp compatible w.mode)
    (hnone : LeavesNoSuppression cls compatible w.mode)
    (htracked : cls.Tracked exe) (hlock : cls.perAppMode = perApp exe)
    (hnormal : perApp exe = .none)
    (hcompatible : compatible.getD w.mode.cachedIsCompatLayout = true)
    (hleft : w.leave perApp exe = some mode) :
    (w.mode.applyFocus cfg currentProcessId cls compatible {}).vietnameseMode = mode := by
  have hmode : (State.leaveApp cfg w.mode (w.mode.modeBeforeBrowserRefresh cfg compatible)
      (w.mode.enterWindow cfg currentProcessId cls compatible {})).appMode exe = some mode :=
    h.leave hsmart hcjk hfew hsaves hnormal hleft
  have hentered := State.enterWindow_entered_default cfg currentProcessId cls compatible w.mode
  have hsame := State.checkLayoutChange_sameApps cfg compatible w.mode
  rw [State.applyFocus_tracked hsmart htracked.1 htracked.2]
  generalize w.mode.enterWindow cfg currentProcessId cls compatible {} = entered at *
  have hexcluded : cls.isExcluded = false := by
    rw [FocusClassification.isExcluded, hlock, hnormal]; rfl
  have hforced : cls.isForcedVietnamese = false := by
    rw [FocusClassification.isForcedVietnamese, hlock, hnormal]
    rfl
  have hlocked : ¬w.mode.Unlocked →
      (State.leaveApp cfg w.mode (w.mode.modeBeforeBrowserRefresh cfg compatible)
        entered).cachedIsCompatLayout =
          true ∧
        ((State.leaveApp cfg w.mode (w.mode.modeBeforeBrowserRefresh cfg compatible)
          entered).layoutSuppressed =
          true → mode = (State.leaveApp cfg w.mode (w.mode.modeBeforeBrowserRefresh cfg compatible)
            entered).modeBeforeCjk) := by
    intro hlocked
    have hcheck : w.mode.checkLayoutChange cfg compatible = _ :=
      State.checkLayoutChange_of_locked hlocked compatible
    rw [State.leaveApp_of_locked hlocked] at hmode ⊢
    rw [hentered.cached, hentered.suppressed, hentered.before, hcheck]
    refine ⟨hcompatible, fun hsuppressed => ?_⟩
    refine hnone exe htracked.2 (hlock.trans hnormal) hlocked hsuppressed hcompatible mode ?_
    rw [← hmode, State.appMode, State.appMode, hentered.appModeMap, hsame.appModeMap]
  obtain ⟨appModeMap, heq⟩ := State.leaveApp_eq cfg w.mode
    (w.mode.modeBeforeBrowserRefresh cfg compatible) entered
  have hbrowser : (State.leaveApp cfg w.mode (w.mode.modeBeforeBrowserRefresh cfg compatible)
      entered).browserContextActive = false := by
    rw [heq]
    exact hentered.browser
  rw [State.enterApp]
  generalize State.leaveApp cfg w.mode (w.mode.modeBeforeBrowserRefresh cfg compatible)
    entered = left at *
  have happ : State.applyAppMode cfg cls exe { left with lastRealExe := some exe } =
      State.restoreAppMode exe { left with lastRealExe := some exe } := by
    rw [State.applyAppMode, hforced, hsmart, hbrowser]
    rfl
  have hrestored :
    (State.restoreAppMode exe { left with lastRealExe := some exe }).vietnameseMode = mode :=
    State.vietnameseMode_restoreAppMode hmode
  obtain ⟨hsuppressed, hbefore, hcached⟩ :=
    State.restoreAppMode_layout exe { left with lastRealExe := some exe }
  simp only [hexcluded, Bool.false_eq_true, if_false, happ]
  split_ifs with hlock
  · have hnotfree : ¬w.mode.Unlocked := by
      intro hunlocked
      rw [hunlocked.1, hunlocked.2] at hlock
      cases hlock
    obtain ⟨hcached', hbefore'⟩ := hlocked hnotfree
    refine State.vietnameseMode_replayLayout hrestored (hcached.trans hcached') ?_
    rw [hsuppressed, hbefore]
    exact hbefore'
  · exact hrestored

/-- A normal application of a compatible layout has its own mode again, after every run whose steps
meet the conditions. -/
theorem mode_of_switch {start : Switch Exe} {events : List (SwitchEvent Exe)}
    {cls : FocusClassification Exe}
    {compatible : Option Bool} {exe : Exe} {mode : Bool} (hsmart : cfg.smartSwitch = true)
    (hcjk : cfg.cjkAutoSwitch = true) (hfew : apps.length < kMaxSmartSwitchEntries)
    (hstart : Remembered perApp apps start)
    (h : Run (Meeting (Orderly cfg perApp) (SwitchStep cfg currentProcessId perApp apps))
      start events w)
    (hstep : SwitchStep cfg currentProcessId perApp apps w (.focus cls compatible) w')
    (horderly : Orderly cfg perApp w (.focus cls compatible)) (htracked : cls.Tracked exe)
    (hnormal : perApp exe = .none)
    (hcompatible : compatible.getD w.mode.cachedIsCompatLayout = true)
    (hleft : w'.left exe = some mode) : w'.mode.vietnameseMode = mode := by
  have hremembered : Remembered perApp apps w := by
    apply h.invariant hstart
    exact fun _ _ _ hbefore hstep => hbefore.step hsmart hcjk hfew hstep.1 hstep.2
  obtain ⟨hsaves, hnone⟩ := horderly exe htracked
  generalize hevent : SwitchEvent.focus cls compatible = event at hstep
  cases hstep with
  | @focusApp cls' compatible' exe' htracked' _ hlock =>
      obtain ⟨rfl, rfl⟩ := SwitchEvent.focus.inj hevent
      obtain rfl : exe = exe' := Option.some.inj (htracked.2.symm.trans htracked'.2)
      exact hremembered.mode_restored hsmart hcjk hfew hsaves hnone htracked hlock
        hnormal hcompatible hleft
  | @focusHelper cls' compatible' huntracked _ _ =>
      obtain ⟨rfl, rfl⟩ := SwitchEvent.focus.inj hevent
      obtain hskip | hexe := huntracked
      · rw [htracked.1] at hskip
        cases hskip
      · rw [htracked.2] at hexe
        cases hexe
  | layout => cases hevent
  | toggle => cases hevent
  | drainToggle => cases hevent

end Runs

/-- Smart switch and the switch for layouts are on. -/
def smartSwitchOnly : Config where
  smartSwitch := true
  excludeApps := false
  tsfApps := false
  cjkAutoSwitch := true
  noOverrides := true

/-- Vietnamese mode before the first application. -/
def noApp : Switch Bool where
  mode :=
    { vietnameseMode := true, sharedFlag := true, isExcludedApp := false, isForcedVnApp := false,
      excludedPid := 0, forcedVnPid := 0, browserContextActive := false, browserRoute := .default,
      cachedIsCompatLayout := true, layoutSuppressed := false, modeBeforeCjk := true,
      activeExe := none, lastRealExe := none, appModeMap := [] }

def normalWindow (exe : Bool) : FocusClassification Bool where
  exeName := some exe
  pid := if exe then 2 else 1
  perAppMode := .none
  skipAppTracking := false

theorem SwitchStep.normalWindow (exe : Bool) (compatible : Option Bool) (w : Switch Bool) :
    SwitchStep smartSwitchOnly 0 (fun _ => .none) [false, true] w
      (.focus (FocusMode.normalWindow exe) compatible)
      { w with
        mode := w.mode.applyFocus smartSwitchOnly 0 (FocusMode.normalWindow exe) compatible {}
        left := w.leave fun _ => .none } :=
  .focusApp ⟨rfl, rfl⟩ (by cases exe <;> simp) rfl

theorem orderly_normalWindow {w : Switch Bool} (hunlocked : w.mode.Unlocked)
    (hsuppressed : w.mode.layoutSuppressed = false) (exe : Bool) :
    Orderly smartSwitchOnly (fun _ => .none) w (.focus (normalWindow exe) none) :=
  fun _ _ => ⟨fun _ _ _ => ⟨fun _ => Or.inr (Or.inr ⟨hsuppressed, nofun⟩), absurd hunlocked⟩,
    fun _ _ _ hlocked => absurd hunlocked hlocked⟩

/-- The first application is switched to English, and a second one back to Vietnamese: the first one
has English again. -/
theorem mode_of_switch_toggled : ∃ w w' : Switch Bool,
    Run (SwitchStep smartSwitchOnly 0 (fun _ => .none) [false, true]) noApp
      [.focus (normalWindow false) none, .toggle, .drainToggle 1, .focus (normalWindow true) none,
        .toggle, .drainToggle 2] w ∧
    w.mode.vietnameseMode = true ∧
    SwitchStep smartSwitchOnly 0 (fun _ => .none)
    [false, true] w (.focus (normalWindow false) none) w' ∧
    w'.mode.vietnameseMode = false := by
  have hremembered : Remembered (fun _ => .none) [false, true] noApp :=
    ⟨nofun, rfl, ⟨List.nodup_nil, List.nil_subset _⟩, nofun, nofun, nofun⟩
  have hrun : Run (Meeting (Orderly smartSwitchOnly fun _ => .none)
      (SwitchStep smartSwitchOnly 0 (fun _ => .none) [false, true])) noApp
      [.focus (normalWindow false) none, .toggle, .drainToggle 1, .focus (normalWindow true) none,
        .toggle, .drainToggle 2] _ :=
    .cons ⟨orderly_normalWindow ⟨rfl, rfl⟩ rfl false, .normalWindow false none _⟩
      (.cons ⟨trivial, .toggle⟩ (.cons ⟨fun _ _ _ hexe => Or.inl hexe, .drainToggle rfl⟩
        (.cons ⟨orderly_normalWindow ⟨rfl, rfl⟩ rfl true, .normalWindow true none _⟩
          (.cons ⟨trivial, .toggle⟩
            (.cons ⟨fun _ _ _ hexe => Or.inl hexe, .drainToggle rfl⟩ .nil)))))
  have hstep := SwitchStep.normalWindow false none
  refine ⟨_, _, hrun.mono fun _ _ _ hstep => hstep.2, rfl, hstep _, ?_⟩
  exact mode_of_switch rfl rfl (by decide) hremembered hrun (hstep _)
    (orderly_normalWindow ⟨rfl, rfl⟩ rfl false) ⟨rfl, rfl⟩ rfl rfl rfl

/-- A visit to an application with a Japanese layout leaves the first one in English: the layout
check for the new window suppresses the mode before it is saved. -/
theorem not_mode_of_switch :
    ¬∀ (events : List (SwitchEvent Bool)) (w w' : Switch Bool) (mode : Bool),
    Run (SwitchStep smartSwitchOnly 0 (fun _ => .none) [false, true]) noApp events w →
    SwitchStep smartSwitchOnly 0 (fun _ => .none) [false, true] w
      (.focus (normalWindow false) (some true)) w' →
    w'.left false = some mode → w'.mode.vietnameseMode = mode := by
  intro h
  have hrun : Run (SwitchStep smartSwitchOnly 0 (fun _ => .none) [false, true]) noApp
      [.focus (normalWindow false) (some true), .focus (normalWindow true) (some false)] _ :=
    .cons (SwitchStep.normalWindow false (some true) _)
      (.cons (SwitchStep.normalWindow true (some false) _) .nil)
  have hmode := h _ _ _ true hrun (SwitchStep.normalWindow false (some true) _) rfl
  revert hmode
  decide

end FocusMode

end HookEngine

end VKey
