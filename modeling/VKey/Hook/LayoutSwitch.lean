import VKey.Hook.FocusMode

/-!
# What the layout check and the flags of a window change

The layout check suppresses the mode or restores it, and does nothing while an application has a
lock.
-/

namespace VKey

namespace HookEngine

namespace FocusMode

namespace State

variable {Exe : Type} {cfg : Config} {s : State Exe}

/-- No application has a lock on the mode. -/
def Unlocked (s : State Exe) : Prop := s.isExcludedApp = false ∧ s.isForcedVnApp = false

theorem Unlocked.sharedMode (h : s.Unlocked) : s.sharedMode = s.vietnameseMode := by
  rw [State.sharedMode, h.1, h.2]
  rfl

theorem onLayoutChanged_of_locked (h : ¬s.Unlocked) (compatible : Bool) :
    s.onLayoutChanged cfg compatible = s := by
  have hlock : s.isExcludedApp = true ∨ s.isForcedVnApp = true := by
    rw [Unlocked, not_and_or, Bool.not_eq_false, Bool.not_eq_false] at h
    exact h
  simp [onLayoutChanged, decideCjkSwitch, hlock]

/-- What a layout check can do. -/
theorem onLayoutChanged_cases (cfg : Config) (compatible : Bool) (s : State Exe) :
    s.onLayoutChanged cfg compatible = s ∧
        (s.Unlocked → cfg.cjkAutoSwitch = true → compatible = !s.layoutSuppressed) ∨
    (s.Unlocked ∧ cfg.cjkAutoSwitch = true ∧ compatible = false ∧ s.layoutSuppressed = false ∧
      s.onLayoutChanged cfg compatible =
        if s.vietnameseMode then
          notifyModeChange { s with
            layoutSuppressed := true, modeBeforeCjk := s.vietnameseMode, vietnameseMode := false }
        else { s with layoutSuppressed := true, modeBeforeCjk := s.vietnameseMode }) ∨
    (s.Unlocked ∧ cfg.cjkAutoSwitch = true ∧ compatible = true ∧ s.layoutSuppressed = true ∧
      s.onLayoutChanged cfg compatible =
        notifyModeChange
          { s with layoutSuppressed := false, vietnameseMode := s.modeBeforeCjk }) := by
  by_cases hunlocked : s.Unlocked
  · cases hcjk : cfg.cjkAutoSwitch with
    | false =>
        refine Or.inl ⟨?_, fun _ htrue => by cases htrue⟩
        simp [onLayoutChanged, decideCjkSwitch, hcjk]
    | true =>
        cases compatible <;> cases hsuppressed : s.layoutSuppressed
        · refine Or.inr (Or.inl ⟨hunlocked, rfl, rfl, rfl, ?_⟩)
          cases hmode : s.vietnameseMode <;>
            simp [onLayoutChanged, decideCjkSwitch, hcjk, hunlocked.1,
              hunlocked.2, hsuppressed, hmode]
        · refine Or.inl ⟨?_, fun _ _ => rfl⟩
          simp [onLayoutChanged, decideCjkSwitch, hcjk, hsuppressed]
        · refine Or.inl ⟨?_, fun _ _ => rfl⟩
          simp [onLayoutChanged, decideCjkSwitch, hcjk, hsuppressed]
        · refine Or.inr (Or.inr ⟨hunlocked, rfl, rfl, rfl, ?_⟩)
          cases hmode : s.vietnameseMode <;> cases hbefore : s.modeBeforeCjk <;>
            simp [onLayoutChanged, decideCjkSwitch, hcjk, hunlocked.1,
              hunlocked.2, hsuppressed, hmode, hbefore]
  · exact Or.inl
      ⟨onLayoutChanged_of_locked hunlocked compatible, fun hlock => absurd hlock hunlocked⟩

/-- What a layout check leaves as it is. -/
structure SameApps (s s' : State Exe) : Prop where
  excluded : s'.isExcludedApp = s.isExcludedApp
  forced : s'.isForcedVnApp = s.isForcedVnApp
  browser : s'.browserContextActive = s.browserContextActive
  activeExe : s'.activeExe = s.activeExe
  lastRealExe : s'.lastRealExe = s.lastRealExe
  appModeMap : s'.appModeMap = s.appModeMap

theorem SameApps.trans {s s' s'' : State Exe} (h : SameApps s s') (h' : SameApps s' s'') :
    SameApps s s'' :=
  ⟨h'.excluded.trans h.excluded, h'.forced.trans h.forced, h'.browser.trans h.browser,
    h'.activeExe.trans h.activeExe, h'.lastRealExe.trans h.lastRealExe,
      h'.appModeMap.trans h.appModeMap⟩

theorem notifyModeChange_sameApps (s : State Exe) : SameApps s s.notifyModeChange :=
  ⟨rfl, rfl, rfl, rfl, rfl, rfl⟩

theorem onLayoutChanged_sameApps (cfg : Config) (compatible : Bool) (s : State Exe) :
    SameApps s (s.onLayoutChanged cfg compatible) ∧
      (s.onLayoutChanged cfg compatible).cachedIsCompatLayout = s.cachedIsCompatLayout := by
  obtain ⟨heq, -⟩ | ⟨-, -, -, -, heq⟩ | ⟨-, -, -, -, heq⟩ := onLayoutChanged_cases cfg compatible s
  · rw [heq]
    exact ⟨⟨rfl, rfl, rfl, rfl, rfl, rfl⟩, rfl⟩
  · rw [heq]
    split_ifs <;> exact ⟨⟨rfl, rfl, rfl, rfl, rfl, rfl⟩, rfl⟩
  · rw [heq]
    exact ⟨⟨rfl, rfl, rfl, rfl, rfl, rfl⟩, rfl⟩

theorem checkLayoutChange_sameApps (cfg : Config) (compatible : Option Bool) (s : State Exe) :
    SameApps s (s.checkLayoutChange cfg compatible) := by
  cases compatible with
  | none => exact ⟨rfl, rfl, rfl, rfl, rfl, rfl⟩
  | some compatible =>
      rw [checkLayoutChange]
      split_ifs
      · obtain ⟨⟨hexcluded, hforced, hbrowser, hactive, hlast, hmap⟩, -⟩ :=
          onLayoutChanged_sameApps cfg compatible { s with cachedIsCompatLayout := compatible }
        exact ⟨hexcluded, hforced, hbrowser, hactive, hlast, hmap⟩
      · exact ⟨rfl, rfl, rfl, rfl, rfl, rfl⟩

theorem cachedIsCompatLayout_checkLayoutChange (cfg : Config) (compatible : Bool) (s : State Exe) :
    (s.checkLayoutChange cfg (some compatible)).cachedIsCompatLayout = compatible := by
  rw [checkLayoutChange]
  split_ifs with hchanged
  · exact (onLayoutChanged_sameApps cfg compatible { s with cachedIsCompatLayout := compatible }).2
  · exact (not_ne_iff.mp hchanged).symm

/-- Under a lock the check only notes the layout. -/
theorem checkLayoutChange_of_locked (h : ¬s.Unlocked) (compatible : Option Bool) :
    s.checkLayoutChange cfg compatible =
      { s with cachedIsCompatLayout := compatible.getD s.cachedIsCompatLayout } := by
  cases compatible with
  | none => rfl
  | some compatible =>
      rw [checkLayoutChange]
      split_ifs with hchanged
      · exact onLayoutChanged_of_locked (s := { s with cachedIsCompatLayout := compatible })
          h compatible
      · rw [Option.getD_some, not_ne_iff.mp hchanged]

/-! ## The read of the browser context -/

/-- The browser context asks for no other mode. -/
def AsksNothing (reading : BrowserReading) (s : State Exe) : Prop :=
  ∀ target, resolveBrowserModeTarget s.isExcludedApp s.isForcedVnApp reading.route
    reading.requestedMode =
      some target → target = s.vietnameseMode

theorem refreshBrowserRoute_of_asksNothing {reading : BrowserReading} (h : AsksNothing reading s) :
    s.refreshBrowserRoute reading =
        { s with browserContextActive := reading.contextActive, browserRoute := reading.route } ∨
    s.refreshBrowserRoute reading =
        notifyModeChange { s with
          browserContextActive := reading.contextActive, browserRoute := reading.route } := by
  rw [refreshBrowserRoute]
  split_ifs with hsame
  · exact Or.inl rfl
  · refine Or.inr ?_
    cases htarget : resolveBrowserModeTarget s.isExcludedApp s.isForcedVnApp reading.route
        reading.requestedMode with
    | none => rfl
    | some target =>
        obtain rfl := h target htarget
        rfl

/-! ## The window that gets the focus -/

/-- What the flags of a window change in the state after the layout check. -/
structure Entered (cls : FocusClassification Exe) (reading : BrowserReading)
    (checked entered : State Exe) :
    Prop where
  mode : entered.vietnameseMode = checked.vietnameseMode
  suppressed : entered.layoutSuppressed = checked.layoutSuppressed
  before : entered.modeBeforeCjk = checked.modeBeforeCjk
  cached : entered.cachedIsCompatLayout = checked.cachedIsCompatLayout
  excluded : entered.isExcludedApp = cls.isExcluded
  forced : entered.isForcedVnApp = cls.isForcedVietnamese
  flag : entered.sharedFlag = checked.sharedFlag ∨ entered.sharedFlag = entered.sharedMode
  browser : entered.browserContextActive = reading.contextActive
  activeExe : entered.activeExe = checked.activeExe ∨ entered.activeExe = cls.exeName
  lastRealExe : entered.lastRealExe = checked.lastRealExe
  appModeMap : entered.appModeMap = checked.appModeMap

theorem enterWindow_entered [DecidableEq Exe] {currentProcessId : Nat}
    {cls : FocusClassification Exe} {compatible : Option Bool} {reading : BrowserReading}
    (h : ∀ target, resolveBrowserModeTarget cls.isExcluded cls.isForcedVietnamese reading.route
      reading.requestedMode = some target → target =
        (s.checkLayoutChange cfg compatible).vietnameseMode) :
    Entered cls reading (s.checkLayoutChange cfg compatible)
      (s.enterWindow cfg currentProcessId cls compatible reading) := by
  rw [enterWindow]
  generalize s.checkLayoutChange cfg compatible = checked at h ⊢
  have hasks : AsksNothing reading (checked.takeWindow currentProcessId cls) := h
  have hactive : (checked.takeWindow currentProcessId cls).activeExe = checked.activeExe ∨
      (checked.takeWindow currentProcessId cls).activeExe = cls.exeName := by
    simp only [takeWindow]
    exact (ite_eq_or_eq _ _ _).symm
  obtain heq | heq := refreshBrowserRoute_of_asksNothing hasks
  · rw [heq]
    exact ⟨rfl, rfl, rfl, rfl, rfl, rfl, Or.inl rfl, rfl, hactive, rfl, rfl⟩
  · rw [heq]
    exact ⟨rfl, rfl, rfl, rfl, rfl, rfl, Or.inr rfl, rfl, hactive, rfl, rfl⟩

end State

end FocusMode

end HookEngine

end VKey
