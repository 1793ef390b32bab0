import VKey.Ipc.BrowserContext

/-!
# The mode and the application that has the focus

What the hook thread does with the mode when a focus is applied: the layout check, the locks of the
applications, the save and the restore of smart switch, and the notification that publishes the
mode.
-/

namespace VKey

namespace HookEngine

namespace FocusMode

open BrowserContext (BrowserRoute BrowserMode)

/-! ## The switch for Chinese, Japanese and Korean layouts -/

inductive CjkTransition where
  | none
  /-- The mode is suppressed. -/
  | enterCjk
  /-- The mode from before is restored. -/
  | leaveCjk
  deriving DecidableEq, Repr

inductive CjkBeep where
  | quiet
  | ok
  | asterisk
  deriving DecidableEq, Repr

structure CjkSwitchInputs where
  isCompatibleNow : Bool
  layoutSuppressed : Bool
  modeBeforeCjk : Bool
  vietnameseMode : Bool
  isExcluded : Bool
  isForcedVietnamese : Bool
  cjkAutoSwitchEnabled : Bool

structure CjkSwitchOutputs where
  transition : CjkTransition := .none
  newLayoutSuppressed : Bool
  newModeBeforeCjk : Bool
  newVietnameseMode : Bool
  needCommitComposition : Bool := false
  needNotifyMode : Bool := false
  beep : CjkBeep := .quiet

def decideCjkSwitch (inputs : CjkSwitchInputs) : CjkSwitchOutputs :=
  let out : CjkSwitchOutputs :=
    { newLayoutSuppressed := inputs.layoutSuppressed
      newModeBeforeCjk := inputs.modeBeforeCjk
      newVietnameseMode := inputs.vietnameseMode }
  if !inputs.cjkAutoSwitchEnabled then out
  else if inputs.isExcluded || inputs.isForcedVietnamese then out
  else if !inputs.isCompatibleNow && !inputs.layoutSuppressed then
    let out := { out with
      transition := .enterCjk
      newLayoutSuppressed := true
      newModeBeforeCjk := inputs.vietnameseMode
      needCommitComposition := true }
    if inputs.vietnameseMode then
      { out with newVietnameseMode := false, needNotifyMode := true, beep := .asterisk }
    else out
  else if inputs.isCompatibleNow && inputs.layoutSuppressed then
    let out := { out with
        transition := .leaveCjk, newLayoutSuppressed := false, needNotifyMode := true }
    if inputs.modeBeforeCjk != inputs.vietnameseMode then
      { out with
        newVietnameseMode := inputs.modeBeforeCjk
        beep := if inputs.modeBeforeCjk then .ok else .asterisk }
    else out
  else out

/-! ## The state -/

/-- What the focus path reads of the configuration. -/
structure Config where
  smartSwitch : Bool
  excludeApps : Bool
  tsfApps : Bool
  cjkAutoSwitch : Bool
  /-- No application has an encoding or an input method of its own. -/
  noOverrides : Bool

/-- The lock of an application. -/
inductive PerAppMode where
  | none
  | forceEnglish
  | forceVietnamese
  deriving DecidableEq, Repr

def decidePerAppMode (inExcludedSet inForcedVietnameseSet : Bool) : PerAppMode :=
  if inExcludedSet then .forceEnglish
  else if inForcedVietnameseSet then .forceVietnamese
  else .none

/-- What the worker has found out about the window that has the focus.  An application without a
name could not be resolved; it has no lock. -/
structure FocusClassification (Exe : Type) where
  exeName : Option Exe
  pid : Nat
  perAppMode : PerAppMode
  /-- The window is hidden or a helper window. -/
  skipAppTracking : Bool

def FocusClassification.isExcluded {Exe : Type} (cls : FocusClassification Exe) : Bool :=
  cls.perAppMode = .forceEnglish

def FocusClassification.isForcedVietnamese {Exe : Type} (cls : FocusClassification Exe) : Bool :=
  cls.perAppMode = .forceVietnamese

/-- What a read of the browser context gives for the application that has the focus. -/
structure BrowserReading where
  contextActive : Bool := false
  route : BrowserRoute := .default
  requestedMode : BrowserMode := .default
  deriving DecidableEq

def resolveBrowserModeTarget (excluded forcedVietnamese : Bool) (route : BrowserRoute)
    (mode : BrowserMode) :
    Option Bool :=
  if excluded || forcedVietnamese || route == .forceEnglish || mode == .default then none
  else if mode == .vietnamese then some true
  else if mode == .english then some false
  else none

structure State (Exe : Type) where
  vietnameseMode : Bool
  /-- `SharedFlags::VIETNAMESE_MODE` -/
  sharedFlag : Bool
  isExcludedApp : Bool
  isForcedVnApp : Bool
  excludedPid : Nat
  forcedVnPid : Nat
  browserContextActive : Bool
  browserRoute : BrowserRoute
  cachedIsCompatLayout : Bool
  layoutSuppressed : Bool
  modeBeforeCjk : Bool
  activeExe : Option Exe
  lastRealExe : Option Exe
  appModeMap : List (Exe × Bool)

namespace State

variable {Exe : Type}

/-- The mode that a notification publishes. -/
def sharedMode (s : State Exe) : Bool := s.isForcedVnApp || (!s.isExcludedApp && s.vietnameseMode)

/-- `NotifyModeChange` and its callback. -/
def notifyModeChange (s : State Exe) : State Exe := { s with sharedFlag := s.sharedMode }

def onLayoutChanged (cfg : Config) (isCompatibleNow : Bool) (s : State Exe) : State Exe :=
  let out := decideCjkSwitch
    { isCompatibleNow
      layoutSuppressed := s.layoutSuppressed
      modeBeforeCjk := s.modeBeforeCjk
      vietnameseMode := s.vietnameseMode
      isExcluded := s.isExcludedApp
      isForcedVietnamese := s.isForcedVnApp
      cjkAutoSwitchEnabled := cfg.cjkAutoSwitch }
  if out.transition = .none then s
  else
    let s := { s with
      layoutSuppressed := out.newLayoutSuppressed
      modeBeforeCjk := out.newModeBeforeCjk
      vietnameseMode := out.newVietnameseMode }
    if out.needNotifyMode then s.notifyModeChange else s

/-- `compatible` is the layout of the window in the foreground; there may be none. -/
def checkLayoutChange (cfg : Config) (compatible : Option Bool) (s : State Exe) : State Exe :=
  match compatible with
  | none => s
  | some compatible =>
      if compatible ≠ s.cachedIsCompatLayout then
        onLayoutChanged cfg compatible { s with cachedIsCompatLayout := compatible }
      else s

def refreshBrowserRoute (reading : BrowserReading) (s : State Exe) : State Exe :=
  let target :=
    resolveBrowserModeTarget s.isExcludedApp s.isForcedVnApp reading.route reading.requestedMode
  let routeChanged := s.browserRoute ≠ reading.route
  let modeChanged := target.isSome ∧ target ≠ some s.vietnameseMode
  let s := { s with browserContextActive := reading.contextActive, browserRoute := reading.route }
  if ¬routeChanged ∧ ¬modeChanged then s
  else notifyModeChange { s with vietnameseMode := target.getD s.vietnameseMode }

/-- What the map has for an application. -/
def appMode [DecidableEq Exe] (s : State Exe) (exe : Exe) : Option Bool := s.appModeMap.lookup exe

def setAppMode [DecidableEq Exe] (exe : Exe) (mode : Bool) (s : State Exe) : State Exe :=
  { s with appModeMap := (exe, mode) :: s.appModeMap.filter fun entry => entry.1 ≠ exe }

end State

def kMaxSmartSwitchEntries : Nat := 200

namespace State

variable {Exe : Type} [DecidableEq Exe]

/-- The save for the application that is left; a full map is cleared before it. -/
def saveAppMode (exe : Exe) (savedMode : Bool) (s : State Exe) : State Exe :=
  let s := if s.appModeMap.length ≥ kMaxSmartSwitchEntries then { s with appModeMap := [] } else s
  s.setAppMode exe savedMode

/-- The restore for the application that gets the focus. -/
def restoreAppMode (exe : Exe) (s : State Exe) : State Exe :=
  match s.appMode exe with
  | some mode => if mode ≠ s.vietnameseMode then notifyModeChange
        { s with vietnameseMode := mode } else s
  | none => s

/-- The lock of an application with forced Vietnamese. -/
def forceVietnamese (s : State Exe) : State Exe :=
  if !s.vietnameseMode then notifyModeChange { s with vietnameseMode := true } else s

/-- The layout check that the lock of the application that is left has kept off. -/
def replayLayout (cfg : Config) (s : State Exe) : State Exe :=
  let wasSuppressed := s.layoutSuppressed
  let s := s.onLayoutChanged cfg s.cachedIsCompatLayout
  if wasSuppressed = s.layoutSuppressed then s.notifyModeChange else s

/-- The name and the locks of the window that gets the focus. -/
def takeWindow (currentProcessId : Nat) (cls : FocusClassification Exe) (s : State Exe) :
    State Exe :=
  { s with
    activeExe :=
      if cls.exeName.isSome && cls.pid != 0 && cls.pid != currentProcessId then cls.exeName
      else s.activeExe
    isExcludedApp := cls.isExcluded
    isForcedVnApp := cls.isForcedVietnamese
    forcedVnPid := if cls.isForcedVietnamese then cls.pid else s.forcedVnPid }

/-- What is done for every window, up to where helper windows return. -/
def enterWindow (cfg : Config) (currentProcessId : Nat) (cls : FocusClassification Exe)
    (compatible : Option Bool) (reading : BrowserReading) (s : State Exe) : State Exe :=
  ((s.checkLayoutChange cfg compatible).takeWindow currentProcessId cls).refreshBrowserRoute reading

/-- The mode after the layout check, which the save takes. -/
def modeBeforeBrowserRefresh (cfg : Config) (compatible : Option Bool) (s : State Exe) : Bool :=
  (s.checkLayoutChange cfg compatible).vietnameseMode

/-- The save for the application that is left; `before` is the state before the focus was
applied. -/
def leaveApp (cfg : Config) (before : State Exe) (savedMode : Bool) (s : State Exe) : State Exe :=
  match s.lastRealExe with
  | some oldLastReal =>
      if cfg.smartSwitch && !before.isExcludedApp && !before.isForcedVnApp &&
        !before.browserContextActive then
        s.saveAppMode oldLastReal savedMode
      else s
  | none => s

def enterExcludedApp (pid : Nat) (wasExcludedApp : Bool) (s : State Exe) : State Exe :=
  let s := { s with excludedPid := pid }
  if !wasExcludedApp then s.notifyModeChange else s

/-- The mode of an application that is not excluded. -/
def applyAppMode (cfg : Config) (cls : FocusClassification Exe) (exe : Exe) (s : State Exe) :
    State Exe :=
  if cls.isForcedVietnamese then s.forceVietnamese
  else if cfg.smartSwitch && !s.browserContextActive then s.restoreAppMode exe
  else s

/-- What is done for the application itself. -/
def enterApp (cfg : Config) (cls : FocusClassification Exe) (exe : Exe) (before : State Exe)
    (savedMode : Bool) (s : State Exe) : State Exe :=
  let s := { (leaveApp cfg before savedMode s) with lastRealExe := some exe }
  if cls.isExcluded then s.enterExcludedApp cls.pid before.isExcludedApp
  else
    let s := s.applyAppMode cfg cls exe
    if before.isExcludedApp || before.isForcedVnApp then s.replayLayout cfg else s

/-- `ApplyFocusOnHookThread` -/
def applyFocus (cfg : Config) (currentProcessId : Nat) (cls : FocusClassification Exe)
    (compatible : Option Bool) (reading : BrowserReading) (s : State Exe) : State Exe :=
  let savedMode := s.modeBeforeBrowserRefresh cfg compatible
  let entered := s.enterWindow cfg currentProcessId cls compatible reading
  if cls.skipAppTracking then entered
  else if !cfg.smartSwitch && !cfg.excludeApps && !cfg.tsfApps && cfg.noOverrides then entered
  else
    match cls.exeName with
    | some exe => enterApp cfg cls exe s savedMode entered
    | none => entered

/-- `ApplyTickPollOnHookThread` -/
def applyTickPoll (cfg : Config) (compatible : Option Bool)
    (reading : BrowserReading) (s : State Exe) :
    State Exe :=
  (s.refreshBrowserRoute reading).checkLayoutChange cfg compatible

/-- The process of a lock is in the foreground. -/
def genuine (foregroundPid cachedPid : Nat) : Bool := foregroundPid == cachedPid && cachedPid != 0

/-- The part of `ApplyToggleVNOnHookThread` after the locks of the applications. -/
def toggleMode (cfg : Config) (pendingToggleMode : Option Bool)
    (reading : BrowserReading) (s : State Exe) :
    State Exe :=
  let s := s.refreshBrowserRoute reading
  if s.browserContextActive && s.browserRoute == .forceEnglish then
    { s with sharedFlag := s.vietnameseMode }
  else
    let newMode := pendingToggleMode.getD s.sharedFlag
    let s := { s with vietnameseMode := newMode }
    let s :=
      match s.activeExe with
      | some exe => if cfg.smartSwitch && !s.browserContextActive then
            s.setAppMode exe newMode else s
      | none => s
    s.notifyModeChange

/-- `ApplyToggleVNOnHookThread`; without a window in the foreground its process is 0. -/
def applyToggleVN (cfg : Config) (pendingToggleMode : Option Bool) (foregroundPid : Nat)
    (reading : BrowserReading) (s : State Exe) : State Exe :=
  if cfg.excludeApps && s.isExcludedApp then
    if genuine foregroundPid s.excludedPid then { s with sharedFlag := false }
    else notifyModeChange { s with isExcludedApp := false, vietnameseMode := true }
  else if cfg.excludeApps && s.isForcedVnApp then
    if genuine foregroundPid s.forcedVnPid then { s with sharedFlag := true }
    else toggleMode cfg pendingToggleMode reading { s with isForcedVnApp := false }
  else toggleMode cfg pendingToggleMode reading s

/-- A toggle is rejected by the lock of the application. -/
def blocksToggle (cfg : Config) (foregroundPid : Nat) (s : State Exe) : Bool :=
  cfg.excludeApps && ((s.isExcludedApp && genuine foregroundPid s.excludedPid) ||
    (!s.isExcludedApp && s.isForcedVnApp && genuine foregroundPid s.forcedVnPid))

/-- The sync of `OnTickPoll` and of `MarkActivity` with the flag. -/
def syncMode (sharedVn : Bool) (s : State Exe) : State Exe :=
  if sharedVn ≠ s.vietnameseMode then notifyModeChange { s with vietnameseMode := sharedVn } else s

end State

end FocusMode

end HookEngine

end VKey
