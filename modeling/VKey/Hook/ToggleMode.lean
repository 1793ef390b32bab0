import Mathlib.Logic.Function.Basic
import VKey.Ipc.BrowserContext

/-!
# The toggle between the modes

A toggle flips the flag of the shared state at once, leaves its target in a latch of one slot and
posts a bit; the hook thread takes the bit and the latch and stores the mode.  A notification of the
mode writes the flag.  Every access of an atomic is one step.
-/

namespace VKey

namespace HookEngine

namespace ToggleVietnameseMode

open BrowserContext (BrowserRoute)

/-- What the gates of a toggle read about the application that has the focus. -/
structure Focus where
  excludeApps : Bool
  isExcludedApp : Bool
  excludedPid : Nat
  isForcedVnApp : Bool
  forcedVnPid : Nat
  foregroundPid : Nat
  browserContextActive : Bool
  browserRoute : BrowserRoute

namespace Focus

/-- The process of the lock is in the foreground. -/
def Genuine (focus : Focus) (cachedPid : Nat) : Prop :=
  focus.foregroundPid = cachedPid ∧ cachedPid ≠ 0

/-- The flag of an excluded application is set. -/
def ExcludedGate (focus : Focus) : Prop := focus.excludeApps = true ∧ focus.isExcludedApp = true

/-- The flag of an application with forced Vietnamese is set. -/
def ForcedVnGate (focus : Focus) : Prop :=
  ¬focus.ExcludedGate ∧ focus.excludeApps = true ∧ focus.isForcedVnApp = true

/-- No gate but that of the browser is left. -/
def PassesApps (focus : Focus) : Prop := ¬focus.ExcludedGate ∧ ¬focus.ForcedVnGate

/-- A rule of the browser locks English. -/
def BrowserGate (focus : Focus) : Prop :=
  focus.browserContextActive = true ∧ focus.browserRoute = .forceEnglish

/-- The application has no hard lock. -/
structure NoHardLock (focus : Focus) : Prop where
  excluded : focus.isExcludedApp = false
  forcedVn : focus.isForcedVnApp = false
  browser : ¬focus.BrowserGate

/-- The mode that a notification writes to the shared state. -/
def sharedMode (focus : Focus) (vietnameseMode : Bool) : Bool :=
  focus.isForcedVnApp || (!focus.isExcludedApp && vietnameseMode)

theorem NoHardLock.sharedMode_eq {focus : Focus} (h : focus.NoHardLock) (vietnameseMode : Bool) :
    focus.sharedMode vietnameseMode = vietnameseMode := by
  rw [sharedMode, h.excluded, h.forcedVn]
  rfl

theorem NoHardLock.passesApps {focus : Focus} (h : focus.NoHardLock) : focus.PassesApps := by
  constructor
  · intro hgate
    cases h.excluded.symm.trans hgate.2
  · intro hgate
    cases h.forcedVn.symm.trans hgate.2.2

end Focus

/-- Where a thread stands in `ToggleVietnameseMode`. -/
inductive Toggling where
  | idle
  /-- Before the target is stored. -/
  | storing (target : Bool)
  /-- Before the bit is posted. -/
  | posting
  deriving DecidableEq, Repr

/-- Where the hook thread stands in a drain. -/
inductive Draining where
  | idle
  /-- Before the latch is taken. -/
  | taken
  /-- Before the gates. -/
  | gating (pendingToggleMode : Option Bool)
  /-- Before the flag is read, if the latch was empty. -/
  | deciding (pendingToggleMode : Option Bool)
  | storing (newMode : Bool)
  /-- Before the mode is loaded for the notification. -/
  | notifying
  | publishing (sharedMode : Bool)
  deriving DecidableEq, Repr

/-- The atomics and the threads; `ι` are the threads that toggle, `κ` those that notify. -/
structure State (ι κ : Type) where
  vietnameseMode : Bool
  /-- The flag of the shared state. -/
  flag : Bool
  pendingToggleMode : Option Bool
  /-- The bit of the mailbox. -/
  kToggleVN : Bool
  focus : Focus
  toggling : ι → Toggling
  draining : Draining
  /-- The value that a notification is about to publish. -/
  notifying : κ → Option Bool
  /-- The value that the last toggle has given to the flag. -/
  last : Bool

variable {ι κ : Type} [DecidableEq ι] [DecidableEq κ]

inductive Event (ι κ : Type) where
  | toggleFlag (i : ι)
  | storePending (i : ι)
  | post (i : ι)
  /-- The hook thread takes the bit, or the latch, or stores the mode, or loads it. -/
  | drain
  | decide
  | publish
  | notify (k : κ)
  | publishNotice (k : κ)
  /-- A gate rejects a toggle, or is found stale. -/
  | gate

def State.toggleTo (s : State ι κ) (i : ι) (toggling : Toggling) : State ι κ :=
  { s with toggling := Function.update s.toggling i toggling }

def State.drainTo (s : State ι κ) (draining : Draining) : State ι κ :=
  { s with draining := draining }

def State.notifyTo (s : State ι κ) (k : κ) (notice : Option Bool) : State ι κ :=
  { s with notifying := Function.update s.notifying k notice }

inductive Step : State ι κ → Event ι κ → State ι κ → Prop
  | toggleFlag {s : State ι κ} {i : ι} (hi : s.toggling i = .idle) :
      Step s (.toggleFlag i)
      ({ s with flag := !s.flag, last := !s.flag }.toggleTo i (.storing !s.flag))
  | storePending {s : State ι κ} {i : ι} {target : Bool} (hi : s.toggling i = .storing target) :
      Step s (.storePending i) ({ s with pendingToggleMode := some target }.toggleTo i .posting)
  | post {s : State ι κ} {i : ι} (hi : s.toggling i = .posting) :
      Step s (.post i) ({ s with kToggleVN := true }.toggleTo i .idle)
  | take {s : State ι κ} (hdraining : s.draining = .idle) (hbit : s.kToggleVN = true) :
      Step s .drain ({ s with kToggleVN := false }.drainTo .taken)
  | exchange {s : State ι κ} (hdraining : s.draining = .taken) :
      Step s .drain ({ s with pendingToggleMode := none }.drainTo (.gating s.pendingToggleMode))
  | blockedExcluded {s : State ι κ} {pending : Option Bool}
        (hdraining : s.draining = .gating pending)
      (hgate : s.focus.ExcludedGate) (hgenuine : s.focus.Genuine s.focus.excludedPid) :
      Step s .gate ({ s with flag := false }.drainTo .idle)
  | staleExcluded {s : State ι κ} {pending : Option Bool} (hdraining : s.draining = .gating pending)
      (hgate : s.focus.ExcludedGate) (hgenuine : ¬s.focus.Genuine s.focus.excludedPid) :
      Step s .gate
        ({ s with
            focus := { s.focus with isExcludedApp := false }
            vietnameseMode := true }.drainTo .notifying)
  | blockedForcedVn {s : State ι κ} {pending : Option Bool}
        (hdraining : s.draining = .gating pending)
      (hgate : s.focus.ForcedVnGate) (hgenuine : s.focus.Genuine s.focus.forcedVnPid) :
      Step s .gate ({ s with flag := true }.drainTo .idle)
  | staleForcedVn {s : State ι κ} {pending : Option Bool} (hdraining : s.draining = .gating pending)
      (hgate : s.focus.ForcedVnGate) (hgenuine : ¬s.focus.Genuine s.focus.forcedVnPid) :
      Step s .gate
        ({ s with focus := { s.focus with isForcedVnApp := false } }.drainTo (.gating pending))
  | blockedBrowser {s : State ι κ} {pending : Option Bool}
        (hdraining : s.draining = .gating pending)
      (hpasses : s.focus.PassesApps) (hgate : s.focus.BrowserGate) :
      Step s .gate ({ s with flag := s.vietnameseMode }.drainTo .idle)
  | pass {s : State ι κ} {pending : Option Bool} (hdraining : s.draining = .gating pending)
      (hpasses : s.focus.PassesApps) (hgate : ¬s.focus.BrowserGate) :
      Step s .drain (s.drainTo (.deciding pending))
  | decide {s : State ι κ} {pending : Option Bool} (hdraining : s.draining = .deciding pending) :
      Step s .decide (s.drainTo (.storing (pending.getD s.flag)))
  | storeMode {s : State ι κ} {newMode : Bool} (hdraining : s.draining = .storing newMode) :
      Step s .drain ({ s with vietnameseMode := newMode }.drainTo .notifying)
  | loadMode {s : State ι κ} (hdraining : s.draining = .notifying) :
      Step s .drain (s.drainTo (.publishing (s.focus.sharedMode s.vietnameseMode)))
  | publish {s : State ι κ} {sharedMode : Bool} (hdraining : s.draining = .publishing sharedMode) :
      Step s .publish ({ s with flag := sharedMode }.drainTo .idle)
  | notify {s : State ι κ} {k : κ} (hk : s.notifying k = none) :
      Step s (.notify k) (s.notifyTo k (some (s.focus.sharedMode s.vietnameseMode)))
  | publishNotice {s : State ι κ} {k : κ} {sharedMode : Bool}
        (hk : s.notifying k = some sharedMode) :
      Step s (.publishNotice k) ({ s with flag := sharedMode }.notifyTo k none)

def State.initial (vietnameseMode : Bool) (focus : Focus) : State ι κ where
  vietnameseMode := vietnameseMode
  flag := vietnameseMode
  pendingToggleMode := none
  kToggleVN := false
  focus := focus
  toggling _ := .idle
  draining := .idle
  notifying _ := none
  last := vietnameseMode

/-- All toggles are drained, and no notification is under way. -/
structure Quiescent (s : State ι κ) : Prop where
  toggling : ∀ i, s.toggling i = .idle
  bit : s.kToggleVN = false
  draining : s.draining = .idle
  notifying : ∀ k, s.notifying k = none

/-- A mode flipped once per toggle. -/
def flipped (vietnameseMode : Bool) (events : List (Event ι κ)) : Bool :=
  events.foldl (fun mode event => match event with
    | .toggleFlag _ => !mode
    | _ => mode) vietnameseMode

end ToggleVietnameseMode

end HookEngine

end VKey
