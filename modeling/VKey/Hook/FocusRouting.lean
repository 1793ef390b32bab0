import Mathlib.Algebra.Ring.Nat
import VKey.Support.Run

/-!
# The routing of focus events

The main thread captures a request for every focus event, the worker classifies the window that has
the focus and posts the result, and the hook thread drops the result, defers it or applies it.
Every access of an atomic is one step, and the steps of the three threads come in any order.
-/

namespace VKey

namespace HookEngine

namespace FocusRouting

/-- A window handle.  The null handle is 0. -/
abbrev Hwnd := Nat

/-- The increment of a 64-bit counter. -/
def next (n : Nat) : Nat := (n + 1) % 2 ^ 64

/-! ## Decisions -/

inductive FocusApplyDisposition where
  | dropStale
  | deferUntilBoundary
  | applyNow
  deriving DecidableEq, Repr

structure FocusApplyInputs where
  snapshotRequestSerial : Nat
  latestRequestSerial : Nat
  snapshotInputEpoch : Nat
  currentInputEpoch : Nat
  hasComposition : Bool

def decideFocusApply (inputs : FocusApplyInputs) : FocusApplyDisposition :=
  if inputs.snapshotRequestSerial ≠ inputs.latestRequestSerial then .dropStale
  else if inputs.hasComposition ∧ inputs.snapshotInputEpoch ≠ inputs.currentInputEpoch then
    .deferUntilBoundary
  else .applyNow

def shouldResetCompositionOnFocusChange
    (currentHwnd currentEffectiveFocus lastAppliedHwnd lastAppliedEffectiveFocus : Hwnd) : Bool :=
  currentHwnd != lastAppliedHwnd || currentEffectiveFocus != lastAppliedEffectiveFocus

def isSpuriousBackgroundFocusEvent
    (triggerHwnd classifiedHwnd currentTarget lastDispatchedHwnd lastDispatchedTarget : Hwnd) :
    Bool :=
  triggerHwnd != 0 && triggerHwnd != classifiedHwnd && classifiedHwnd == lastDispatchedHwnd &&
    currentTarget == lastDispatchedTarget

def chooseFocusTarget (trigger foreground : Hwnd) (foregroundIsHelper : Bool) : Hwnd :=
  if foreground ≠ 0 ∧ foregroundIsHelper = false then foreground
  else if trigger ≠ 0 then trigger else foreground

/-! ## Requests and classifications -/

structure FocusClassifyRequest where
  triggerHwnd : Hwnd
  requestSerial : Nat
  inputEpochAtRequest : Nat
  deriving DecidableEq, Repr

/-- What the routing reads of a classification. -/
structure FocusClassification where
  hwndOpaque : Hwnd
  focusedChildHwndOpaque : Hwnd
  pid : Nat
  exeName : String
  skipAppTracking : Bool
  requestSerial : Nat
  inputEpochAtRequest : Nat
  deriving DecidableEq, Repr

/-- The control that the worker takes for the target. -/
def FocusClassification.target (cls : FocusClassification) : Hwnd :=
  if cls.focusedChildHwndOpaque ≠ 0 then cls.focusedChildHwndOpaque else cls.hwndOpaque

/-- The control that the hook thread takes for the target, from what it finds focused now: 0 where
it does not look. -/
def FocusClassification.effectiveFocus (cls : FocusClassification)
    (currentFocusedChild : Hwnd) : Hwnd :=
  let childForFocus :=
    if currentFocusedChild ≠ 0 then currentFocusedChild else cls.focusedChildHwndOpaque
  if childForFocus ≠ 0 then childForFocus else cls.hwndOpaque

/-- The windows while the worker classifies.  The focused child is 0 where the worker does not
look. -/
structure Desktop where
  foreground : Hwnd
  isHelper : Hwnd → Bool
  focusedChild : Hwnd → Hwnd
  pid : Hwnd → Nat
  exeName : Hwnd → String

/-- The classification for a request.  Its window is 0 where there is nothing to apply. -/
def classify (request : FocusClassifyRequest) (desktop : Desktop) : FocusClassification :=
  let active := chooseFocusTarget request.triggerHwnd desktop.foreground
    (desktop.foreground != 0 && desktop.isHelper desktop.foreground)
  { hwndOpaque := active
    focusedChildHwndOpaque := desktop.focusedChild active
    pid := desktop.pid active
    exeName :=
      if desktop.exeName active = "" ∧ active ≠ desktop.foreground ∧ desktop.foreground ≠ 0 then
        desktop.exeName desktop.foreground
      else desktop.exeName active
    skipAppTracking := desktop.isHelper active
    requestSerial := request.requestSerial
    inputEpochAtRequest := request.inputEpochAtRequest }

/-! ## The state -/

/-- Where the main thread stands in `OnFocusChanged`. -/
inductive MainThread where
  | idle
  /-- It has taken a serial. -/
  | capturing (triggerHwnd : Hwnd) (serial : Nat)
  /-- Before the request is latched. -/
  | storing (request : FocusClassifyRequest)
  deriving DecidableEq

/-- Where the worker stands in `OnTickPoll` and `OnFocusChangedSyncOnWorker`. -/
inductive WorkerThread where
  | idle
  /-- Before it takes a serial for a request of its own. -/
  | requesting
  | capturing (serial : Nat)
  /-- Before the serial is compared for the first time. -/
  | checking (request : FocusClassifyRequest)
  | classifying (request : FocusClassifyRequest)
  /-- The result counts as dispatched; before the serial is compared again. -/
  | rechecking (cls : FocusClassification)
  /-- In `Post`. -/
  | storing (cls : FocusClassification)
  | settingBit
  deriving DecidableEq

/-- Where the hook thread stands in `DrainHookCommands`. -/
inductive HookThread where
  | idle
  /-- It has taken the focus bit. -/
  | consuming
  /-- In `RouteFocusOnHookThread`. -/
  | routing (cls : FocusClassification)
  /-- The result is to be applied. -/
  | applying (deferred : Bool) (cls : FocusClassification)
  /-- In `TryApplyDeferredFocusOnHookThread`. -/
  | retrying
  deriving DecidableEq

structure State where
  latestFocusRequestSerial : Nat
  physicalInputEpoch : Nat
  main : MainThread
  pendingClassifyRequest : Option FocusClassifyRequest
  worker : WorkerThread
  lastDispatchedHwnd : Hwnd
  lastDispatchedTargetHwnd : Hwnd
  lastForegroundPid : Nat
  /-- The bit and the slot of the mailbox. -/
  kFocusChanged : Bool
  pendingFocus : Option FocusClassification
  hook : HookThread
  deferredFocusApply : Option FocusClassification
  /-- The engine or the macro buffer holds keys of a word. -/
  hasComposition : Bool
  lastAppliedHwnd : Hwnd
  lastAppliedEffectiveFocusHwnd : Hwnd
  /-- The last window that the worker has classified, which the code does not keep. -/
  classified : Option FocusClassification
  /-- The classification that was applied last, and the child found then; the code does not keep
  them. -/
  applied : Option (FocusClassification × Hwnd)

/-- The engine has been started. -/
def State.initial : State where
  latestFocusRequestSerial := 0
  physicalInputEpoch := 0
  main := .idle
  pendingClassifyRequest := none
  worker := .idle
  lastDispatchedHwnd := 0
  lastDispatchedTargetHwnd := 0
  lastForegroundPid := 0
  kFocusChanged := false
  pendingFocus := none
  hook := .idle
  deferredFocusApply := none
  hasComposition := false
  lastAppliedHwnd := 0
  lastAppliedEffectiveFocusHwnd := 0
  classified := none
  applied := none

/-- What the hook thread decides on. -/
def State.inputs (s : State) (cls : FocusClassification) : FocusApplyInputs where
  snapshotRequestSerial := cls.requestSerial
  latestRequestSerial := s.latestFocusRequestSerial
  snapshotInputEpoch := cls.inputEpochAtRequest
  currentInputEpoch := s.physicalInputEpoch
  hasComposition := s.hasComposition

/-- The filter of the worker. -/
def State.isSpurious (s : State) (request : FocusClassifyRequest)
    (cls : FocusClassification) : Bool :=
  isSpuriousBackgroundFocusEvent request.triggerHwnd cls.hwndOpaque cls.target s.lastDispatchedHwnd
    s.lastDispatchedTargetHwnd

/-- The worker has classified a window and records it as dispatched. -/
def State.dispatch (s : State) (cls : FocusClassification) : State :=
  { s with
    worker := .rechecking cls
    lastDispatchedHwnd := cls.hwndOpaque
    lastDispatchedTargetHwnd := cls.target
    classified := some cls }

/-- The typing context of the application is taken over.  The composition may end also because the
input method of the application needs another engine. -/
def State.applyFocus (s : State) (cls : FocusClassification) (currentFocusedChild : Hwnd)
    (tracksApps keepsEngine : Bool) : State :=
  let effectiveFocus := cls.effectiveFocus currentFocusedChild
  let targetChanged := shouldResetCompositionOnFocusChange cls.hwndOpaque effectiveFocus
    s.lastAppliedHwnd s.lastAppliedEffectiveFocusHwnd
  { s with
    hasComposition := s.hasComposition && !targetChanged && keepsEngine
    lastAppliedHwnd := if targetChanged then cls.hwndOpaque else s.lastAppliedHwnd
    lastAppliedEffectiveFocusHwnd :=
      if targetChanged then effectiveFocus else s.lastAppliedEffectiveFocusHwnd
    -- a helper window leaves the process, so that the next tick classifies again
    lastForegroundPid :=
      if cls.skipAppTracking = false ∧ tracksApps ∧ cls.exeName ≠ "" ∧ cls.pid ≠ 0 then cls.pid
      else s.lastForegroundPid
    applied := some (cls, currentFocusedChild) }

/-! ## Steps -/

inductive Event where
  /-- `OnFocusChanged` begins and takes a serial. -/
  | onFocusChanged (triggerHwnd : Hwnd)
  /-- A request is complete: the epoch has been loaded. -/
  | capture (request : FocusClassifyRequest)
  | storeRequest
  | takeRequest
  | tickPoll (fgPid : Nat)
  | toggleGameMode
  /-- The worker takes a serial. -/
  | workerFetchAdd
  | check
  | classify (desktop : Desktop)
  | recheck
  | storeFocus
  | setFocusBit
  | drainBits
  | consumePendingFocus
  | route
  | retryDeferred
  | apply (currentFocusedChild : Hwnd)
  | keyDown (hasComposition : Bool)
  | wordBoundary

inductive Step : State → Event → State → Prop
  | onFocusChanged {s : State} (triggerHwnd : Hwnd) (h : s.main = .idle) :
      Step s (.onFocusChanged triggerHwnd)
        { s with
          latestFocusRequestSerial := next s.latestFocusRequestSerial
          main := .capturing triggerHwnd (next s.latestFocusRequestSerial) }
  | mainCapture {s : State} {triggerHwnd : Hwnd} {serial : Nat}
      (h : s.main = .capturing triggerHwnd serial) :
      Step s (.capture ⟨triggerHwnd, serial, s.physicalInputEpoch⟩)
        { s with main := .storing ⟨triggerHwnd, serial, s.physicalInputEpoch⟩ }
  | storeRequest {s : State} {request : FocusClassifyRequest} (h : s.main = .storing request) :
      Step s .storeRequest { s with pendingClassifyRequest := some request, main := .idle }
  | takeRequest {s : State} {request : FocusClassifyRequest} (h : s.worker = .idle)
      (hpending : s.pendingClassifyRequest = some request) :
      Step s .takeRequest { s with pendingClassifyRequest := none, worker := .checking request }
  | tickPoll {s : State} (fgPid : Nat) (h : s.worker = .idle) (hpid : fgPid ≠ 0)
      (hchanged : fgPid ≠ s.lastForegroundPid) :
      Step s (.tickPoll fgPid) { s with lastForegroundPid := fgPid, worker := .requesting }
  | toggleGameMode {s : State} (h : s.worker = .idle) :
      Step s .toggleGameMode { s with worker := .requesting }
  | workerFetchAdd {s : State} (h : s.worker = .requesting) :
      Step s .workerFetchAdd
        { s with
          latestFocusRequestSerial := next s.latestFocusRequestSerial
          worker := .capturing (next s.latestFocusRequestSerial) }
  | workerCapture {s : State} {serial : Nat} (h : s.worker = .capturing serial) :
      Step s (.capture ⟨0, serial, s.physicalInputEpoch⟩)
        { s with worker := .checking ⟨0, serial, s.physicalInputEpoch⟩ }
  | checkStale {s : State} {request : FocusClassifyRequest} (h : s.worker = .checking request)
      (hserial : request.requestSerial ≠ s.latestFocusRequestSerial) :
      Step s .check { s with worker := .idle }
  | check {s : State} {request : FocusClassifyRequest} (h : s.worker = .checking request)
      (hserial : request.requestSerial = s.latestFocusRequestSerial) :
      Step s .check { s with worker := .classifying request }
  /-- There is no window. -/
  | classifyNone {s : State} {request : FocusClassifyRequest} {desktop : Desktop}
      (h : s.worker = .classifying request) (hnone : (classify request desktop).hwndOpaque = 0) :
      Step s (.classify desktop) { s with worker := .idle }
  | classifySpurious {s : State} {request : FocusClassifyRequest} {desktop : Desktop}
      (h : s.worker = .classifying request) (hsome : (classify request desktop).hwndOpaque ≠ 0)
      (hspurious : s.isSpurious request (classify request desktop) = true) :
      Step s (.classify desktop)
        { s with worker := .idle, classified := some (classify request desktop) }
  | dispatch {s : State} {request : FocusClassifyRequest} {desktop : Desktop}
      (h : s.worker = .classifying request) (hsome : (classify request desktop).hwndOpaque ≠ 0)
      (hspurious : s.isSpurious request (classify request desktop) = false) :
      Step s (.classify desktop) (s.dispatch (classify request desktop))
  | recheckStale {s : State} {cls : FocusClassification} (h : s.worker = .rechecking cls)
      (hserial : cls.requestSerial ≠ s.latestFocusRequestSerial) :
      Step s .recheck { s with worker := .idle }
  | recheck {s : State} {cls : FocusClassification} (h : s.worker = .rechecking cls)
      (hserial : cls.requestSerial = s.latestFocusRequestSerial) :
      Step s .recheck { s with worker := .storing cls }
  | storeFocus {s : State} {cls : FocusClassification} (h : s.worker = .storing cls) :
      Step s .storeFocus { s with pendingFocus := some cls, worker := .settingBit }
  | setFocusBit {s : State} (h : s.worker = .settingBit) :
      Step s .setFocusBit { s with kFocusChanged := true, worker := .idle }
  | drainBits {s : State} (h : s.hook = .idle) :
      Step s .drainBits
        { s with
          kFocusChanged := false
          hook := if s.kFocusChanged then .consuming else .retrying }
  | consumePendingFocus {s : State} {cls : FocusClassification} (h : s.hook = .consuming)
      (hpending : s.pendingFocus = some cls) :
      Step s .consumePendingFocus { s with pendingFocus := none, hook := .routing cls }
  | consumeNone {s : State} (h : s.hook = .consuming) (hpending : s.pendingFocus = none) :
      Step s .consumePendingFocus { s with hook := .retrying }
  | routeStale {s : State} {cls : FocusClassification} (h : s.hook = .routing cls)
      (hdecide : decideFocusApply (s.inputs cls) = .dropStale) :
      Step s .route { s with hook := .retrying }
  | routeDefer {s : State} {cls : FocusClassification} (h : s.hook = .routing cls)
      (hdecide : decideFocusApply (s.inputs cls) = .deferUntilBoundary) :
      Step s .route { s with deferredFocusApply := some cls, hook := .retrying }
  | routeApply {s : State} {cls : FocusClassification} (h : s.hook = .routing cls)
      (hdecide : decideFocusApply (s.inputs cls) = .applyNow) :
      Step s .route { s with deferredFocusApply := none, hook := .applying false cls }
  | retryNone {s : State} (h : s.hook = .retrying) (hdeferred : s.deferredFocusApply = none) :
      Step s .retryDeferred { s with hook := .idle }
  | retryStale {s : State} {cls : FocusClassification} (h : s.hook = .retrying)
      (hdeferred : s.deferredFocusApply = some cls)
      (hdecide : decideFocusApply (s.inputs cls) = .dropStale) :
      Step s .retryDeferred { s with deferredFocusApply := none, hook := .idle }
  | retryDefer {s : State} {cls : FocusClassification} (h : s.hook = .retrying)
      (hdeferred : s.deferredFocusApply = some cls)
      (hdecide : decideFocusApply (s.inputs cls) = .deferUntilBoundary) :
      Step s .retryDeferred { s with hook := .idle }
  | retryApply {s : State} {cls : FocusClassification} (h : s.hook = .retrying)
      (hdeferred : s.deferredFocusApply = some cls)
      (hdecide : decideFocusApply (s.inputs cls) = .applyNow) :
      Step s .retryDeferred { s with deferredFocusApply := none, hook := .applying true cls }
  | apply {s : State} {deferred : Bool} {cls : FocusClassification} (currentFocusedChild : Hwnd)
      (tracksApps keepsEngine : Bool) (h : s.hook = .applying deferred cls) :
      Step s (.apply currentFocusedChild)
        { s.applyFocus cls currentFocusedChild tracksApps keepsEngine with
          hook := if deferred then .idle else .retrying }
  /-- A key is pressed: after the drain the epoch is counted and the key is processed. -/
  | keyDown {s : State} (hasComposition : Bool) (h : s.hook = .idle) :
      Step s (.keyDown hasComposition)
        { s with physicalInputEpoch := next s.physicalInputEpoch, hasComposition := hasComposition }
  | wordBoundary {s : State} (h : s.hook = .idle) :
      Step s .wordBoundary { s with hasComposition := false }

/-! ## What the decisions say -/

theorem decideFocusApply_eq_dropStale (inputs : FocusApplyInputs) :
    decideFocusApply inputs = .dropStale ↔
      inputs.snapshotRequestSerial ≠ inputs.latestRequestSerial := by
  unfold decideFocusApply
  split_ifs with hserial <;> simp [hserial]

theorem decideFocusApply_eq_deferUntilBoundary (inputs : FocusApplyInputs) :
    decideFocusApply inputs = .deferUntilBoundary ↔
      inputs.snapshotRequestSerial = inputs.latestRequestSerial ∧ inputs.hasComposition = true ∧
        inputs.snapshotInputEpoch ≠ inputs.currentInputEpoch := by
  unfold decideFocusApply
  split_ifs with hserial hdefer
  · simp [hserial]
  · simpa using ⟨not_not.mp hserial, hdefer⟩
  · simp only [false_iff, not_and]
    exact fun _ => not_and.mp hdefer

theorem decideFocusApply_eq_applyNow (inputs : FocusApplyInputs) :
    decideFocusApply inputs = .applyNow ↔
      inputs.snapshotRequestSerial = inputs.latestRequestSerial ∧
        (inputs.hasComposition = true → inputs.snapshotInputEpoch = inputs.currentInputEpoch) := by
  unfold decideFocusApply
  split_ifs with hserial hdefer
  · simp [hserial]
  · simpa using fun _ => ⟨hdefer.1, hdefer.2⟩
  · simp only [true_iff]
    exact ⟨not_not.mp hserial, fun hcomposition => by_contra fun hne => hdefer ⟨hcomposition, hne⟩⟩

theorem State.isSpurious_eq_true {s : State} {request : FocusClassifyRequest}
    {cls : FocusClassification} (h : s.isSpurious request cls = true) :
    cls.hwndOpaque = s.lastDispatchedHwnd ∧ cls.target = s.lastDispatchedTargetHwnd := by
  simp only [isSpurious, isSpuriousBackgroundFocusEvent, Bool.and_eq_true, beq_iff_eq] at h
  exact ⟨h.1.2, h.2⟩

/-- After the apply the last applied window and target are those of the classification. -/
theorem State.lastApplied_applyFocus (s : State) (cls : FocusClassification)
    (currentFocusedChild : Hwnd) (tracksApps keepsEngine : Bool) :
    (s.applyFocus cls currentFocusedChild tracksApps keepsEngine).lastAppliedHwnd = cls.hwndOpaque ∧
      (s.applyFocus cls currentFocusedChild tracksApps keepsEngine).lastAppliedEffectiveFocusHwnd =
        cls.effectiveFocus currentFocusedChild := by
  cases hchanged : shouldResetCompositionOnFocusChange cls.hwndOpaque
      (cls.effectiveFocus currentFocusedChild)
        s.lastAppliedHwnd s.lastAppliedEffectiveFocusHwnd with
  | true => simp [applyFocus, hchanged]
  | false =>
      have hsame := hchanged
      simp only [shouldResetCompositionOnFocusChange, Bool.or_eq_false_iff,
        bne_eq_false_iff_eq] at hsame
      obtain ⟨hhwnd, hfocus⟩ := hsame
      simp only [applyFocus, hchanged, Bool.false_eq_true, if_false]
      exact ⟨hhwnd.symm, hfocus.symm⟩

end FocusRouting

end HookEngine

end VKey
