import VKey.Hook.FocusRouting

/-!
# The window in force

The request that was captured last is waiting, its classification is on the way to the hook thread,
or the last classified window has been applied.  An event that is filtered while the dispatched
window is not in force leaves nothing on the way.
-/

namespace VKey

namespace HookEngine

namespace FocusRouting

/-! ## Requests and results on their way -/

/-- The serial that the main thread holds. -/
def MainThread.serial : MainThread → Option Nat
  | .idle => none
  | .capturing _ serial => some serial
  | .storing request => some request.requestSerial

def State.latched (s : State) : Option Nat := s.pendingClassifyRequest.map (·.requestSerial)

/-- The serial of the request that the worker has not classified yet. -/
def WorkerThread.requested : WorkerThread → Option Nat
  | .capturing serial => some serial
  | .checking request => some request.requestSerial
  | .classifying request => some request.requestSerial
  | _ => none

/-- The serial that has passed the first comparison and not yet the second. -/
def WorkerThread.checked : WorkerThread → Option Nat
  | .classifying request => some request.requestSerial
  | .rechecking cls => some cls.requestSerial
  | _ => none

def WorkerThread.result : WorkerThread → Option FocusClassification
  | .rechecking cls => some cls
  | .storing cls => some cls
  | _ => none

def HookThread.result : HookThread → Option FocusClassification
  | .routing cls => some cls
  | .applying _ cls => some cls
  | _ => none

/-- The request that was captured last has not been classified. -/
def State.Awaited (s : State) : Prop :=
  s.main.serial = some s.latestFocusRequestSerial ∨ s.latched = some s.latestFocusRequestSerial ∨
    s.worker.requested = some s.latestFocusRequestSerial

/-- The request is complete and has not been classified. -/
def State.Held (s : State) (request : FocusClassifyRequest) : Prop :=
  s.main = .storing request ∨ s.pendingClassifyRequest = some request ∨
    s.worker = .checking request ∨
    s.worker = .classifying request

/-- The classification is on its way to the hook thread, or waits there. -/
def State.InFlight (s : State) (cls : FocusClassification) : Prop :=
  s.worker.result = some cls ∨ s.pendingFocus = some cls ∨ s.hook.result = some cls ∨
    s.deferredFocusApply = some cls

/-- Nothing is under way, no word is composed, and nothing is deferred. -/
structure State.Quiescent (s : State) : Prop where
  main : s.main = .idle
  latch : s.pendingClassifyRequest = none
  worker : s.worker = .idle
  bit : s.kFocusChanged = false
  slot : s.pendingFocus = none
  hook : s.hook = .idle
  deferred : s.deferredFocusApply = none
  word : s.hasComposition = false

/-- The window and the target that were dispatched last have been applied last. -/
def State.DispatchedApplied (s : State) : Prop :=
  s.lastDispatchedHwnd = 0 ∨ ∃ cls child, s.applied = some (cls, child) ∧
    cls.hwndOpaque = s.lastDispatchedHwnd ∧ cls.target = s.lastDispatchedTargetHwnd

/-- No request is captured between the decision of the hook thread and the apply; the latest request
is dropped by the worker only while the dispatched window is in force; and no counter wraps. -/
def InTime (s : State) : Event → Prop
  | .onFocusChanged _ | .workerFetchAdd =>
      s.latestFocusRequestSerial + 1 < 2 ^ 64 ∧ ∀ deferred cls, s.hook ≠ .applying deferred cls
  | .classify desktop => ∀ request, s.worker = .classifying request →
      request.requestSerial = s.latestFocusRequestSerial →
      (classify request desktop).hwndOpaque = 0 ∨
        s.isSpurious request (classify request desktop) = true →
      s.DispatchedApplied
  | .keyDown _ => s.physicalInputEpoch + 1 < 2 ^ 64
  | _ => True

theorem next_of_lt {n : Nat} (h : n + 1 < 2 ^ 64) : next n = n + 1 := Nat.mod_eq_of_lt h

/-- A result that is on its way after a step was on its way before, or has just been classified. -/
theorem Step.inFlight {s s' : State} {event : Event} (h : Step s event s')
    {cls : FocusClassification} (hcls : s'.InFlight cls) :
    s.InFlight cls ∨ ∃ request desktop, s.worker = .classifying request ∧
      cls = classify request desktop ∧ event = .classify desktop := by
  cases h with
  | dispatch hworker =>
      rcases hcls with hresult | hrest
      · exact Or.inr ⟨_, _, hworker, (Option.some.inj hresult).symm, rfl⟩
      · exact Or.inl (Or.inr hrest)
  | takeRequest | tickPoll | toggleGameMode | workerFetchAdd | workerCapture | checkStale | check |
      classifyNone | classifySpurious | recheckStale | setFocusBit =>
      refine Or.inl (hcls.imp_left ?_)
      nofun
  | recheck hworker =>
      refine Or.inl (hcls.imp_left fun hresult => ?_)
      rw [hworker]
      exact hresult
  | storeFocus hworker =>
      rcases hcls with hnone | hslot | hrest
      · cases hnone
      · refine Or.inl (Or.inl ?_)
        rw [hworker]
        exact hslot
      · exact Or.inl (Or.inr (Or.inr hrest))
  | drainBits =>
      refine Or.inl (hcls.imp_right (Or.imp_right (Or.imp_left fun hresult => ?_)))
      dsimp only at hresult
      split at hresult <;> cases hresult
  | consumePendingFocus hhook hslot =>
      rcases hcls with hworker | hnone | hresult | hdeferred
      · exact Or.inl (Or.inl hworker)
      · cases hnone
      · exact Or.inl (Or.inr (Or.inl (hslot.trans hresult)))
      · exact Or.inl (Or.inr (Or.inr (Or.inr hdeferred)))
  | consumeNone | routeStale | retryNone | retryDefer =>
      refine Or.inl (hcls.imp_right (Or.imp_right (Or.imp_left ?_)))
      nofun
  | routeDefer hhook =>
      rcases hcls with hworker | hslot | hnone | hdeferred
      · exact Or.inl (Or.inl hworker)
      · exact Or.inl (Or.inr (Or.inl hslot))
      · cases hnone
      · refine Or.inl (Or.inr (Or.inr (Or.inl ?_)))
        rw [hhook]
        exact hdeferred
  | routeApply hhook =>
      rcases hcls with hworker | hslot | hresult | hnone
      · exact Or.inl (Or.inl hworker)
      · exact Or.inl (Or.inr (Or.inl hslot))
      · refine Or.inl (Or.inr (Or.inr (Or.inl ?_)))
        rw [hhook]
        exact hresult
      · cases hnone
  | retryStale =>
      rcases hcls with hworker | hslot | hnone | hnone
      · exact Or.inl (Or.inl hworker)
      · exact Or.inl (Or.inr (Or.inl hslot))
      · cases hnone
      · cases hnone
  | retryApply _ hdeferred =>
      rcases hcls with hworker | hslot | hresult | hnone
      · exact Or.inl (Or.inl hworker)
      · exact Or.inl (Or.inr (Or.inl hslot))
      · exact Or.inl (Or.inr (Or.inr (Or.inr (hdeferred.trans hresult))))
      · cases hnone
  | apply =>
      refine Or.inl (hcls.imp_right (Or.imp_right (Or.imp_left fun hresult => ?_)))
      dsimp only at hresult
      split at hresult <;> cases hresult
  | onFocusChanged | mainCapture | storeRequest | keyDown | wordBoundary => exact Or.inl hcls

theorem Step.inFlight_of_ne {s s' : State} {event : Event} (h : Step s event s')
    (hevent : ∀ desktop, event ≠ .classify desktop) (cls : FocusClassification)
    (hcls : s'.InFlight cls) : s.InFlight cls := by
  rcases h.inFlight hcls with hbefore | ⟨request, desktop, -, -, hclassify⟩
  · exact hbefore
  · exact absurd hclassify (hevent desktop)

/-- A request that is complete after a step was complete before, or has just been captured. -/
theorem Step.held {s s' : State} {event : Event} (h : Step s event s')
    {request : FocusClassifyRequest} (hrequest : s'.Held request) :
    s.Held request ∨ event = .capture request ∧
    request.inputEpochAtRequest = s.physicalInputEpoch := by
  cases h with
  | mainCapture =>
      rcases hrequest with hmain | hrest
      · cases hmain
        exact Or.inr ⟨rfl, rfl⟩
      · exact Or.inl (Or.inr hrest)
  | onFocusChanged =>
      refine Or.inl (hrequest.imp_left ?_)
      nofun
  | storeRequest hmain =>
      rcases hrequest with hidle | hlatch | hworker
      · cases hidle
      · cases hlatch
        exact Or.inl (Or.inl hmain)
      · exact Or.inl (Or.inr (Or.inr hworker))
  | takeRequest _ hpending =>
      rcases hrequest with hmain | hnone | hchecking | hclassifying
      · exact Or.inl (Or.inl hmain)
      · cases hnone
      · cases hchecking
        exact Or.inl (Or.inr (Or.inl hpending))
      · cases hclassifying
  | workerCapture =>
      rcases hrequest with hmain | hlatch | hchecking | hclassifying
      · exact Or.inl (Or.inl hmain)
      · exact Or.inl (Or.inr (Or.inl hlatch))
      · cases hchecking
        exact Or.inr ⟨rfl, rfl⟩
      · cases hclassifying
  | check hworker =>
      rcases hrequest with hmain | hlatch | hchecking | hclassifying
      · exact Or.inl (Or.inl hmain)
      · exact Or.inl (Or.inr (Or.inl hlatch))
      · cases hchecking
      · cases hclassifying
        exact Or.inl (Or.inr (Or.inr (Or.inl hworker)))
  | tickPoll | toggleGameMode | workerFetchAdd | checkStale | classifyNone | classifySpurious |
      dispatch | recheckStale | recheck | storeFocus | setFocusBit =>
      refine Or.inl (hrequest.imp_right (Or.imp_right ?_))
      nofun
  | drainBits | consumePendingFocus | consumeNone | routeStale | routeDefer | routeApply |
      retryNone | retryStale | retryDefer | retryApply | apply | keyDown | wordBoundary =>
      exact Or.inl hrequest

/-! ## The order of the requests -/

/-- The requests that are not classified, by the serials that the threads hold.  A serial that has
passed the first comparison is overtaken only by one that still waits. -/
structure Ordered (latest : Nat) (main latched : Option Nat) (worker : WorkerThread) : Prop where
  main_le : ∀ n, main = some n → n ≤ latest
  latched_le : ∀ n, latched = some n → n ≤ latest
  requested_le : ∀ n, worker.requested = some n → n ≤ latest
  latched_lt : ∀ m n, latched = some m → main = some n → m < n
  main_ne : ∀ n, worker.requested = some n → main ≠ some n
  latched_ne : ∀ n, worker.requested = some n → latched ≠ some n
  overtaken : ∀ n, worker.checked = some n → n ≠ latest → main = some latest ∨ latched = some latest

def State.Ordered (s : State) : Prop :=
  FocusRouting.Ordered s.latestFocusRequestSerial s.main.serial s.latched s.worker

namespace Ordered

variable {latest serial : Nat} {main latched : Option Nat} {worker worker' : WorkerThread}

theorem initial : Ordered 0 none none .idle :=
  ⟨by nofun, by nofun, by nofun, by nofun, by nofun, by nofun, by nofun⟩

theorem main_fetchAdd (h : Ordered latest main latched worker) :
    Ordered (latest + 1) (some (latest + 1)) latched worker where
  main_le n hn := (Option.some.inj hn).ge
  latched_le n hn := Nat.le_succ_of_le (h.latched_le n hn)
  requested_le n hn := Nat.le_succ_of_le (h.requested_le n hn)
  latched_lt m n hm hn := Option.some.inj hn ▸ Nat.lt_succ_of_le (h.latched_le m hm)
  main_ne n hn hmain := by
    have hle := h.requested_le n hn
    have heq := Option.some.inj hmain
    omega
  latched_ne := h.latched_ne
  overtaken _ _ _ := Or.inl rfl

/-- The worker takes a serial. -/
theorem worker_fetchAdd (h : Ordered latest main latched worker) :
    Ordered (latest + 1) main latched (.capturing (latest + 1)) where
  main_le n hn := Nat.le_succ_of_le (h.main_le n hn)
  latched_le n hn := Nat.le_succ_of_le (h.latched_le n hn)
  requested_le n hn := (Option.some.inj hn).ge
  latched_lt := h.latched_lt
  main_ne n hn hmain := by
    have hle := h.main_le n hmain
    have heq := Option.some.inj hn
    omega
  latched_ne n hn hlatched := by
    have hle := h.latched_le n hlatched
    have heq := Option.some.inj hn
    omega
  overtaken := by nofun

theorem store (h : Ordered latest (some serial) latched worker) :
    Ordered latest none (some serial) worker where
  main_le := by nofun
  latched_le := h.main_le
  requested_le := h.requested_le
  latched_lt := by nofun
  main_ne := by nofun
  latched_ne := h.main_ne
  overtaken n hn hne := by
    rcases h.overtaken n hn hne with hmain | hlatched
    · exact Or.inr hmain
    · have hlt := h.latched_lt latest serial hlatched rfl
      exact absurd (h.main_le serial rfl) (Nat.not_le_of_lt hlt)

theorem take (h : Ordered latest main (some serial) worker)
    (hserial : worker'.requested = some serial)
    (hchecked : worker'.checked = none) : Ordered latest main none worker' where
  main_le := h.main_le
  latched_le := by nofun
  requested_le n hn := h.latched_le n (hserial.symm.trans hn)
  latched_lt := by nofun
  main_ne n hn hmain := by
    have hlt := h.latched_lt n n (hserial.symm.trans hn) hmain
    exact Nat.lt_irrefl n hlt
  latched_ne := by nofun
  overtaken n hn := by
    rw [hchecked] at hn
    cases hn

theorem move (h : Ordered latest main latched worker)
    (hrequested : ∀ n, worker'.requested = some n → worker.requested = some n)
    (hchecked : ∀ n, worker'.checked = some n → n ≠ latest → worker.checked = some n) :
    Ordered latest main latched worker' where
  main_le := h.main_le
  latched_le := h.latched_le
  requested_le n hn := h.requested_le n (hrequested n hn)
  latched_lt := h.latched_lt
  main_ne n hn := h.main_ne n (hrequested n hn)
  latched_ne n hn := h.latched_ne n (hrequested n hn)
  overtaken n hn hne := h.overtaken n (hchecked n hn hne) hne

end Ordered

theorem State.Ordered.step {s s' : State} {event : Event} (h : s.Ordered) (htime : InTime s event)
    (hstep : Step s event s') : s'.Ordered := by
  unfold State.Ordered at h ⊢
  cases hstep with
  | onFocusChanged =>
      simp only [next_of_lt htime.1]
      exact h.main_fetchAdd
  | workerFetchAdd =>
      simp only [next_of_lt htime.1]
      exact h.worker_fetchAdd
  | mainCapture hmain =>
      rw [hmain] at h
      exact h
  | storeRequest hmain =>
      rw [hmain] at h
      exact h.store
  | takeRequest _ hpending =>
      rw [State.latched, hpending] at h
      exact h.take rfl rfl
  | workerCapture hworker =>
      rw [hworker] at h
      exact h.move (fun n hn => hn) (by nofun)
  | check hworker hserial =>
      rw [hworker] at h
      refine h.move (fun n hn => hn) fun n hn hne => ?_
      exact absurd ((Option.some.inj hn).symm.trans hserial) hne
  | dispatch hworker =>
      rw [hworker] at h
      exact h.move (by nofun) fun n hn _ => hn
  | tickPoll | toggleGameMode | checkStale | classifyNone | classifySpurious | recheckStale |
      recheck | storeFocus | setFocusBit => exact h.move (by nofun) (by nofun)
  | drainBits | consumePendingFocus | consumeNone | routeStale | routeDefer | routeApply |
      retryNone | retryStale | retryDefer | retryApply | apply | keyDown | wordBoundary => exact h

/-! ## The window that was classified last -/

/-- The window and the target of the classification are those that were applied last. -/
def State.Landed (s : State) (cls : FocusClassification) : Prop :=
  ∃ applied child, s.applied = some (applied, child) ∧ applied.hwndOpaque = cls.hwndOpaque ∧
    applied.target = cls.target

/-- A result of the latest request is the last one of the worker; and while that request neither
waits nor has its result on the way, the last result has landed. -/
structure Routed (s : State) : Prop where
  le : ∀ cls, s.InFlight cls → cls.requestSerial ≤ s.latestFocusRequestSerial
  fresh : s.Awaited → ∀ cls, s.InFlight cls → cls.requestSerial ≠ s.latestFocusRequestSerial
  last : ∀ cls, s.InFlight cls → cls.requestSerial = s.latestFocusRequestSerial →
    s.classified = some cls
  working : ∀ cls, s.worker.result = some cls → s.classified = some cls
  dispatched : ∀ cls, s.classified = some cls → cls.hwndOpaque ≠ 0 ∧
    cls.hwndOpaque = s.lastDispatchedHwnd ∧ cls.target = s.lastDispatchedTargetHwnd
  landed : s.Awaited ∨
    (∃ cls, s.InFlight cls ∧ cls.requestSerial = s.latestFocusRequestSerial) ∨
      ∀ cls, s.classified = some cls → s.Landed cls

namespace Routed

theorem initial : Routed State.initial where
  le cls hcls := by rcases hcls with h | h | h | h <;> cases h
  fresh _ cls hcls := by rcases hcls with h | h | h | h <;> cases h
  last cls hcls := by rcases hcls with h | h | h | h <;> cases h
  working := by nofun
  dispatched := by nofun
  landed := Or.inr (Or.inr (by nofun))

theorem landed_of_quiescent {s : State} (h : Routed s) (hquiescent : s.Quiescent) :
    ∀ cls, s.classified = some cls → s.Landed cls := by
  rcases h.landed with hawaited | ⟨cls, hcls, -⟩ | hlanded
  · unfold State.Awaited State.latched at hawaited
    rw [hquiescent.main, hquiescent.latch, hquiescent.worker] at hawaited
    rcases hawaited with hmain | hlatched | hworker
    · cases hmain
    · cases hlatched
    · cases hworker
  · unfold State.InFlight at hcls
    rw [hquiescent.worker, hquiescent.slot, hquiescent.hook, hquiescent.deferred] at hcls
    rcases hcls with hnone | hnone | hnone | hnone <;> cases hnone
  · exact hlanded

/-- What the routing has classified and applied. -/
def record (s : State) :=
  (s.latestFocusRequestSerial, s.classified, s.lastDispatchedHwnd,
    s.lastDispatchedTargetHwnd, s.applied)

/-- Requests and results move on; none of the latest request is lost. -/
theorem move {s s' : State} (h : Routed s) (hrecord : record s' = record s)
    (hawaited : s'.Awaited ↔ s.Awaited) (hback : ∀ cls, s'.InFlight cls → s.InFlight cls)
    (hkept : ∀ cls, s.InFlight cls → cls.requestSerial = s.latestFocusRequestSerial →
      s'.InFlight cls)
    (hworking : ∀ cls, s'.worker.result = some cls → s.worker.result = some cls) : Routed s' := by
  obtain ⟨hlatest, hclassified, hhwnd, htarget, happlied⟩ :
      s'.latestFocusRequestSerial = s.latestFocusRequestSerial ∧ s'.classified = s.classified ∧
        s'.lastDispatchedHwnd = s.lastDispatchedHwnd ∧
        s'.lastDispatchedTargetHwnd = s.lastDispatchedTargetHwnd ∧ s'.applied = s.applied := by
    simpa [record] using hrecord
  constructor
  · rw [hlatest]
    exact fun cls hcls => h.le cls (hback cls hcls)
  · rw [hlatest]
    exact fun hwaits cls hcls => h.fresh (hawaited.mp hwaits) cls (hback cls hcls)
  · rw [hlatest, hclassified]
    exact fun cls hcls => h.last cls (hback cls hcls)
  · rw [hclassified]
    exact fun cls hcls => h.working cls (hworking cls hcls)
  · rw [hclassified, hhwnd, htarget]
    exact h.dispatched
  · unfold State.Landed
    rw [hlatest, hclassified, happlied, hawaited]
    refine h.landed.imp_right (Or.imp_left ?_)
    rintro ⟨cls, hcls, hserial⟩
    exact ⟨cls, hkept cls hcls hserial, hserial⟩

/-- A new serial is taken: no result has it. -/
theorem fetchAdd {s s' : State} (h : Routed s)
    (hlatest : s'.latestFocusRequestSerial = s.latestFocusRequestSerial + 1)
    (hclassified : s'.classified = s.classified)
    (hdispatched : s'.lastDispatchedHwnd = s.lastDispatchedHwnd ∧
      s'.lastDispatchedTargetHwnd = s.lastDispatchedTargetHwnd)
    (hback : ∀ cls, s'.InFlight cls → s.InFlight cls)
    (hworking : ∀ cls, s'.worker.result = some cls → s.worker.result = some cls)
    (hawaited : s'.Awaited) : Routed s' := by
  have hlt : ∀ cls, s'.InFlight cls → cls.requestSerial < s'.latestFocusRequestSerial := by
    intro cls hcls
    rw [hlatest]
    exact Nat.lt_succ_of_le (h.le cls (hback cls hcls))
  constructor
  · exact fun cls hcls => (hlt cls hcls).le
  · exact fun _ cls hcls => (hlt cls hcls).ne
  · exact fun cls hcls hserial => absurd hserial (hlt cls hcls).ne
  · rw [hclassified]
    exact fun cls hcls => h.working cls (hworking cls hcls)
  · rw [hclassified, hdispatched.1, hdispatched.2]
    exact h.dispatched
  · exact Or.inl hawaited

end Routed

/-- What the hook thread is about to apply is current. -/
def Timely (s : State) : Prop :=
  ∀ deferred cls, s.hook = .applying deferred cls →
    cls.requestSerial = s.latestFocusRequestSerial ∧
      (s.hasComposition = true → cls.inputEpochAtRequest = s.physicalInputEpoch)

theorem Timely.step {s s' : State} {event : Event} (h : Timely s) (htime : InTime s event)
    (hstep : Step s event s') : Timely s' := by
  cases hstep with
  | onFocusChanged | workerFetchAdd =>
      exact fun deferred cls hhook => absurd hhook (htime.2 deferred cls)
  | routeApply _ hdecide =>
      intro deferred cls hhook
      cases hhook
      exact (decideFocusApply_eq_applyNow _).mp hdecide
  | retryApply _ _ hdecide =>
      intro deferred cls hhook
      cases hhook
      exact (decideFocusApply_eq_applyNow _).mp hdecide
  | keyDown _ hidle | wordBoundary hidle =>
      intro deferred cls hhook
      rw [hidle] at hhook
      cases hhook
  | drainBits | apply =>
      intro deferred cls hhook
      dsimp only at hhook
      split at hhook <;> cases hhook
  | consumePendingFocus | consumeNone | routeStale | routeDefer | retryNone | retryStale |
      retryDefer =>
      exact nofun
  | mainCapture | storeRequest | takeRequest | tickPoll | toggleGameMode | workerCapture |
      checkStale | check | classifyNone | classifySpurious | dispatch | recheckStale | recheck |
      storeFocus | setFocusBit => exact h

section Classifying

variable {s : State} {request : FocusClassifyRequest}

theorem State.Ordered.awaited (h : s.Ordered) (hworker : s.worker = .classifying request) :
    request.requestSerial = s.latestFocusRequestSerial ∨
      s.main.serial = some s.latestFocusRequestSerial ∨
      s.latched = some s.latestFocusRequestSerial := by
  refine or_iff_not_imp_left.mpr fun hne => FocusRouting.Ordered.overtaken h _ ?_ hne
  rw [hworker]
  rfl

theorem Routed.stale_of_classifying (h : Routed s) (hordered : s.Ordered)
    (hworker : s.worker = .classifying request) (cls : FocusClassification)
    (hcls : s.InFlight cls) :
    cls.requestSerial ≠ s.latestFocusRequestSerial := by
  refine h.fresh ?_ cls hcls
  rcases hordered.awaited hworker with hlatest | hmain | hlatched
  · refine Or.inr (Or.inr ?_)
    rw [hworker]
    exact congrArg some hlatest
  · exact Or.inl hmain
  · exact Or.inr (Or.inl hlatched)

theorem Routed.landed_of_dispatchedApplied (h : Routed s) (happlied : s.DispatchedApplied)
    (cls : FocusClassification) (hcls : s.classified = some cls) : s.Landed cls := by
  obtain ⟨hsome, hhwnd, htarget⟩ := h.dispatched cls hcls
  rcases happlied with hzero | ⟨applied, child, happlied, hhwnd', htarget'⟩
  · exact absurd (hhwnd.trans hzero) hsome
  · exact ⟨applied, child, happlied, hhwnd'.trans hhwnd.symm, htarget'.trans htarget.symm⟩

theorem Routed.classifyNone (h : Routed s) (hordered : s.Ordered)
    (hworker : s.worker = .classifying request)
    (happlied : request.requestSerial = s.latestFocusRequestSerial → s.DispatchedApplied) :
    Routed { s with worker := .idle } where
  le cls hcls := h.le cls (hcls.imp_left nofun)
  fresh _ cls hcls := h.stale_of_classifying hordered hworker cls (hcls.imp_left nofun)
  last cls hcls := h.last cls (hcls.imp_left nofun)
  working := by nofun
  dispatched := h.dispatched
  landed := by
    rcases hordered.awaited hworker with hlatest | hmain | hlatched
    · exact Or.inr (Or.inr (h.landed_of_dispatchedApplied (happlied hlatest)))
    · exact Or.inl (Or.inl hmain)
    · exact Or.inl (Or.inr (Or.inl hlatched))

/-- The worker drops the event: its window is the one that was dispatched last. -/
theorem Routed.classifySpurious (h : Routed s) (hordered : s.Ordered)
    (hworker : s.worker = .classifying request) {cls : FocusClassification}
    (hsome : cls.hwndOpaque ≠ 0) (hspurious : s.isSpurious request cls = true)
    (happlied : request.requestSerial = s.latestFocusRequestSerial → s.DispatchedApplied) :
    Routed { s with worker := .idle, classified := some cls } where
  le other hother := h.le other (hother.imp_left nofun)
  fresh _ other hother := h.stale_of_classifying hordered hworker other (hother.imp_left nofun)
  last other hother hserial :=
    absurd hserial (h.stale_of_classifying hordered hworker other (hother.imp_left nofun))
  working := by nofun
  dispatched other hother := by
    cases hother
    exact ⟨hsome, State.isSpurious_eq_true hspurious⟩
  landed := by
    obtain ⟨hhwnd, htarget⟩ := State.isSpurious_eq_true hspurious
    rcases hordered.awaited hworker with hlatest | hmain | hlatched
    · rcases happlied hlatest with hzero | ⟨applied, child, happlied, hhwnd', htarget'⟩
      · exact absurd (hhwnd.trans hzero) hsome
      · refine Or.inr (Or.inr fun other hother => ?_)
        cases hother
        exact ⟨applied, child, happlied, hhwnd'.trans hhwnd.symm, htarget'.trans htarget.symm⟩
    · exact Or.inl (Or.inl hmain)
    · exact Or.inl (Or.inr (Or.inl hlatched))

/-- The worker records the window as dispatched. -/
theorem Routed.dispatch (h : Routed s) (hordered : s.Ordered)
    (hworker : s.worker = .classifying request)
    {cls : FocusClassification} (hsome : cls.hwndOpaque ≠ 0)
    (hserial : cls.requestSerial = request.requestSerial) : Routed (s.dispatch cls) := by
  have hrequested : s.worker.requested = some cls.requestSerial := by
    rw [hworker, hserial]
    rfl
  have hback : ∀ other, (s.dispatch cls).InFlight other → other = cls ∨ s.InFlight other := by
    rintro other (hresult | hrest)
    · exact Or.inl (Option.some.inj hresult).symm
    · exact Or.inr (Or.inr hrest)
  constructor
  · intro other hother
    rcases hback other hother with rfl | hbefore
    · exact FocusRouting.Ordered.requested_le hordered _ hrequested
    · exact h.le other hbefore
  · intro hawaited other hother
    rcases hback other hother with rfl | hbefore
    · intro hlatest
      rcases hawaited with hmain | hlatched | hnone
      · exact FocusRouting.Ordered.main_ne hordered _ hrequested (hlatest ▸ hmain)
      · exact FocusRouting.Ordered.latched_ne hordered _ hrequested (hlatest ▸ hlatched)
      · cases hnone
    · exact h.stale_of_classifying hordered hworker other hbefore
  · intro other hother hlatest
    rcases hback other hother with rfl | hbefore
    · rfl
    · exact absurd hlatest (h.stale_of_classifying hordered hworker other hbefore)
  · exact fun other hother => hother
  · intro other hother
    cases hother
    exact ⟨hsome, rfl, rfl⟩
  · rcases hordered.awaited hworker with hlatest | hmain | hlatched
    · exact Or.inr (Or.inl ⟨cls, Or.inl rfl, hserial.trans hlatest⟩)
    · exact Or.inl (Or.inl hmain)
    · exact Or.inl (Or.inr (Or.inl hlatched))

end Classifying

theorem Routed.request_move {s s' : State} (h : Routed s)
    (hrecord : Routed.record s' = Routed.record s)
    (hawaited : s'.Awaited ↔ s.Awaited) (hresult : s'.worker.result = s.worker.result)
    (hslot : s'.pendingFocus = s.pendingFocus) (hhook : s'.hook.result = s.hook.result)
    (hdeferred : s'.deferredFocusApply = s.deferredFocusApply) : Routed s' := by
  have hsame : ∀ cls, s'.InFlight cls ↔ s.InFlight cls := by
    intro cls
    unfold State.InFlight
    rw [hresult, hslot, hhook, hdeferred]
  exact h.move hrecord hawaited (fun cls => (hsame cls).mp) (fun cls hcls _ => (hsame cls).mpr hcls)
    fun cls hcls => hresult.symm.trans hcls

theorem Routed.hook_move {s s' : State} (h : Routed s)
    (hrecord : Routed.record s' = Routed.record s)
    (hawaited : s'.Awaited ↔ s.Awaited) (hback : ∀ cls, s'.InFlight cls → s.InFlight cls)
    (hworker : s'.worker.result = s.worker.result) (hslot : s'.pendingFocus = s.pendingFocus)
    (hhook : ∀ cls, s.hook.result = some cls → cls.requestSerial = s.latestFocusRequestSerial →
      s'.InFlight cls)
    (hdeferred : ∀ cls, s.deferredFocusApply = some cls →
      cls.requestSerial = s.latestFocusRequestSerial → s'.InFlight cls) : Routed s' := by
  refine h.move hrecord hawaited hback ?_ fun _ hcls => hworker.symm.trans hcls
  rintro cls (hresult | hpending | hrouted | hwaiting) hlatest
  · exact Or.inl (hworker.trans hresult)
  · exact Or.inr (Or.inl (hslot.trans hpending))
  · exact hhook cls hrouted hlatest
  · exact hdeferred cls hwaiting hlatest

/-- The request of the main thread replaces an older one, or none. -/
theorem State.Ordered.awaited_store {s : State} (h : s.Ordered) {request : FocusClassifyRequest}
    (hmain : s.main = .storing request) :
    { s with pendingClassifyRequest := some request, main := .idle }.Awaited ↔ s.Awaited := by
  have hserial : s.main.serial = some request.requestSerial := by
    rw [hmain]
    rfl
  unfold State.Awaited
  rw [hserial]
  constructor
  · rintro (hnone | hlatched | hworker)
    · cases hnone
    · exact Or.inl hlatched
    · exact Or.inr (Or.inr hworker)
  · rintro (hlatest | hlatched | hworker)
    · exact Or.inr (Or.inl hlatest)
    · have hlt := FocusRouting.Ordered.latched_lt h _ _ hlatched hserial
      exact absurd (FocusRouting.Ordered.main_le h _ hserial) (Nat.not_le_of_lt hlt)
    · exact Or.inr (Or.inr hworker)

theorem State.awaited_take {s : State} {request : FocusClassifyRequest} (hworker : s.worker = .idle)
    (hpending : s.pendingClassifyRequest = some request) :
    { s with pendingClassifyRequest := none, worker := .checking request }.Awaited ↔ s.Awaited := by
  unfold State.Awaited State.latched
  rw [hworker, hpending]
  constructor
  · rintro (hmain | hnone | hlatest)
    · exact Or.inl hmain
    · cases hnone
    · exact Or.inr (Or.inl hlatest)
  · rintro (hmain | hlatest | hnone)
    · exact Or.inl hmain
    · exact Or.inr (Or.inr hlatest)
    · cases hnone

/-- A stale request is dropped. -/
theorem State.awaited_checkStale {s : State} {request : FocusClassifyRequest}
    (hworker : s.worker = .checking request)
    (hserial : request.requestSerial ≠ s.latestFocusRequestSerial) :
    { s with worker := .idle }.Awaited ↔ s.Awaited := by
  unfold State.Awaited
  rw [hworker]
  constructor
  · rintro (hmain | hlatched | hnone)
    · exact Or.inl hmain
    · exact Or.inr (Or.inl hlatched)
    · cases hnone
  · rintro (hmain | hlatched | hlatest)
    · exact Or.inl hmain
    · exact Or.inr (Or.inl hlatched)
    · exact absurd (Option.some.inj hlatest) hserial

theorem Routed.step {s s' : State} {event : Event} (h : Routed s) (hordered : s.Ordered)
    (htimely : Timely s) (htime : InTime s event) (hstep : Step s event s') : Routed s' := by
  have hback := hstep.inFlight_of_ne
  cases hstep with
  | onFocusChanged =>
      exact h.fetchAdd (next_of_lt htime.1) rfl ⟨rfl, rfl⟩ (hback (by nofun)) (fun _ hcls => hcls)
        (Or.inl rfl)
  | workerFetchAdd =>
      exact h.fetchAdd (next_of_lt htime.1) rfl ⟨rfl, rfl⟩ (hback (by nofun)) (by nofun)
        (Or.inr (Or.inr rfl))
  | mainCapture hmain =>
      refine h.request_move rfl ?_ rfl rfl rfl rfl
      unfold State.Awaited
      rw [hmain]
      exact Iff.rfl
  | storeRequest hmain => exact h.request_move rfl (hordered.awaited_store hmain) rfl rfl rfl rfl
  | takeRequest hworker hpending =>
      refine h.request_move rfl (State.awaited_take hworker hpending) ?_ rfl rfl rfl
      rw [hworker]
      rfl
  | checkStale hworker hserial =>
      refine h.request_move rfl (State.awaited_checkStale hworker hserial) ?_ rfl rfl rfl
      rw [hworker]
      rfl
  | tickPoll _ hworker | toggleGameMode hworker | workerCapture hworker | check hworker
    | setFocusBit hworker =>
      refine h.request_move rfl ?_ ?_ rfl rfl rfl
      · unfold State.Awaited
        rw [hworker]
        exact Iff.rfl
      · rw [hworker]
        rfl
  | classifyNone hworker hnone =>
      exact h.classifyNone hordered hworker fun hlatest => htime _ hworker hlatest (Or.inl hnone)
  | classifySpurious hworker hsome hspurious =>
      exact h.classifySpurious hordered hworker hsome hspurious fun hlatest =>
        htime _ hworker hlatest (Or.inr hspurious)
  | dispatch hworker hsome => exact h.dispatch hordered hworker hsome rfl
  | recheck hworker =>
      refine h.request_move rfl ?_ ?_ rfl rfl rfl
      · unfold State.Awaited
        rw [hworker]
        exact Iff.rfl
      · rw [hworker]
        rfl
  | recheckStale hworker hserial =>
      refine h.move rfl ?_ (hback (by nofun)) ?_ (by nofun)
      · unfold State.Awaited
        rw [hworker]
        exact Iff.rfl
      · rintro cls (hresult | hrest) hlatest
        · rw [hworker] at hresult
          cases hresult
          exact absurd hlatest hserial
        · exact Or.inr hrest
  | @storeFocus cls hworker =>
      have hlast : s.classified = some cls := h.working cls (by rw [hworker]; rfl)
      refine h.move rfl ?_ (hback (by nofun)) ?_ (by nofun)
      · unfold State.Awaited
        rw [hworker]
        exact Iff.rfl
      · rintro other (hresult | hslot | hrest) hlatest
        · rw [hworker] at hresult
          exact Or.inr (Or.inl hresult)
        · have hother := h.last other (Or.inr (Or.inl hslot)) hlatest
          exact Or.inr (Or.inl (hlast.symm.trans hother))
        · exact Or.inr (Or.inr hrest)
  | drainBits hhook =>
      refine h.request_move rfl Iff.rfl rfl rfl ?_ rfl
      dsimp only
      rw [hhook]
      split <;> rfl
  | consumePendingFocus hhook hslot =>
      refine h.move rfl Iff.rfl (hback (by nofun)) ?_ fun _ hcls => hcls
      rintro other (hresult | hother | hnone | hdeferred) -
      · exact Or.inl hresult
      · exact Or.inr (Or.inr (Or.inl (hslot.symm.trans hother)))
      · rw [hhook] at hnone
        cases hnone
      · exact Or.inr (Or.inr (Or.inr hdeferred))
  | consumeNone hhook | retryNone hhook | retryDefer hhook =>
      refine h.request_move rfl Iff.rfl rfl rfl ?_ rfl
      rw [hhook]
      rfl
  | routeStale hhook hdecide =>
      have hserial := (decideFocusApply_eq_dropStale _).mp hdecide
      refine h.hook_move rfl Iff.rfl (hback (by nofun)) rfl rfl ?_ fun _ hother _ =>
        Or.inr (Or.inr (Or.inr hother))
      intro other hother hlatest
      rw [hhook] at hother
      cases hother
      exact absurd hlatest hserial
  | @routeDefer cls hhook hdecide =>
      have hserial := ((decideFocusApply_eq_deferUntilBoundary _).mp hdecide).1
      have hrouted : s.InFlight cls := Or.inr (Or.inr (Or.inl (by rw [hhook]; rfl)))
      refine h.hook_move rfl Iff.rfl (hback (by nofun)) rfl rfl ?_ ?_
      · intro other hother _
        rw [hhook] at hother
        exact Or.inr (Or.inr (Or.inr hother))
      · -- both are the last result of the worker
        intro other hother hlatest
        have hsame := h.last other (Or.inr (Or.inr (Or.inr hother))) hlatest
        exact Or.inr (Or.inr (Or.inr ((h.last cls hrouted hserial).symm.trans hsame)))
  | @routeApply cls hhook hdecide =>
      have hserial := ((decideFocusApply_eq_applyNow _).mp hdecide).1
      have hrouted : s.InFlight cls := Or.inr (Or.inr (Or.inl (by rw [hhook]; rfl)))
      refine h.hook_move rfl Iff.rfl (hback (by nofun)) rfl rfl ?_ ?_
      · intro other hother _
        rw [hhook] at hother
        exact Or.inr (Or.inr (Or.inl hother))
      · intro other hother hlatest
        have hsame := h.last other (Or.inr (Or.inr (Or.inr hother))) hlatest
        exact Or.inr (Or.inr (Or.inl ((h.last cls hrouted hserial).symm.trans hsame)))
  | retryStale hhook hcls hdecide =>
      have hserial := (decideFocusApply_eq_dropStale _).mp hdecide
      refine h.hook_move rfl Iff.rfl (hback (by nofun)) rfl rfl ?_ ?_
      · intro other hother
        rw [hhook] at hother
        cases hother
      · intro other hother hlatest
        cases hcls.symm.trans hother
        exact absurd hlatest hserial
  | retryApply hhook hcls hdecide =>
      refine h.hook_move rfl Iff.rfl (hback (by nofun)) rfl rfl ?_ ?_
      · intro other hother
        rw [hhook] at hother
        cases hother
      · exact fun other hother _ => Or.inr (Or.inr (Or.inl (hcls.symm.trans hother)))
  | @apply deferred cls child _ _ hhook =>
      have happlied : s.InFlight cls := Or.inr (Or.inr (Or.inl (by rw [hhook]; rfl)))
      have hlast := h.last cls happlied (htimely deferred cls hhook).1
      refine ⟨fun other hother => h.le other (hback (by nofun) other hother),
        fun hawaited other hother => h.fresh hawaited other (hback (by nofun) other hother),
        fun other hother => h.last other (hback (by nofun) other hother), h.working, h.dispatched,
        Or.inr (Or.inr fun other hother => ?_)⟩
      cases hlast.symm.trans hother
      exact ⟨cls, child, rfl, rfl, rfl⟩
  | keyDown | wordBoundary => exact h.request_move rfl Iff.rfl rfl rfl rfl rfl

/-! ## Keys since a request -/

/-- A request with the serial was captured, and `quiet` says whether no key has been pressed
since. -/
def CapturedAt (events : List Event) (serial : Nat) (quiet : Prop) : Prop :=
  ∃ before request after, events = before ++ .capture request :: after ∧
    request.requestSerial = serial ∧
      (quiet → ∀ hasComposition, Event.keyDown hasComposition ∉ after)

/-- No key has been pressed since the request with the serial was captured. -/
def NoKeySinceCapture (events : List Event) (serial : Nat) : Prop := CapturedAt events serial True

theorem CapturedAt.snoc {events : List Event} {serial : Nat} {quiet quiet' : Prop}
    (h : CapturedAt events serial quiet) {event : Event} (hquiet : quiet' → quiet)
    (hevent : quiet' → ∀ hasComposition, event ≠ .keyDown hasComposition) :
    CapturedAt (events ++ [event]) serial quiet' := by
  obtain ⟨before, request, after, rfl, hserial, hnone⟩ := h
  refine ⟨before, request,
    after ++ [event], by simp, hserial, fun hquiet' hasComposition hmem => ?_⟩
  rcases List.mem_append.mp hmem with hmem | hmem
  · exact hnone (hquiet hquiet') hasComposition hmem
  · exact hevent hquiet' hasComposition (List.mem_singleton.mp hmem).symm

theorem capturedAt_capture (events : List Event) (request : FocusClassifyRequest) (quiet : Prop) :
    CapturedAt (events ++ [.capture request]) request.requestSerial quiet :=
  ⟨events, request, [], rfl, rfl, fun _ _ => List.not_mem_nil⟩

/-- A request or a result was captured at its epoch. -/
def Recorded (events : List Event) (epoch serial epochAtRequest : Nat) : Prop :=
  epochAtRequest ≤ epoch ∧ CapturedAt events serial (epochAtRequest = epoch)

structure Records (events : List Event) (s : State) : Prop where
  held : ∀ request, s.Held request →
    Recorded events s.physicalInputEpoch request.requestSerial request.inputEpochAtRequest
  inFlight : ∀ cls, s.InFlight cls →
    Recorded events s.physicalInputEpoch cls.requestSerial cls.inputEpochAtRequest

theorem Records.initial : Records [] State.initial where
  held request hrequest := by rcases hrequest with h | h | h | h <;> cases h
  inFlight cls hcls := by rcases hcls with h | h | h | h <;> cases h

theorem Step.physicalInputEpoch {s s' : State} {event : Event} (h : Step s event s')
    (htime : InTime s event) :
    s'.physicalInputEpoch = s.physicalInputEpoch + 1 ∨
      s'.physicalInputEpoch = s.physicalInputEpoch ∧
        ∀ hasComposition, event ≠ .keyDown hasComposition := by
  cases h with
  | keyDown => exact Or.inl (next_of_lt htime)
  | _ => exact Or.inr ⟨rfl, by nofun⟩

theorem Recorded.step {events : List Event} {s s' : State} {event : Event}
    {serial epochAtRequest : Nat}
    (h : Recorded events s.physicalInputEpoch serial epochAtRequest) (htime : InTime s event)
    (hstep : Step s event s') :
    Recorded (events ++ [event]) s'.physicalInputEpoch serial epochAtRequest := by
  obtain ⟨hle, hcaptured⟩ := h
  rcases hstep.physicalInputEpoch htime with hnext | ⟨hsame, hevent⟩
  · rw [hnext]
    have hne : epochAtRequest ≠ s.physicalInputEpoch + 1 := by omega
    exact ⟨Nat.le_succ_of_le hle, hcaptured.snoc (fun heq => absurd heq hne)
      fun heq => absurd heq hne⟩
  · rw [hsame]
    exact ⟨hle, hcaptured.snoc id fun _ => hevent⟩

theorem Records.step {events : List Event} {s s' : State} {event : Event} (h : Records events s)
    (htime : InTime s event) (hstep : Step s event s') : Records (events ++ [event]) s' where
  held request hrequest := by
    rcases hstep.held hrequest with hbefore | ⟨rfl, hepoch⟩
    · exact (h.held request hbefore).step htime hstep
    · refine ⟨?_, capturedAt_capture events request _⟩
      rcases hstep.physicalInputEpoch htime with hnext | ⟨hsame, -⟩ <;> omega
  inFlight cls hcls := by
    rcases hstep.inFlight hcls with hbefore | ⟨request, desktop, hworker, rfl, -⟩
    · exact (h.inFlight cls hbefore).step htime hstep
    · have hheld : s.Held request := Or.inr (Or.inr (Or.inr hworker))
      exact (h.held request hheld).step htime hstep

/-- The window and the target that are in force are those of the classification that was applied. -/
def InForce (s : State) : Prop :=
  ∀ cls child, s.applied = some (cls, child) →
    s.lastAppliedHwnd = cls.hwndOpaque ∧ s.lastAppliedEffectiveFocusHwnd = cls.effectiveFocus child

theorem InForce.step {s s' : State} {event : Event} (h : InForce s) (hstep : Step s event s') :
    InForce s' := by
  cases hstep with
  | @apply _ cls child tracksApps keepsEngine =>
      intro other child' hother
      cases hother
      exact s.lastApplied_applyFocus cls child tracksApps keepsEngine
  | _ => exact h

/-- What holds of a run so far. -/
structure RoutingHistory (events : List Event) (s : State) : Prop where
  ordered : s.Ordered
  timely : Timely s
  routed : Routed s
  inForce : InForce s
  records : Records events s

theorem RoutingHistory.of_run {events : List Event} {s : State}
    (h : Run (Meeting InTime Step) State.initial events s) : RoutingHistory events s := by
  apply h.history
  · exact ⟨Ordered.initial, by nofun, Routed.initial, by nofun, Records.initial⟩
  · rintro events s event s' ⟨hordered, htimely, hrouted, hinForce, hrecords⟩ ⟨htime, hstep⟩
    exact ⟨hordered.step htime hstep, htimely.step htime hstep,
      hrouted.step hordered htimely htime hstep, hinForce.step hstep, hrecords.step htime hstep⟩

/-- The result that the hook thread is about to apply is of the latest request, and no key of the
word was pressed after that request was captured. -/
def State.AppliesCurrent (events : List Event) (s : State) : Prop :=
  ∀ deferred cls, s.hook = .applying deferred cls →
    cls.requestSerial = s.latestFocusRequestSerial ∧
      (s.hasComposition = true → NoKeySinceCapture events cls.requestSerial)

/-- The window and the target that were applied last are those of the window that was classified
last. -/
def State.ForegroundInForce (s : State) : Prop :=
  ∀ cls, s.classified = some cls → ∃ applied child, s.applied = some (applied, child) ∧
    applied.hwndOpaque = cls.hwndOpaque ∧ applied.target = cls.target ∧
      s.lastAppliedHwnd = cls.hwndOpaque ∧
        s.lastAppliedEffectiveFocusHwnd = applied.effectiveFocus child

/-- In a run in time only current results are applied, and the window that was classified last is in
force whenever nothing is under way. -/
theorem foregroundInForce_of_run {events : List Event} {s : State}
    (h : Run (Meeting InTime Step) State.initial events s) :
    s.AppliesCurrent events ∧ (s.Quiescent → s.ForegroundInForce) := by
  have hhistory := RoutingHistory.of_run h
  constructor
  · intro deferred cls hhook
    obtain ⟨hserial, hepoch⟩ := hhistory.timely deferred cls hhook
    refine ⟨hserial, fun hcomposition => ?_⟩
    have hinFlight : s.InFlight cls := Or.inr (Or.inr (Or.inl (by rw [hhook]; rfl)))
    obtain ⟨before, request, after, hevents, hrequest, hnone⟩ :=
      (hhistory.records.inFlight cls hinFlight).2
    exact ⟨before, request, after, hevents, hrequest, fun _ => hnone (hepoch hcomposition)⟩
  · intro hquiescent cls hcls
    obtain ⟨applied, child, happlied, hhwnd, htarget⟩ :=
      hhistory.routed.landed_of_quiescent hquiescent cls hcls
    obtain ⟨hlastHwnd, hlastFocus⟩ := hhistory.inForce applied child happlied
    exact ⟨applied, child, happlied, hhwnd, htarget, hlastHwnd.trans hhwnd, hlastFocus⟩

/-- Windows without children, one of them in front. -/
def exampleDesktop (foreground : Hwnd) : Desktop where
  foreground := foreground
  isHelper _ := false
  focusedChild _ := 0
  pid := id
  exeName _ := "app"

/-- A window comes to the front, and its classification is applied. -/
def exampleFocus : List Event :=
  [.onFocusChanged 1, .capture ⟨1, 1, 0⟩, .storeRequest, .takeRequest, .check,
    .classify (exampleDesktop 1), .recheck, .storeFocus, .setFocusBit,
      .drainBits, .consumePendingFocus,
    .route, .apply 0, .retryDeferred]

/-- The state after it. -/
def exampleState : State :=
  { State.initial with
    latestFocusRequestSerial := 1
    lastDispatchedHwnd := 1
    lastDispatchedTargetHwnd := 1
    lastForegroundPid := 1
    lastAppliedHwnd := 1
    lastAppliedEffectiveFocusHwnd := 1
    classified := some (classify ⟨1, 1, 0⟩ (exampleDesktop 1))
    applied := some (classify ⟨1, 1, 0⟩ (exampleDesktop 1), 0) }

theorem run_exampleFocus : Run (Meeting InTime Step) State.initial exampleFocus exampleState :=
  .cons ⟨⟨by decide, by nofun⟩, .onFocusChanged 1 rfl⟩ (.cons ⟨trivial, .mainCapture rfl⟩
    (.cons ⟨trivial, .storeRequest rfl⟩ (.cons ⟨trivial, .takeRequest rfl rfl⟩
      (.cons ⟨trivial, .check rfl rfl⟩
        (.cons ⟨(by rintro _ ⟨⟩ _ (h | h) <;> cases h), .dispatch rfl (by decide) rfl⟩
          (.cons ⟨trivial, .recheck rfl rfl⟩ (.cons ⟨trivial, .storeFocus rfl⟩
            (.cons ⟨trivial, .setFocusBit rfl⟩ (.cons ⟨trivial, .drainBits rfl⟩
              (.cons ⟨trivial, .consumePendingFocus rfl rfl⟩ (.cons ⟨trivial, .routeApply rfl rfl⟩
                (.cons ⟨trivial, .apply 0 true true rfl⟩
                  (.cons ⟨trivial, .retryNone rfl rfl⟩ .nil)))))))))))))

theorem foregroundInForce_of_run_focus : ∃ (events : List Event) (s : State),
    Run (Meeting InTime Step) State.initial events s ∧ s.Quiescent ∧ s.classified ≠ none ∧
      s.ForegroundInForce :=
  ⟨_, _, run_exampleFocus, ⟨rfl, rfl, rfl, rfl, rfl, rfl, rfl, rfl⟩, by nofun,
    (foregroundInForce_of_run run_exampleFocus).2 ⟨rfl, rfl, rfl, rfl, rfl, rfl, rfl, rfl⟩⟩

/-- A second window is dispatched, and an event of a third one overtakes it before it is posted.
That event finds the second window in front, as it was dispatched: nothing is posted, and the first
window stays in force. -/
theorem not_foregroundInForce_of_run : ¬∀ (events : List Event) (s : State),
    Run Step State.initial events s → s.AppliesCurrent events ∧
    (s.Quiescent → s.ForegroundInForce) := by
  intro h
  have hrun : Run Step exampleState
      [.onFocusChanged 2, .capture ⟨2, 2, 0⟩, .storeRequest, .takeRequest, .check,
        .classify (exampleDesktop 2), .onFocusChanged 3, .capture ⟨3, 3, 0⟩,
          .storeRequest, .recheck,
        .takeRequest, .check, .classify (exampleDesktop 2), .drainBits, .retryDeferred] _ :=
    .cons (.onFocusChanged 2 rfl) (.cons (.mainCapture rfl) (.cons (.storeRequest rfl)
      (.cons (.takeRequest rfl rfl) (.cons (.check rfl rfl) (.cons (.dispatch rfl (by decide) rfl)
        (.cons (.onFocusChanged 3 rfl) (.cons (.mainCapture rfl) (.cons (.storeRequest rfl)
          (.cons (.recheckStale rfl (by decide)) (.cons (.takeRequest rfl rfl)
            (.cons (.check rfl rfl) (.cons (.classifySpurious rfl (by decide) rfl)
              (.cons (.drainBits rfl) (.cons (.retryNone rfl rfl) .nil))))))))))))))
  have hfirst := run_exampleFocus.mono fun _ _ _ hstep => hstep.2
  obtain ⟨applied, child, -, -, -, hhwnd, -⟩ :=
    (h _ _ (hfirst.append hrun)).2 ⟨rfl, rfl, rfl, rfl, rfl, rfl, rfl, rfl⟩ _ rfl
  exact absurd (show 1 = 2 from hhwnd) (by decide)

end FocusRouting

end HookEngine

end VKey
