import VKey.Hook.ToggleMode

/-!
# The parity of the toggles

When all toggles are drained, the mode and the flag are the first mode flipped once per toggle, if
no toggle has been disturbed.
-/

namespace VKey

namespace HookEngine

namespace ToggleVietnameseMode

variable {ι κ : Type}

/-- The mode that a drain has found in the latch or decided. -/
def Draining.target : Draining → Option Bool
  | .gating pendingToggleMode => pendingToggleMode
  | .deciding pendingToggleMode => pendingToggleMode
  | .storing newMode => some newMode
  | _ => none

/-- A toggle will still store the last value in the latch. -/
def Stored (s : State ι κ) : Prop := ∃ i, s.toggling i = .storing s.last

/-- The last value is on its way to the mode. -/
def Due (s : State ι κ) : Prop :=
  Stored s ∨ s.pendingToggleMode = some s.last ∨ s.draining.target = some s.last

/-- The last value is on its way to the flag. -/
def FlagDue (s : State ι κ) : Prop :=
  Due s ∨ s.vietnameseMode = s.last ∧ s.draining = .notifying ∨ s.draining = .publishing s.last

/-- A toggle finds in the flag the value of the toggle before it; an older target is not the last
one to be stored in the latch; a drain that reads the flag, and a notification that writes it, take
the last value, unless that value is still on its way. -/
def Undisturbed (s : State ι κ) : Event ι κ → Prop
  | .toggleFlag _ => s.flag = s.last
  | .storePending i => ∀ target, s.toggling i = .storing target →
      target = s.last ∨ ∃ j, j ≠ i ∧ s.toggling j = .storing s.last
  | .decide => s.draining = .deciding none →
      s.flag = s.last ∨ Stored s ∨ s.pendingToggleMode = some s.last
  | .publish => ∀ sharedMode, s.draining = .publishing sharedMode → sharedMode = s.last ∨ Due s
  | .publishNotice k => ∀ sharedMode, s.notifying k = some sharedMode →
      sharedMode = s.last ∨ FlagDue s
  | _ => True

/-- The mode and the flag have the last value or will have it; what is in the latch or in a drain is
not older than what will still be stored; and a full latch will be drained. -/
structure Coherent (vietnameseMode : Bool) (events : List (Event ι κ)) (s : State ι κ) : Prop where
  parity : s.last = flipped vietnameseMode events
  unlocked : s.focus.NoHardLock
  mode : s.vietnameseMode = s.last ∨ Due s
  flag : s.flag = s.last ∨ FlagDue s
  latch : ∀ target, s.pendingToggleMode = some target → target = s.last ∨ Stored s
  drained : ∀ target, s.draining.target = some target →
    target = s.last ∨ Stored s ∨ s.pendingToggleMode = some s.last
  awake : s.pendingToggleMode ≠ none →
    s.kToggleVN = true ∨ (∃ i, s.toggling i = .posting) ∨ s.draining = .taken

theorem flipped_append (vietnameseMode : Bool) (events : List (Event ι κ)) (event : Event ι κ) :
    flipped vietnameseMode (events ++ [event]) = flipped (flipped vietnameseMode events)
    [event] := by
  rw [flipped, List.foldl_append]
  rfl

theorem Coherent.initial {vietnameseMode : Bool} {focus : Focus} (hlock : focus.NoHardLock) :
    Coherent vietnameseMode [] (State.initial vietnameseMode focus : State ι κ) where
  parity := rfl
  unlocked := hlock
  mode := Or.inl rfl
  flag := Or.inl rfl
  latch _ := by nofun
  drained _ := by nofun
  awake h := absurd rfl h

namespace Coherent

variable {vietnameseMode : Bool} {events : List (Event ι κ)} {s : State ι κ}

/-- A step of the hook thread before it stores the mode. -/
theorem drainTo (h : Coherent vietnameseMode events s) {event : Event ι κ}
    (hevent : ∀ mode, flipped mode [event] = mode) {pending : Option Bool} {bit : Bool}
    {draining : Draining} (hnotifying : s.draining ≠ .notifying)
    (hpublishing : ∀ sharedMode, s.draining ≠ .publishing sharedMode)
    (hlatch : pending = s.pendingToggleMode ∨ pending = none ∧
      draining.target = s.pendingToggleMode)
    (htarget : s.draining.target = none ∨ s.draining.target = draining.target)
    (hdrained : ∀ target, draining.target = some target →
      target = s.last ∨ Stored s ∨ pending = some s.last)
    (hawake : pending ≠ none →
      bit = true ∨ (∃ i, s.toggling i = .posting) ∨ draining = .taken) :
    Coherent vietnameseMode (events ++ [event])
      ({ s with pendingToggleMode := pending, kToggleVN := bit }.drainTo draining) := by
  have hdue : Due s →
      Due ({ s with pendingToggleMode := pending, kToggleVN := bit }.drainTo draining) := by
    rintro (hstored | hpending | htaken)
    · exact Or.inl hstored
    · rcases hlatch with heq | ⟨-, heq⟩
      · exact Or.inr (Or.inl (heq.trans hpending))
      · exact Or.inr (Or.inr (heq.trans hpending))
    · rcases htarget with heq | heq
      · cases heq.symm.trans htaken
      · exact Or.inr (Or.inr (heq.symm.trans htaken))
  refine ⟨?_, h.unlocked, h.mode.imp_right hdue, h.flag.imp_right ?_, ?_, hdrained, hawake⟩
  · rw [flipped_append, ← h.parity]
    exact (hevent s.last).symm
  · rintro (hflag | ⟨-, hflag⟩ | hflag)
    · exact Or.inl (hdue hflag)
    · exact absurd hflag hnotifying
    · exact absurd hflag (hpublishing _)
  · intro target htarget
    rcases hlatch with rfl | ⟨rfl, -⟩
    · exact h.latch target htarget
    · cases htarget

/-- The place of the hook thread does not matter for the latch, except before it takes it. -/
theorem awake_of_ne (h : Coherent vietnameseMode events s) (hne : s.draining ≠ .taken)
    (hfull : s.pendingToggleMode ≠ none) :
    s.kToggleVN = true ∨ (∃ i, s.toggling i = .posting) ∨ False :=
  (h.awake hfull).imp_right (Or.imp_right hne)

theorem take (h : Coherent vietnameseMode events s) (hdraining : s.draining = .idle) :
    Coherent vietnameseMode (events ++ [.drain]) ({ s with kToggleVN := false }.drainTo .taken) :=
  h.drainTo (fun _ => rfl) (by rw [hdraining]; nofun) (by rw [hdraining]; nofun) (Or.inl rfl)
    (Or.inl (by rw [hdraining]; rfl)) (by nofun) fun _ => Or.inr (Or.inr rfl)

theorem exchange (h : Coherent vietnameseMode events s) (hdraining : s.draining = .taken) :
    Coherent vietnameseMode (events ++ [.drain])
      ({ s with pendingToggleMode := none }.drainTo (.gating s.pendingToggleMode)) :=
  h.drainTo (fun _ => rfl) (by rw [hdraining]; nofun) (by rw [hdraining]; nofun) (Or.inr ⟨rfl, rfl⟩)
    (Or.inl (by rw [hdraining]; rfl))
    (fun target htarget => (h.latch target htarget).imp_right Or.inl) fun hfull => absurd rfl hfull

theorem pass (h : Coherent vietnameseMode events s) {pending : Option Bool}
    (hdraining : s.draining = .gating pending) :
    Coherent vietnameseMode (events ++ [.drain]) (s.drainTo (.deciding pending)) := by
  have htarget : s.draining.target = pending := by rw [hdraining]; rfl
  exact h.drainTo (fun _ => rfl) (by rw [hdraining]; nofun) (by rw [hdraining]; nofun) (Or.inl rfl)
    (Or.inr htarget) (fun target hdrained => h.drained target (htarget.trans hdrained))
    fun hfull =>
      (h.awake_of_ne (by rw [hdraining]; nofun) hfull).imp_right (Or.imp_right False.elim)

theorem decide (h : Coherent vietnameseMode events s) {pending : Option Bool}
    (hdraining : s.draining = .deciding pending)
    (hflag : s.draining = .deciding none →
      s.flag = s.last ∨ Stored s ∨ s.pendingToggleMode = some s.last) :
    Coherent vietnameseMode (events ++ [.decide]) (s.drainTo (.storing (pending.getD s.flag))) := by
  have htarget : s.draining.target = pending := by rw [hdraining]; rfl
  apply h.drainTo (fun _ => rfl) (by rw [hdraining]; nofun) (by rw [hdraining]; nofun) (Or.inl rfl)
  · cases pending with
    | none => exact Or.inl htarget
    | some found => exact Or.inr htarget
  · intro target hdrained
    cases pending with
    | none =>
        obtain rfl := Option.some.inj hdrained
        exact hflag hdraining
    | some found => exact h.drained target (htarget.trans hdrained)
  · exact fun hfull =>
      (h.awake_of_ne (by rw [hdraining]; nofun) hfull).imp_right (Or.imp_right False.elim)

/-- The drain has decided for the last value, unless that is still to come. -/
theorem storeMode (h : Coherent vietnameseMode events s) {newMode : Bool}
    (hdraining : s.draining = .storing newMode) :
    Coherent vietnameseMode (events ++ [.drain])
      ({ s with vietnameseMode := newMode }.drainTo .notifying) := by
  have hdecided :
    newMode = s.last ∨ Due ({ s with vietnameseMode := newMode }.drainTo .notifying) := by
    rcases h.drained newMode (by rw [hdraining]; rfl) with heq | hstored | hpending
    · exact Or.inl heq
    · exact Or.inr (Or.inl hstored)
    · exact Or.inr (Or.inr (Or.inl hpending))
  refine ⟨?_, h.unlocked, hdecided, Or.inr ?_, h.latch, by nofun,
    fun hfull =>
      (h.awake_of_ne (by rw [hdraining]; nofun) hfull).imp_right (Or.imp_right False.elim)⟩
  · rw [flipped_append, ← h.parity]
    rfl
  · exact hdecided.symm.imp_right fun heq => Or.inl ⟨heq, rfl⟩

theorem loadMode (h : Coherent vietnameseMode events s) (hdraining : s.draining = .notifying) :
    Coherent vietnameseMode (events ++ [.drain])
      (s.drainTo (.publishing (s.focus.sharedMode s.vietnameseMode))) := by
  have htarget : s.draining.target = none := by rw [hdraining]; rfl
  have hdue : Due s → Due (s.drainTo (.publishing (s.focus.sharedMode s.vietnameseMode))) := by
    rintro (hstored | hpending | htaken)
    · exact Or.inl hstored
    · exact Or.inr (Or.inl hpending)
    · cases htarget.symm.trans htaken
  refine ⟨?_, h.unlocked, h.mode.imp_right hdue, ?_, h.latch, by nofun,
    fun hfull =>
      (h.awake_of_ne (by rw [hdraining]; nofun) hfull).imp_right (Or.imp_right False.elim)⟩
  · rw [flipped_append, ← h.parity]
    rfl
  · right
    rcases h.mode with hmode | hmode
    · right
      right
      rw [h.unlocked.sharedMode_eq, hmode]
      rfl
    · exact Or.inl (hdue hmode)

theorem publish (h : Coherent vietnameseMode events s) {sharedMode : Bool}
    (hdraining : s.draining = .publishing sharedMode) (hlast : sharedMode = s.last ∨ Due s) :
    Coherent vietnameseMode (events ++ [.publish])
    ({ s with flag := sharedMode }.drainTo .idle) := by
  have htarget : s.draining.target = none := by rw [hdraining]; rfl
  have hdue : Due s → Due ({ s with flag := sharedMode }.drainTo .idle) := by
    rintro (hstored | hpending | htaken)
    · exact Or.inl hstored
    · exact Or.inr (Or.inl hpending)
    · cases htarget.symm.trans htaken
  refine ⟨?_, h.unlocked, h.mode.imp_right hdue, hlast.imp_right fun hlast => Or.inl (hdue hlast),
    h.latch, by nofun,
    fun hfull =>
      (h.awake_of_ne (by rw [hdraining]; nofun) hfull).imp_right (Or.imp_right False.elim)⟩
  rw [flipped_append, ← h.parity]
  rfl

/-- When everything is drained, nothing is on its way. -/
theorem not_flagDue (h : Coherent vietnameseMode events s) (hquiet : Quiescent s) : ¬FlagDue s := by
  have hstored : ¬Stored s := by
    rintro ⟨i, hi⟩
    cases (hquiet.toggling i).symm.trans hi
  have hpending : s.pendingToggleMode = none := by
    by_contra hfull
    rcases h.awake hfull with hbit | ⟨i, hi⟩ | htaken
    · cases hquiet.bit.symm.trans hbit
    · cases (hquiet.toggling i).symm.trans hi
    · cases hquiet.draining.symm.trans htaken
  rw [FlagDue, Due, hpending, hquiet.draining]
  rintro ((hdue | hdue | hdue) | ⟨-, hdue⟩ | hdue)
  · exact hstored hdue
  all_goals cases hdue

end Coherent

variable [DecidableEq ι]

theorem exists_update_of_ne {toggling : ι → Toggling} {i : ι} {place : Toggling}
    (h : ∃ j, toggling j = place) (hne : toggling i ≠ place) (new : Toggling) :
    ∃ j, Function.update toggling i new j = place := by
  obtain ⟨j, hj⟩ := h
  refine ⟨j, (Function.update_of_ne ?_ ..).trans hj⟩
  rintro rfl
  exact hne hj

namespace Coherent

variable {vietnameseMode : Bool} {events : List (Event ι κ)} {s : State ι κ}

theorem toggleFlag (h : Coherent vietnameseMode events s) {i : ι} (hi : s.toggling i = .idle)
    (hflag : s.flag = s.last) : Coherent vietnameseMode (events ++ [.toggleFlag i])
      ({ s with flag := !s.flag, last := !s.flag }.toggleTo i (.storing !s.flag)) := by
  have hstored :
    Stored ({ s with flag := !s.flag, last := !s.flag }.toggleTo i (.storing !s.flag)) :=
    ⟨i, Function.update_self ..⟩
  refine ⟨?_, h.unlocked, Or.inr (Or.inl hstored), Or.inr (Or.inl (Or.inl hstored)),
    fun _ _ => Or.inr hstored, fun _ _ => Or.inr (Or.inl hstored), fun hfull => ?_⟩
  · rw [flipped_append, ← h.parity, ← hflag]
    rfl
  · rcases h.awake hfull with hbit | hposting | htaken
    · exact Or.inl hbit
    · exact Or.inr (Or.inl (exists_update_of_ne hposting (by rw [hi]; nofun) _))
    · exact Or.inr (Or.inr htaken)

theorem storePending (h : Coherent vietnameseMode events s) {i : ι} {target : Bool}
    (htarget : target = s.last ∨ ∃ j, j ≠ i ∧ s.toggling j = .storing s.last) :
    Coherent vietnameseMode (events ++ [.storePending i])
      ({ s with pendingToggleMode := some target }.toggleTo i .posting) := by
  have hlast : target = s.last ∨
      Stored ({ s with pendingToggleMode := some target }.toggleTo i .posting) := by
    rcases htarget with heq | ⟨j, hne, hj⟩
    · exact Or.inl heq
    · exact Or.inr ⟨j, (Function.update_of_ne hne ..).trans hj⟩
  have hdue : Stored ({ s with pendingToggleMode := some target }.toggleTo i .posting) ∨
      some target = some s.last := hlast.symm.imp_right (congrArg some)
  refine ⟨?_, h.unlocked, Or.inr (hdue.imp_right Or.inl),
    Or.inr (Or.inl (hdue.imp_right Or.inl)), ?_,
    fun _ _ => Or.inr hdue, fun _ => Or.inr (Or.inl ⟨i, Function.update_self ..⟩)⟩
  · rw [flipped_append, ← h.parity]
    rfl
  · intro other hother
    obtain rfl := Option.some.inj hother
    exact hlast

theorem post (h : Coherent vietnameseMode events s) {i : ι} (hi : s.toggling i = .posting) :
    Coherent vietnameseMode (events ++ [.post i])
      ({ s with kToggleVN := true }.toggleTo i .idle) := by
  have hstored : Stored s → Stored ({ s with kToggleVN := true }.toggleTo i .idle) := fun hstored =>
    exists_update_of_ne hstored (by rw [hi]; nofun) _
  have hdue : Due s → Due ({ s with kToggleVN := true }.toggleTo i .idle) := Or.imp_left hstored
  refine ⟨?_, h.unlocked, h.mode.imp_right hdue, h.flag.imp_right (Or.imp_left hdue),
    fun target htarget => (h.latch target htarget).imp_right hstored,
    fun target htarget => (h.drained target htarget).imp_right (Or.imp_left hstored),
    fun _ => Or.inl rfl⟩
  rw [flipped_append, ← h.parity]
  rfl

variable [DecidableEq κ]

omit [DecidableEq ι] in
theorem publishNotice (h : Coherent vietnameseMode events s) (k : κ) {sharedMode : Bool}
    (hlast : sharedMode = s.last ∨ FlagDue s) :
    Coherent vietnameseMode (events ++ [.publishNotice k])
      ({ s with flag := sharedMode }.notifyTo k none) := by
  refine ⟨?_, h.unlocked, h.mode, hlast, h.latch, h.drained, h.awake⟩
  rw [flipped_append, ← h.parity]
  rfl

theorem step {s' : State ι κ} {event : Event ι κ} (h : Coherent vietnameseMode events s)
    (hundisturbed : Undisturbed s event) (hstep : Step s event s') :
    Coherent vietnameseMode (events ++ [event]) s' := by
  cases hstep with
  | toggleFlag hi => exact h.toggleFlag hi hundisturbed
  | storePending hi => exact h.storePending (hundisturbed _ hi)
  | post hi => exact h.post hi
  | take hdraining => exact h.take hdraining
  | exchange hdraining => exact h.exchange hdraining
  | blockedExcluded hdraining hgate => exact absurd hgate h.unlocked.passesApps.1
  | staleExcluded hdraining hgate => exact absurd hgate h.unlocked.passesApps.1
  | blockedForcedVn hdraining hgate => exact absurd hgate h.unlocked.passesApps.2
  | staleForcedVn hdraining hgate => exact absurd hgate h.unlocked.passesApps.2
  | blockedBrowser hdraining hpasses hgate => exact absurd hgate h.unlocked.browser
  | pass hdraining => exact h.pass hdraining
  | decide hdraining => exact h.decide hdraining hundisturbed
  | storeMode hdraining => exact h.storeMode hdraining
  | loadMode hdraining => exact h.loadMode hdraining
  | publish hdraining => exact h.publish hdraining (hundisturbed _ hdraining)
  | notify hk =>
      refine ⟨?_, h.unlocked, h.mode, h.flag, h.latch, h.drained, h.awake⟩
      rw [flipped_append, ← h.parity]
      rfl
  | publishNotice hk => exact h.publishNotice _ (hundisturbed _ hk)

theorem of_run {focus : Focus} (hlock : focus.NoHardLock)
    (h : Run (Meeting Undisturbed Step) (State.initial vietnameseMode focus) events s) :
    Coherent vietnameseMode events s := by
  apply h.history (.initial hlock)
  intro events s event s' hcoherent hstep
  exact hcoherent.step hstep.1 hstep.2

end Coherent

/-- In an application without a hard lock no undisturbed toggle is lost. -/
theorem vietnameseMode_eq_flipped [DecidableEq κ] {vietnameseMode : Bool} {focus : Focus}
    {events : List (Event ι κ)} {s : State ι κ} (hlock : focus.NoHardLock)
    (hrun : Run (Meeting Undisturbed Step) (State.initial vietnameseMode focus) events s)
    (hquiet : Quiescent s) :
    s.vietnameseMode = flipped vietnameseMode events ∧ s.flag = s.vietnameseMode := by
  have hcoherent := Coherent.of_run hlock hrun
  have hdue := hcoherent.not_flagDue hquiet
  have hmode := hcoherent.mode.resolve_right fun hmode => hdue (Or.inl hmode)
  have hflag := hcoherent.flag.resolve_right hdue
  exact ⟨hmode.trans hcoherent.parity, hflag.trans hmode.symm⟩

/-- The focus in an application without a lock. -/
def exampleFocus : Focus where
  excludeApps := true
  isExcludedApp := false
  excludedPid := 0
  isForcedVnApp := false
  forcedVnPid := 0
  foregroundPid := 1
  browserContextActive := false
  browserRoute := .default

theorem noHardLock_exampleFocus : exampleFocus.NoHardLock :=
  ⟨rfl, rfl, fun hgate => nomatch hgate.1⟩

/-- Two toggles, of which the second one comes before the drain of the first. -/
theorem vietnameseMode_eq_flipped_twice :
    ∃ (events : List (Event Unit Unit)) (s : State Unit Unit),
      Run (Meeting Undisturbed Step) (State.initial true exampleFocus) events s ∧ Quiescent s ∧
        s.vietnameseMode = flipped true events ∧ s.flag = s.vietnameseMode := by
  have hrun : Run (Meeting Undisturbed Step) (State.initial true exampleFocus : State Unit Unit)
      [.toggleFlag (), .storePending (), .post (), .toggleFlag (),
        .storePending (), .post (), .drain, .drain, .drain, .decide, .drain, .drain, .publish] _ :=
    .cons ⟨rfl, .toggleFlag rfl⟩ (.cons ⟨by rintro _ ⟨⟩; exact Or.inl rfl, .storePending rfl⟩
      (.cons ⟨trivial, .post rfl⟩ (.cons ⟨rfl, .toggleFlag rfl⟩
        (.cons ⟨by rintro _ ⟨⟩; exact Or.inl rfl, .storePending rfl⟩ (.cons ⟨trivial, .post rfl⟩
          (.cons ⟨trivial, .take rfl rfl⟩ (.cons ⟨trivial, .exchange rfl⟩
            (.cons ⟨trivial, .pass rfl noHardLock_exampleFocus.passesApps
              noHardLock_exampleFocus.browser⟩
              (.cons ⟨by nofun, .decide rfl⟩ (.cons ⟨trivial, .storeMode rfl⟩
                (.cons ⟨trivial, .loadMode rfl⟩
                  (.cons ⟨by rintro _ ⟨⟩; exact Or.inl rfl, .publish rfl⟩ .nil))))))))))))
  refine ⟨_, _, hrun, ?quiet, vietnameseMode_eq_flipped noHardLock_exampleFocus hrun ?quiet⟩
  exact ⟨fun _ => rfl, rfl, rfl, fun _ => rfl⟩

/-- A notification with the old mode comes between two toggles, and they both flip the flag to the
same value. -/
theorem not_vietnameseMode_eq_flipped :
    ¬∀ (events : List (Event Unit Unit)) (s : State Unit Unit),
      Run Step (State.initial true exampleFocus) events s → Quiescent s →
        s.vietnameseMode = flipped true events ∧ s.flag = s.vietnameseMode := by
  intro h
  have hrun : Run Step (State.initial true exampleFocus : State Unit Unit)
      [.toggleFlag (), .storePending (), .post (), .notify (), .publishNotice (), .toggleFlag (),
        .storePending (), .post (), .drain, .drain, .drain, .decide, .drain, .drain, .publish] _ :=
    .cons (.toggleFlag rfl) (.cons (.storePending rfl) (.cons (.post rfl) (.cons (.notify rfl)
      (.cons (.publishNotice rfl) (.cons (.toggleFlag rfl) (.cons (.storePending rfl)
        (.cons (.post rfl) (.cons (.take rfl rfl) (.cons (.exchange rfl)
          (.cons (.pass rfl noHardLock_exampleFocus.passesApps noHardLock_exampleFocus.browser)
            (.cons (.decide rfl) (.cons (.storeMode rfl) (.cons (.loadMode rfl)
              (.cons (.publish rfl) .nil))))))))))))))
  have hmode := (h _ _ hrun ⟨fun _ => rfl, rfl, rfl, fun _ => rfl⟩).1
  exact absurd (show false = true from hmode) Bool.noConfusion

end ToggleVietnameseMode

end HookEngine

end VKey
