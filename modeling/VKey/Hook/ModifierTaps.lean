import VKey.Config.HotkeyRegistry
import VKey.Hook.HotkeyManager
import VKey.Hook.Keys
import VKey.Ipc.BrowserContext
import VKey.Support.Run

/-!
# Taps of the modifier keys

A modifier that is pressed and released alone, once or twice, may be bound to an intent.  The hook
does not see the past when the modifier is released: it has a flag for other keys, a flag for
combinations, and for each modifier a count of its taps.  Here the past is a list of events, the
last one first.
-/

namespace VKey

namespace HookEngine

namespace ModifierTaps

open HotkeyRegistry

/-- The modifier that a key is of; the left and the right key have one flag. -/
def trackedModifier (vkCode : Nat) : ModifierKey :=
  if vkCode = 0xA2 ∨ vkCode = 0xA3 then .control
  else if vkCode = 0xA0 ∨ vkCode = 0xA1 then .shift
  else if vkCode = 0xA4 ∨ vkCode = 0xA5 then .alt
  else if vkCode = 0x5B ∨ vkCode = 0x5C then .win
  else .none

/-- CapsLock, NumLock and ScrollLock. -/
def isLockKey (vkCode : Nat) : Bool := vkCode == 0x14 || vkCode == 0x90 || vkCode == 0x91

/-- The code under which the triggers name a modifier. -/
def canonicalModifierVk : ModifierKey → UInt32
  | .none => 0
  | .control => kVkControl
  | .shift => kVkShift
  | .alt => kVkMenu
  | .win => kVkLwin

def kDoubleTapTimeoutMs : UInt32 := 400

/-- The mask of the modifiers that are held. -/
def modMask (mods : PhysicalModifierState) : UInt32 :=
  computeModMask mods.ctrl mods.shift mods.alt mods.win

/-- What the guards read of the foreground when a key goes down. -/
structure Foreground where
  browserRoute : BrowserContext.BrowserRoute := .default
  isExcludedApp : Bool := false
  /-- Its process is the one that was excluded. -/
  samePid : Bool := false
  /-- What `VerifyExcludedState` answers. -/
  stillExcluded : Bool := false
  deriving DecidableEq, Repr

/-- The composition and the macros when a modifier is released. -/
structure Composition where
  hasLiveComposition : Bool := false
  hasPrimedCommit : Bool := false
  /-- Macros are on and there are some, and neither a word nor a macro is being typed. -/
  macroReady : Bool := false
  deriving DecidableEq, Repr

/-- What is asked besides the registry before an intent is carried out. -/
def Composition.allows (composition : Composition) : Intent → Bool
  | .cancelComposition => composition.hasLiveComposition || composition.hasPrimedCommit
  | .skipMacro => composition.macroReady
  | .toggleEnabled => true
  | .toggleGameMode => true

/-- What `ProcessKeyUp` reads. -/
structure Reading where
  now : UInt32
  registry : HotkeyRegistry
  composition : Composition := {}

inductive Event where
  | down (vkCode : Nat) (foreground : Foreground)
  | up (vkCode : Nat) (reading : Reading)

structure State where
  /-- `modCtrlDown_`, `modShiftDown_`, `modAltDown_` and `modWinDown_`. -/
  mods : PhysicalModifierState := {}
  otherKeyPressed : Bool := false
  modComboSeen : Bool := false
  modTapCount : ModifierKey → Nat := fun _ => 0
  modTapLastTs : ModifierKey → UInt32 := fun _ => 0

inductive KeyOutcome where
  | pass
  | fallthrough
  deriving DecidableEq, Repr

namespace State

def trackModifier (s : State) (modifier : ModifierKey) (isDown : Bool) : State :=
  if isDown then
    if s.mods.get modifier then s
    else
      { s with
        mods := s.mods.set true modifier
        otherKeyPressed := false
        modComboSeen := s.modComboSeen || (s.mods.set false modifier).any }
  else
    { s with
      mods := s.mods.set false modifier
      modComboSeen := s.modComboSeen && (s.mods.set false modifier).any }

/-- `RunTopGuards`, with no TSF application in the foreground. -/
def runTopGuards (s : State) (vkCode : Nat) (foreground : Foreground) : KeyOutcome × State :=
  if trackedModifier vkCode ≠ .none then (.pass, s.trackModifier (trackedModifier vkCode) true)
  else if isLockKey vkCode then (.pass, s)
  else if foreground.browserRoute = .forceEnglish then
    (.pass, { s with otherKeyPressed := true, modTapCount := fun _ => 0 })
  else if foreground.isExcludedApp then
    if foreground.samePid then (.pass, { s with otherKeyPressed := true })
    else if foreground.stillExcluded then (.pass, { s with otherKeyPressed := true })
    else (.fallthrough, s)
  else (.fallthrough, s)

def processKeyDown (s : State) (vkCode : Nat) (foreground : Foreground) : State :=
  match s.runTopGuards vkCode foreground with
  | (.pass, s) => s
  | (.fallthrough, s) => { s with otherKeyPressed := true, modTapCount := fun _ => 0 }

/-- The other modifiers that are held when one is released. -/
def otherMods (s : State) (modifier : ModifierKey) : UInt32 := modMask (s.mods.set false modifier)

def comboTail (s : State) (modifier : ModifierKey) : Bool :=
  s.modComboSeen && s.otherMods modifier == 0

def cleanRelease (s : State) (modifier : ModifierKey) : Bool :=
  !s.otherKeyPressed && !s.comboTail modifier

def isDoubleTap (s : State) (modifier : ModifierKey) (now : UInt32) : Bool :=
  s.modTapCount modifier == 1 && decide (now - s.modTapLastTs modifier < kDoubleTapTimeoutMs)

/-- The intents that the release of a modifier carries out. -/
def dispatched (s : State) (modifier : ModifierKey) (reading : Reading) : List Intent :=
  if s.cleanRelease modifier then
    kAllIntents.filter fun intent =>
      reading.registry.matchesTrigger intent (canonicalModifierVk modifier) (s.otherMods modifier)
        (s.isDoubleTap modifier reading.now) true && reading.composition.allows intent
  else []

/-- The count and the time of the taps after a release. -/
def countTap (s : State) (modifier : ModifierKey) (now : UInt32) : State :=
  if s.cleanRelease modifier then
    if s.isDoubleTap modifier now then
      { s with modTapCount := Function.update s.modTapCount modifier 0 }
    else
      { s with
        modTapCount := Function.update s.modTapCount modifier 1
        modTapLastTs := Function.update s.modTapLastTs modifier now }
  else { s with modTapCount := Function.update s.modTapCount modifier 0 }

def processKeyUp (s : State) (vkCode : Nat) (reading : Reading) : List Intent × State :=
  if trackedModifier vkCode ≠ .none then
    (s.dispatched (trackedModifier vkCode) reading,
      (s.countTap (trackedModifier vkCode) reading.now).trackModifier
        (trackedModifier vkCode) false)
  else ([], s)

end State

/-! ## The past -/

/-- The key is down after the events. -/
def keyHeld (vkCode : Nat) : List Event → Bool
  | [] => false
  | .down k _ :: past => k == vkCode || keyHeld vkCode past
  | .up k _ :: past => k != vkCode && keyHeld vkCode past

def keysOf : ModifierKey → List Nat
  | .none => []
  | .control => [0xA2, 0xA3]
  | .shift => [0xA0, 0xA1]
  | .alt => [0xA4, 0xA5]
  | .win => [0x5B, 0x5C]

/-- A key of the modifier is down. -/
def held (modifier : ModifierKey) (past : List Event) : Bool :=
  (keysOf modifier).any fun vkCode => keyHeld vkCode past

def heldModifiers (past : List Event) : PhysicalModifierState :=
  { ctrl := held .control past
    shift := held .shift past
    alt := held .alt past
    win := held .win past }

/-- With the event the modifier goes down: a repeat or its other key does not count. -/
def presses (modifier : ModifierKey) (event : Event) (past : List Event) : Bool :=
  match event with
  | .down vkCode _ => decide (trackedModifier vkCode = modifier) && !held modifier past
  | .up _ _ => false

/-- The events since the modifier went down. -/
def sincePress (modifier : ModifierKey) : List Event → List Event
  | [] => []
  | event :: past => if presses modifier event past then [] else event :: sincePress modifier past

/-- The events before the modifier went down. -/
def beforePress (modifier : ModifierKey) : List Event → List Event
  | [] => []
  | event :: past => if presses modifier event past then past else beforePress modifier past

/-- The events of two taps of which the second one has not ended. -/
def taps (modifier : ModifierKey) (past : List Event) : List Event :=
  sincePress modifier past ++ sincePress modifier (beforePress modifier past)

/-- The events since no modifier was held. -/
def session : List Event → List Event
  | [] => []
  | event :: past => if (heldModifiers (event :: past)).any then event :: session past else []

/-- The modifier went down in the session. -/
def Joined (modifier : ModifierKey) (past : List Event) : Prop :=
  modifier ≠ .none ∧
    ∃ vkCode foreground, Event.down vkCode foreground ∈ session past ∧
      trackedModifier vkCode = modifier

/-- An intent that was carried out, and the past at that moment. -/
structure Dispatch where
  intent : Intent
  modifier : ModifierKey
  doubleTap : Bool
  past : List Event

namespace Dispatch

/-- Only modifiers have gone down since the modifier did, and none of the others has been
released. -/
structure Clean (d : Dispatch) : Prop where
  noKey : ∀ vkCode foreground, Event.down vkCode foreground ∈ sincePress d.modifier d.past →
    trackedModifier vkCode ≠ .none
  noTail : ∀ other, other ≠ d.modifier → Joined other d.past → held other d.past = true

/-- Nothing but the modifier has gone down since the first of the two taps. -/
def CleanDouble (d : Dispatch) : Prop :=
  ∀ vkCode foreground, Event.down vkCode foreground ∈ taps d.modifier d.past →
    trackedModifier vkCode = d.modifier

end Dispatch

/-- The hook, the events so far, and what was carried out. -/
structure World where
  state : State := {}
  past : List Event := []
  dispatches : List Dispatch := []

namespace World

def apply (w : World) : Event → World
  | .down vkCode foreground =>
      { w with
        state := w.state.processKeyDown vkCode foreground
        past := .down vkCode foreground :: w.past }
  | .up vkCode reading =>
      { state := (w.state.processKeyUp vkCode reading).2
        past := .up vkCode reading :: w.past
        dispatches := w.dispatches ++ (w.state.processKeyUp vkCode reading).1.map fun intent =>
          { intent, modifier := trackedModifier vkCode,
            doubleTap := w.state.isDoubleTap (trackedModifier vkCode)
              reading.now, past := w.past } }

def Step (w : World) (event : Event) (w' : World) : Prop := w' = w.apply event

/-- Whatever was carried out was a clean tap. -/
def OnlyCleanTaps (w : World) : Prop :=
  ∀ d ∈ w.dispatches, d.Clean ∧ (d.doubleTap = true → d.CleanDouble)

end World

/-! ## The keys of the modifiers -/

theorem mem_keysOf_iff {vkCode : Nat} {modifier : ModifierKey} (h : modifier ≠ .none) :
    vkCode ∈ keysOf modifier ↔ trackedModifier vkCode = modifier := by
  simp only [trackedModifier]
  cases modifier with
  | none => exact absurd rfl h
  | control | shift | alt | win =>
      simp only [keysOf, List.mem_cons, List.not_mem_nil, or_false]
      split_ifs <;> simp <;> omega

theorem held_iff {modifier : ModifierKey} (h : modifier ≠ .none) {past : List Event} :
    held modifier past = true ↔
      ∃ vkCode, trackedModifier vkCode = modifier ∧ keyHeld vkCode past = true := by
  rw [held, List.any_eq_true]
  simp only [mem_keysOf_iff h]

@[simp] theorem held_none (past : List Event) : held .none past = false := rfl

theorem get_heldModifiers (modifier : ModifierKey) (past : List Event) :
    (heldModifiers past).get modifier = held modifier past := by
  cases modifier <;> rfl

theorem get_set (mods : PhysicalModifierState) (down : Bool) (modifier other : ModifierKey) :
    (mods.set down modifier).get other =
      if other = modifier ∧ modifier ≠ .none then down else mods.get other := by
  cases modifier <;> cases other <;> rfl

theorem any_iff {mods : PhysicalModifierState} :
    mods.any = true ↔ ∃ modifier, mods.get modifier = true := by
  rw [PhysicalModifierState.any]
  constructor
  · intro h
    simp only [Bool.or_eq_true] at h
    obtain ((h | h) | h) | h := h
    · exact ⟨.control, h⟩
    · exact ⟨.shift, h⟩
    · exact ⟨.alt, h⟩
    · exact ⟨.win, h⟩
  · rintro ⟨modifier, h⟩
    cases modifier with
    | none => cases h
    | control | shift | alt | win =>
        rw [PhysicalModifierState.get] at h
        simp [h]

theorem eq_of_get {mods mods' : PhysicalModifierState}
    (h : ∀ modifier, mods.get modifier = mods'.get modifier) : mods = mods' := by
  obtain ⟨ctrl, shift, alt, win⟩ := mods
  obtain ⟨ctrl', shift', alt', win'⟩ := mods'
  obtain rfl : ctrl = ctrl' := h .control
  obtain rfl : shift = shift' := h .shift
  obtain rfl : alt = alt' := h .alt
  obtain rfl : win = win' := h .win
  rfl

theorem modMask_eq_zero_iff : ∀ mods : PhysicalModifierState,
    modMask mods = 0 ↔ mods.any = false := by
  rintro ⟨ctrl, shift, alt, win⟩
  cases ctrl <;> cases shift <;> cases alt <;> cases win <;> decide

/-- After the DOWN of a key its modifier is held and the others are as before. -/
theorem held_down (vkCode : Nat) (foreground : Foreground) (past : List Event)
    (modifier : ModifierKey) :
    held modifier (.down vkCode foreground :: past) =
      (held modifier past || decide (trackedModifier vkCode = modifier ∧ modifier ≠ .none)) := by
  by_cases hnone : modifier = .none
  · subst hnone
    simp
  · rw [Bool.eq_iff_iff, Bool.or_eq_true, decide_eq_true_eq, held_iff hnone, held_iff hnone]
    constructor
    · rintro ⟨k, hk, hheld⟩
      rw [keyHeld, Bool.or_eq_true, beq_iff_eq] at hheld
      rcases hheld with rfl | hheld
      · exact Or.inr ⟨hk, hnone⟩
      · exact Or.inl ⟨k, hk, hheld⟩
    · rintro (⟨k, hk, hheld⟩ | ⟨hk, -⟩)
      · exact ⟨k, hk, by rw [keyHeld, hheld, Bool.or_true]⟩
      · exact ⟨vkCode, hk, by rw [keyHeld, beq_self_eq_true, Bool.true_or]⟩

/-- After the UP of the only key of its modifier that was down, the modifier is not held. -/
theorem held_up {vkCode : Nat} (reading : Reading) {past : List Event} (modifier : ModifierKey)
    (halone : trackedModifier vkCode ≠ .none →
      ∀ k, trackedModifier k = trackedModifier vkCode → keyHeld k past = true → k = vkCode) :
    held modifier (.up vkCode reading :: past) =
      (held modifier past && !decide (trackedModifier vkCode = modifier)) := by
  by_cases hnone : modifier = .none
  · subst hnone
    simp
  · rw [Bool.eq_iff_iff, Bool.and_eq_true, Bool.not_eq_true',
      decide_eq_false_iff_not, held_iff hnone, held_iff hnone]
    constructor
    · rintro ⟨k, hk, hheld⟩
      rw [keyHeld, Bool.and_eq_true, bne_iff_ne] at hheld
      refine ⟨⟨k, hk, hheld.2⟩, fun hsame => hheld.1 ?_⟩
      exact (halone (hsame ▸ hnone) k (hk.trans hsame.symm) hheld.2).symm
    · rintro ⟨⟨k, hk, hheld⟩, hother⟩
      refine ⟨k, hk, ?_⟩
      rw [keyHeld, hheld, Bool.and_true, bne_iff_ne]
      rintro rfl
      exact hother hk

/-! ## What one event does -/

/-- A key that ends every chain of taps when it goes down. -/
def endsTaps (vkCode : Nat) (foreground : Foreground) : Bool :=
  trackedModifier vkCode == .none && !isLockKey vkCode &&
    (foreground.browserRoute == .forceEnglish ||
      !(foreground.isExcludedApp && (foreground.samePid || foreground.stillExcluded)))

theorem trackedModifier_of_endsTaps {vkCode : Nat} {foreground : Foreground}
    (h : endsTaps vkCode foreground = true) : trackedModifier vkCode = .none := by
  simp only [endsTaps, Bool.and_eq_true, beq_iff_eq] at h
  exact h.1.1

namespace State

theorem processKeyDown_modifier {s : State} {vkCode : Nat} (foreground : Foreground)
    (h : trackedModifier vkCode ≠ .none) :
    s.processKeyDown vkCode foreground = s.trackModifier (trackedModifier vkCode) true := by
  rw [processKeyDown, runTopGuards, if_pos h]

/-- What a key does that is no modifier. -/
theorem processKeyDown_key {s : State} {vkCode : Nat} (foreground : Foreground)
    (h : trackedModifier vkCode = .none) :
    s.processKeyDown vkCode foreground =
      { s with
        otherKeyPressed := if isLockKey vkCode then s.otherKeyPressed else true
        modTapCount := if endsTaps vkCode foreground then fun _ => 0 else s.modTapCount } := by
  rw [processKeyDown, runTopGuards, if_neg (not_not.mpr h), endsTaps, h]
  by_cases hlock : isLockKey vkCode = true
  · rw [if_pos hlock, if_pos hlock, hlock]
    rfl
  · rw [if_neg hlock, if_neg hlock, Bool.eq_false_iff.mpr hlock]
    by_cases hroute : foreground.browserRoute = .forceEnglish
    · rw [if_pos hroute, hroute]
      rfl
    · rw [if_neg hroute, beq_false_of_ne hroute]
      by_cases hexcluded : foreground.isExcludedApp = true
      · rw [if_pos hexcluded, hexcluded]
        cases foreground.samePid <;> cases foreground.stillExcluded <;> rfl
      · rw [if_neg hexcluded, Bool.eq_false_iff.mpr hexcluded]
        rfl

@[simp] theorem countTap_mods (s : State) (modifier : ModifierKey) (now : UInt32) :
    (s.countTap modifier now).mods = s.mods := by
  rw [countTap]
  split_ifs <;> rfl

@[simp] theorem countTap_otherKeyPressed (s : State) (modifier : ModifierKey) (now : UInt32) :
    (s.countTap modifier now).otherKeyPressed = s.otherKeyPressed := by
  rw [countTap]
  split_ifs <;> rfl

@[simp] theorem countTap_modComboSeen (s : State) (modifier : ModifierKey) (now : UInt32) :
    (s.countTap modifier now).modComboSeen = s.modComboSeen := by
  rw [countTap]
  split_ifs <;> rfl

@[simp] theorem trackModifier_modTapCount (s : State) (modifier : ModifierKey) (isDown : Bool) :
    (s.trackModifier modifier isDown).modTapCount = s.modTapCount := by
  rw [trackModifier]
  split_ifs <;> rfl

/-- A release leaves the counts of the other modifiers, and its own is 1 only after a clean tap. -/
theorem countTap_modTapCount {s : State} {modifier other : ModifierKey} {now : UInt32}
    (h : (s.countTap modifier now).modTapCount other = 1) :
    other ≠ modifier ∧ s.modTapCount other = 1 ∨ other = modifier ∧ s.otherKeyPressed = false := by
  by_cases hother : other = modifier
  · subst hother
    right
    refine ⟨rfl, ?_⟩
    rw [countTap] at h
    split_ifs at h with hclean hdouble
    · exact absurd h (by simp)
    · rw [cleanRelease, Bool.and_eq_true, Bool.not_eq_true'] at hclean
      exact hclean.1
    · exact absurd h (by simp)
  · left
    refine ⟨hother, ?_⟩
    rw [countTap] at h
    split_ifs at h <;> exact (Function.update_of_ne hother _ _).symm.trans h

/-- An intent is carried out by a clean release only. -/
theorem cleanRelease_of_mem_dispatched {s : State} {modifier : ModifierKey} {reading : Reading}
    {intent : Intent} (h : intent ∈ s.dispatched modifier reading) :
    s.otherKeyPressed = false ∧
      (s.modComboSeen = true → (s.mods.set false modifier).any = true) := by
  rw [dispatched] at h
  split_ifs at h with hclean
  · rw [cleanRelease, Bool.and_eq_true, Bool.not_eq_true', Bool.not_eq_true'] at hclean
    refine ⟨hclean.1, fun hcombo => ?_⟩
    by_contra hany
    have hzero : s.otherMods modifier = 0 :=
      (modMask_eq_zero_iff _).mpr (Bool.eq_false_iff.mpr hany)
    rw [comboTail, hcombo, hzero] at hclean
    exact absurd hclean.2 (by decide)
  · exact absurd h List.not_mem_nil

end State

/-- A tap of the modifier is counted, and its release now would be the second one. -/
def Pending (s : State) (modifier : ModifierKey) (now : UInt32) : Prop :=
  s.otherKeyPressed = false ∧ s.modTapCount modifier = 1 ∧
    now - s.modTapLastTs modifier < kDoubleTapTimeoutMs

/-- The events that the flags and the counts are made for.  A lock key goes down when no modifier is
held that it would have to spoil; a modifier goes down when no other one is spoiled and at most one
other is in the session; it goes up when it is down and its other key is not; and between two taps
only keys go down that end the chain. -/
def Orderly (w : World) : Event → Prop
  | .down vkCode _ =>
      if trackedModifier vkCode = .none then
        isLockKey vkCode = true → w.state.otherKeyPressed = true ∨ w.state.mods.any = false
      else
        w.state.mods.get (trackedModifier vkCode) = false →
          (w.state.otherKeyPressed = true → w.state.mods.any = false) ∧
          ∀ a b, Joined a w.past → Joined b w.past →
            a ≠ trackedModifier vkCode → b ≠ trackedModifier vkCode → a = b
  | .up vkCode reading =>
      trackedModifier vkCode ≠ .none →
        (∀ k, trackedModifier k = trackedModifier vkCode → (keyHeld k w.past = true ↔ k = vkCode)) ∧
        (Pending w.state (trackedModifier vkCode) reading.now →
          ∀ k foreground, Event.down k foreground ∈ taps (trackedModifier vkCode) w.past →
            trackedModifier k = trackedModifier vkCode ∨ endsTaps k foreground = true)

/-- What the flags and the counts say about the past. -/
structure Recorded (w : World) : Prop where
  mods : w.state.mods = heldModifiers w.past
  quiet : w.state.otherKeyPressed = false → ∀ modifier, held modifier w.past = true →
    ∀ vkCode foreground, Event.down vkCode foreground ∈ sincePress modifier w.past →
      trackedModifier vkCode ≠ .none
  combo : ∀ a b, Joined a w.past → Joined b w.past → a ≠ b → w.state.modComboSeen = true
  few : ∀ a b c, Joined a w.past → Joined b w.past → Joined c w.past → a ≠ c → b ≠ c → a = b
  first : ∀ modifier, modifier ≠ .none → w.state.modTapCount modifier = 1 →
    ∀ vkCode foreground, Event.down vkCode foreground ∈ sincePress modifier w.past →
      endsTaps vkCode foreground = false
  second : ∀ modifier, w.state.modTapCount modifier = 1 → held modifier w.past = true →
    ∀ vkCode foreground,
      Event.down vkCode foreground ∈ sincePress modifier (beforePress modifier w.past) →
        endsTaps vkCode foreground = false
  clean : w.OnlyCleanTaps

/-! ## The past one event later -/

theorem heldModifiers_any_iff {past : List Event} :
    (heldModifiers past).any = true ↔ ∃ modifier, held modifier past = true := by
  simp only [any_iff, get_heldModifiers]

theorem ne_none_of_held {modifier : ModifierKey} {past : List Event}
    (h : held modifier past = true) :
    modifier ≠ .none := by
  rintro rfl
  cases h

theorem presses_down_iff {modifier : ModifierKey} {vkCode : Nat} {foreground : Foreground}
    {past : List Event} :
    presses modifier (.down vkCode foreground) past = true ↔
      trackedModifier vkCode = modifier ∧ held modifier past = false := by
  simp only [presses, Bool.and_eq_true, decide_eq_true_eq, Bool.not_eq_true']

theorem sincePress_of_presses {modifier : ModifierKey} {event : Event} {past : List Event}
    (h : presses modifier event past = true) : sincePress modifier (event :: past) = [] := by
  rw [sincePress, if_pos h]

theorem beforePress_of_presses {modifier : ModifierKey} {event : Event} {past : List Event}
    (h : presses modifier event past = true) : beforePress modifier (event :: past) = past := by
  rw [beforePress, if_pos h]

theorem mem_sincePress_cons {modifier : ModifierKey} {event e : Event} {past : List Event}
    (h : e ∈ sincePress modifier (event :: past)) : e = event ∨ e ∈ sincePress modifier past := by
  rw [sincePress] at h
  split_ifs at h
  · exact absurd h List.not_mem_nil
  · exact List.mem_cons.mp h

theorem beforePress_of_not_presses {modifier : ModifierKey} {event : Event} {past : List Event}
    (h : presses modifier event past = false) :
    beforePress modifier (event :: past) = beforePress modifier past := by
  rw [beforePress, if_neg (Bool.eq_false_iff.mp h)]

theorem session_cons {event : Event} {past : List Event}
    (h : (heldModifiers (event :: past)).any = true) :
    session (event :: past) = event :: session past := by
  rw [session, if_pos h]

theorem Joined.of_cons {modifier : ModifierKey} {event : Event} {past : List Event}
    (h : Joined modifier (event :: past)) :
    (∃ vkCode foreground, event = .down vkCode foreground ∧ trackedModifier vkCode = modifier) ∨
      Joined modifier past := by
  obtain ⟨hnone, vkCode, foreground, hmem, htracked⟩ := h
  rw [session] at hmem
  split_ifs at hmem
  · rcases List.mem_cons.mp hmem with rfl | hmem
    · exact Or.inl ⟨vkCode, foreground, rfl, htracked⟩
    · exact Or.inr ⟨hnone, vkCode, foreground, hmem, htracked⟩
  · exact absurd hmem List.not_mem_nil

theorem Joined.any {modifier : ModifierKey} {past : List Event} (h : Joined modifier past) :
    (heldModifiers past).any = true := by
  obtain ⟨-, vkCode, foreground, hmem, -⟩ := h
  by_contra hany
  cases past with
  | nil => exact absurd hmem List.not_mem_nil
  | cons event past =>
      rw [session, if_neg hany] at hmem
      exact absurd hmem List.not_mem_nil

/-- A modifier that is held has joined the session. -/
theorem joined_of_held {modifier : ModifierKey} {past : List Event}
    (h : held modifier past = true) :
    Joined modifier past := by
  have hnone := ne_none_of_held h
  obtain ⟨vkCode, htracked, hheld⟩ := (held_iff hnone).mp h
  refine ⟨hnone, vkCode, ?_⟩
  induction past with
  | nil => cases hheld
  | cons event past ih =>
      rw [session_cons (heldModifiers_any_iff.mpr ⟨modifier, h⟩)]
      have hbefore (hpast : keyHeld vkCode past = true) : ∃ foreground,
          Event.down vkCode foreground ∈ event :: session past ∧
            trackedModifier vkCode = modifier := by
        obtain ⟨foreground, hmem, -⟩ := ih ((held_iff hnone).mpr ⟨vkCode, htracked, hpast⟩) hpast
        exact ⟨foreground, List.mem_cons_of_mem _ hmem, htracked⟩
      cases event with
      | down k foreground =>
          rw [keyHeld, Bool.or_eq_true, beq_iff_eq] at hheld
          rcases hheld with rfl | hheld
          · exact ⟨foreground, List.mem_cons_self, htracked⟩
          · exact hbefore hheld
      | up k reading =>
          rw [keyHeld, Bool.and_eq_true] at hheld
          exact hbefore hheld.2

/-! ## Every event keeps the record -/

namespace Recorded

variable {w : World}

theorem get (h : Recorded w) (modifier : ModifierKey) :
    w.state.mods.get modifier = held modifier w.past := by
  rw [h.mods, get_heldModifiers]

theorem key (h : Recorded w) {vkCode : Nat} {foreground : Foreground}
    (hkey : trackedModifier vkCode = .none) (horderly : Orderly w (.down vkCode foreground)) :
    Recorded (w.apply (.down vkCode foreground)) := by
  have hheld (modifier : ModifierKey) :
      held modifier (.down vkCode foreground :: w.past) = held modifier w.past := by
    rw [held_down, hkey, decide_eq_false, Bool.or_false]
    rintro ⟨rfl, hnone⟩
    exact hnone rfl
  have hjoined {modifier : ModifierKey}
    (hnew : Joined modifier (.down vkCode foreground :: w.past)) :
      Joined modifier w.past := by
    rcases hnew.of_cons with ⟨k, fg, heq, htracked⟩ | hold
    · cases heq
      exact absurd (htracked.symm.trans hkey) hnew.1
    · exact hold
  rw [Orderly, if_pos hkey] at horderly
  rw [World.apply, State.processKeyDown_key foreground hkey]
  constructor
  · exact eq_of_get fun modifier => by
      rw [get_heldModifiers, hheld]
      exact h.get modifier
  · intro hother modifier hmodifier
    rw [hheld] at hmodifier
    have hany : w.state.mods.any = true := any_iff.mpr ⟨modifier, (h.get modifier).trans hmodifier⟩
    -- Only a lock key leaves the flag, and then no modifier is held.
    by_cases hlock : isLockKey vkCode = true
    · simp only [hlock, if_true] at hother
      rcases horderly hlock with hspoiled | hnone
      · exact absurd (hspoiled.symm.trans hother) (by decide)
      · exact absurd (hany.symm.trans hnone) (by decide)
    · simp only [hlock] at hother
      cases hother
  · intro a b ha hb
    exact h.combo a b (hjoined ha) (hjoined hb)
  · intro a b c ha hb hc
    exact h.few a b c (hjoined ha) (hjoined hb) (hjoined hc)
  · intro modifier hnone hcount k fg hmem
    by_cases hends : endsTaps vkCode foreground = true
    · simp only [hends, if_true] at hcount
      cases hcount
    · simp only [hends] at hcount
      rcases mem_sincePress_cons hmem with heq | hmem
      · cases heq
        exact Bool.eq_false_iff.mpr hends
      · exact h.first modifier hnone hcount k fg hmem
  · intro modifier hcount hmodifier k fg hmem
    rw [hheld] at hmodifier
    have hpresses : presses modifier (.down vkCode foreground) w.past = false := by
      rw [Bool.eq_false_iff, ne_eq, presses_down_iff, hmodifier]
      exact fun hpress => absurd hpress.2 (by decide)
    rw [beforePress_of_not_presses hpresses] at hmem
    by_cases hends : endsTaps vkCode foreground = true
    · simp only [hends, if_true] at hcount
      cases hcount
    · simp only [hends] at hcount
      exact h.second modifier hcount hmodifier k fg hmem
  · exact h.clean

/-- A modifier goes down. -/
theorem press (h : Recorded w) {vkCode : Nat} {foreground : Foreground}
    (hmodifier : trackedModifier vkCode ≠ .none)
    (hfresh : w.state.mods.get (trackedModifier vkCode) = false)
    (horderly : Orderly w (.down vkCode foreground)) :
    Recorded (w.apply (.down vkCode foreground)) := by
  have hnotheld : held (trackedModifier vkCode) w.past = false := (h.get _).symm.trans hfresh
  have hheld (modifier : ModifierKey) (hne : modifier ≠ trackedModifier vkCode) :
      held modifier (.down vkCode foreground :: w.past) = held modifier w.past := by
    rw [held_down, decide_eq_false (fun hsame => hne hsame.1.symm), Bool.or_false]
  have hpresses : presses (trackedModifier vkCode) (.down vkCode foreground) w.past = true :=
    presses_down_iff.mpr ⟨rfl, hnotheld⟩
  have hother (modifier : ModifierKey) (hne : modifier ≠ trackedModifier vkCode) :
      presses modifier (.down vkCode foreground) w.past = false := by
    rw [Bool.eq_false_iff, ne_eq, presses_down_iff]
    exact fun hpress => hne hpress.1.symm
  have hends : endsTaps vkCode foreground = false :=
    Bool.eq_false_iff.mpr fun hends => hmodifier (trackedModifier_of_endsTaps hends)
  have hjoined {modifier : ModifierKey}
    (hnew : Joined modifier (.down vkCode foreground :: w.past)) :
      modifier = trackedModifier vkCode ∨ Joined modifier w.past := by
    rcases hnew.of_cons with ⟨k, fg, heq, htracked⟩ | hold
    · cases heq
      exact Or.inl htracked.symm
    · exact Or.inr hold
  -- Whoever has joined before, some other modifier is still held.
  have hothers {modifier : ModifierKey} (hold : Joined modifier w.past) :
      (w.state.mods.set false (trackedModifier vkCode)).any = true := by
    obtain ⟨other, hheldother⟩ := heldModifiers_any_iff.mp hold.any
    refine any_iff.mpr ⟨other, ?_⟩
    rw [get_set, if_neg, h.get, hheldother]
    rintro ⟨rfl, -⟩
    exact absurd (hheldother.symm.trans hnotheld) (by decide)
  rw [Orderly, if_neg hmodifier] at horderly
  obtain ⟨hspoiled, hfew⟩ := horderly hfresh
  rw [World.apply, State.processKeyDown_modifier foreground hmodifier,
    State.trackModifier, if_pos rfl, if_neg (Bool.eq_false_iff.mp hfresh)]
  constructor
  · refine eq_of_get fun modifier => ?_
    rw [get_set, get_heldModifiers, held_down]
    by_cases hsame : modifier = trackedModifier vkCode
    · rw [if_pos ⟨hsame, hmodifier⟩, decide_eq_true ⟨hsame.symm, hsame ▸ hmodifier⟩, Bool.or_true]
    · rw [if_neg (fun hboth => hsame hboth.1), decide_eq_false (fun hboth => hsame hboth.1.symm),
        Bool.or_false, h.get]
  · intro _ modifier hmod k fg hmem
    by_cases hsame : modifier = trackedModifier vkCode
    · subst hsame
      rw [sincePress_of_presses hpresses] at hmem
      exact absurd hmem List.not_mem_nil
    · rw [hheld modifier hsame] at hmod
      rcases mem_sincePress_cons hmem with heq | hmem
      · cases heq
        exact hmodifier
      · refine h.quiet (Bool.eq_false_iff.mpr fun hother => ?_) modifier hmod k fg hmem
        have hany : w.state.mods.any = true := any_iff.mpr ⟨modifier, (h.get modifier).trans hmod⟩
        exact absurd (hany.symm.trans (hspoiled hother)) (by decide)
  · intro a b ha hb hne
    simp only [Bool.or_eq_true]
    rcases hjoined ha with rfl | hpasta
    · rcases hjoined hb with rfl | hpastb
      · exact absurd rfl hne
      · exact Or.inr (hothers hpastb)
    · exact Or.inr (hothers hpasta)
  · intro a b c ha hb hc hac hbc
    by_cases hcsame : c = trackedModifier vkCode
    · subst hcsame
      exact hfew a b ((hjoined ha).resolve_left hac) ((hjoined hb).resolve_left hbc) hac hbc
    · have hpastc := (hjoined hc).resolve_left hcsame
      rcases hjoined ha with hasame | hpasta
      · rcases hjoined hb with hbsame | hpastb
        · exact hasame.trans hbsame.symm
        · by_cases hbsame : b = trackedModifier vkCode
          · exact hasame.trans hbsame.symm
          · exact absurd (hfew b c hpastb hpastc hbsame hcsame) hbc
      · rcases hjoined hb with hbsame | hpastb
        · by_cases hasame : a = trackedModifier vkCode
          · exact hasame.trans hbsame.symm
          · exact absurd (hfew a c hpasta hpastc hasame hcsame) hac
        · exact h.few a b c hpasta hpastb hpastc hac hbc
  · intro modifier hnone hcount k fg hmem
    by_cases hsame : modifier = trackedModifier vkCode
    · subst hsame
      rw [sincePress_of_presses hpresses] at hmem
      exact absurd hmem List.not_mem_nil
    · rcases mem_sincePress_cons hmem with heq | hmem
      · cases heq
        exact hends
      · exact h.first modifier hnone hcount k fg hmem
  · intro modifier hcount hmod k fg hmem
    by_cases hsame : modifier = trackedModifier vkCode
    · subst hsame
      rw [beforePress_of_presses hpresses] at hmem
      exact h.first _ hmodifier hcount k fg hmem
    · rw [hheld modifier hsame] at hmod
      rw [beforePress_of_not_presses (hother modifier hsame)] at hmem
      exact h.second modifier hcount hmod k fg hmem
  · exact h.clean

/-- An event that changes neither the flags nor which modifiers are held. -/
theorem unchanged (h : Recorded w) {event : Event}
    (hheld : ∀ modifier, held modifier (event :: w.past) = held modifier w.past)
    (hdown : ∀ vkCode foreground, event = .down vkCode foreground →
      trackedModifier vkCode ≠ .none ∧ held (trackedModifier vkCode) w.past = true) :
    Recorded { w with past := event :: w.past } := by
  have hpresses (modifier : ModifierKey) : presses modifier event w.past = false := by
    cases event with
    | up => rfl
    | down vkCode foreground =>
        rw [Bool.eq_false_iff, ne_eq, presses_down_iff]
        rintro ⟨rfl, hnot⟩
        exact absurd ((hdown vkCode foreground rfl).2.symm.trans hnot) (by decide)
  have hjoined {modifier : ModifierKey} (hnew : Joined modifier (event :: w.past)) :
      Joined modifier w.past := by
    rcases hnew.of_cons with ⟨k, fg, heq, htracked⟩ | hold
    · exact htracked ▸ joined_of_held (hdown k fg heq).2
    · exact hold
  constructor
  · exact eq_of_get fun modifier => by
      rw [get_heldModifiers, hheld]
      exact h.get modifier
  · intro hother modifier hmod k fg hmem
    rcases mem_sincePress_cons hmem with heq | hmem
    · exact (hdown k fg heq.symm).1
    · exact h.quiet hother modifier ((hheld modifier).symm.trans hmod) k fg hmem
  · intro a b ha hb
    exact h.combo a b (hjoined ha) (hjoined hb)
  · intro a b c ha hb hc
    exact h.few a b c (hjoined ha) (hjoined hb) (hjoined hc)
  · intro modifier hnone hcount k fg hmem
    rcases mem_sincePress_cons hmem with heq | hmem
    · exact Bool.eq_false_iff.mpr fun hends =>
        (hdown k fg heq.symm).1 (trackedModifier_of_endsTaps hends)
    · exact h.first modifier hnone hcount k fg hmem
  · intro modifier hcount hmod k fg hmem
    rw [beforePress_of_not_presses (hpresses modifier)] at hmem
    exact h.second modifier hcount ((hheld modifier).symm.trans hmod) k fg hmem
  · exact h.clean

/-- A modifier is released, and what is carried out is clean. -/
theorem release (h : Recorded w) {vkCode : Nat} {reading : Reading}
    (hmodifier : trackedModifier vkCode ≠ .none) (horderly : Orderly w (.up vkCode reading)) :
    Recorded (w.apply (.up vkCode reading)) := by
  obtain ⟨halone, htaps⟩ := horderly hmodifier
  have hheldbefore : held (trackedModifier vkCode) w.past = true :=
    (held_iff hmodifier).mpr ⟨vkCode, rfl, (halone vkCode rfl).mpr rfl⟩
  have hheld (modifier : ModifierKey) : held modifier (.up vkCode reading :: w.past) =
      (held modifier w.past && !decide (trackedModifier vkCode = modifier)) :=
    held_up reading modifier fun _ k hk hdown => (halone k hk).mp hdown
  have hstill {modifier : ModifierKey}
    (hmod : held modifier (.up vkCode reading :: w.past) = true) :
      held modifier w.past = true ∧ modifier ≠ trackedModifier vkCode := by
    rw [hheld, Bool.and_eq_true, Bool.not_eq_true', decide_eq_false_iff_not] at hmod
    exact ⟨hmod.1, Ne.symm hmod.2⟩
  have hjoined {modifier : ModifierKey} (hnew : Joined modifier (.up vkCode reading :: w.past)) :
      Joined modifier w.past := by
    rcases hnew.of_cons with ⟨k, fg, heq, -⟩ | hold
    · cases heq
    · exact hold
  have hpast {modifier : ModifierKey} {k : Nat} {fg : Foreground}
      (hmem : Event.down k fg ∈ sincePress modifier (.up vkCode reading :: w.past)) :
      Event.down k fg ∈ sincePress modifier w.past := by
    rcases mem_sincePress_cons hmem with heq | hmem
    · cases heq
    · exact hmem
  have hmods : w.state.mods.set false (trackedModifier vkCode) =
      heldModifiers (.up vkCode reading :: w.past) := by
    refine eq_of_get fun modifier => ?_
    rw [get_set, get_heldModifiers, hheld, h.get]
    by_cases hsame : modifier = trackedModifier vkCode
    · rw [if_pos ⟨hsame, hmodifier⟩, decide_eq_true hsame.symm, Bool.not_true, Bool.and_false]
    · rw [if_neg (fun hboth => hsame hboth.1), decide_eq_false (Ne.symm hsame),
        Bool.not_false, Bool.and_true]
  rw [World.apply, State.processKeyUp, if_pos hmodifier]
  constructor
  · simp only [State.trackModifier, Bool.false_eq_true, if_false, State.countTap_mods]
    exact hmods
  · intro hother modifier hmod k fg hmem
    simp only [State.trackModifier, Bool.false_eq_true, if_false,
      State.countTap_otherKeyPressed] at hother
    exact h.quiet hother modifier (hstill hmod).1 k fg (hpast hmem)
  · intro a b ha hb hne
    simp only [State.trackModifier, Bool.false_eq_true, if_false, State.countTap_mods,
      State.countTap_modComboSeen, Bool.and_eq_true]
    exact ⟨h.combo a b (hjoined ha) (hjoined hb) hne, hmods ▸ ha.any⟩
  · intro a b c ha hb hc
    exact h.few a b c (hjoined ha) (hjoined hb) (hjoined hc)
  · intro modifier hnone hcount k fg hmem
    rw [State.trackModifier_modTapCount] at hcount
    rcases State.countTap_modTapCount hcount with ⟨-, hbefore⟩ | ⟨rfl, hquiet⟩
    · exact h.first modifier hnone hbefore k fg (hpast hmem)
    · exact Bool.eq_false_iff.mpr fun hends =>
        h.quiet hquiet _ hheldbefore k fg (hpast hmem) (trackedModifier_of_endsTaps hends)
  · intro modifier hcount hmod k fg hmem
    obtain ⟨hmodbefore, hne⟩ := hstill hmod
    rw [State.trackModifier_modTapCount] at hcount
    rcases State.countTap_modTapCount hcount with ⟨-, hbefore⟩ | ⟨hsame, -⟩
    · rw [beforePress_of_not_presses rfl] at hmem
      exact h.second modifier hbefore hmodbefore k fg hmem
    · exact absurd hsame hne
  · intro d hd
    rcases List.mem_append.mp hd with hd | hd
    · exact h.clean d hd
    · obtain ⟨intent, hintent, rfl⟩ := List.mem_map.mp hd
      obtain ⟨hquiet, hcombo⟩ := State.cleanRelease_of_mem_dispatched hintent
      refine ⟨⟨fun k fg hmem => h.quiet hquiet _ hheldbefore k fg hmem, ?_⟩, ?_⟩
      · intro other hne hother
        -- The combination is seen, so a modifier is still held, and a third one has not joined.
        have hseen := h.combo _ _ hother (joined_of_held hheldbefore) hne
        obtain ⟨third, hthird⟩ := any_iff.mp (hcombo hseen)
        rw [hmods, get_heldModifiers] at hthird
        obtain ⟨hthird, hthirdne⟩ := hstill hthird
        obtain rfl := h.few _ _ _ hother (joined_of_held hthird)
          (joined_of_held hheldbefore) hne hthirdne
        exact hthird
      · intro hdouble k fg hmem
        simp only [State.isDoubleTap, Bool.and_eq_true, beq_iff_eq, decide_eq_true_eq] at hdouble
        rcases htaps ⟨hquiet, hdouble.1, hdouble.2⟩ k fg hmem with hsame | hends
        · exact hsame
        · rcases List.mem_append.mp hmem with hmem | hmem
          · exact absurd (hends.symm.trans (h.first _ hmodifier hdouble.1 k fg hmem)) (by decide)
          · exact absurd (hends.symm.trans (h.second _ hdouble.1 hheldbefore k fg hmem)) (by decide)

theorem step (h : Recorded w) {event : Event} (horderly : Orderly w event) :
    Recorded (w.apply event) := by
  cases event with
  | down vkCode foreground =>
      by_cases hmodifier : trackedModifier vkCode = .none
      · exact h.key hmodifier horderly
      · by_cases hfresh : w.state.mods.get (trackedModifier vkCode) = false
        · exact h.press hmodifier hfresh horderly
        · have hdown := (Bool.not_eq_false _).mp hfresh
          rw [World.apply, State.processKeyDown_modifier foreground hmodifier, State.trackModifier,
            if_pos rfl, if_pos hdown]
          rw [h.get] at hdown
          refine h.unchanged (fun modifier => ?_) fun k fg heq => ?_
          · rw [held_down]
            by_cases hsame : trackedModifier vkCode = modifier
            · rw [← hsame, hdown, Bool.true_or]
            · rw [decide_eq_false (fun hboth => hsame hboth.1), Bool.or_false]
          · cases heq
            exact ⟨hmodifier, hdown⟩
  | up vkCode reading =>
      by_cases hmodifier : trackedModifier vkCode = .none
      · rw [World.apply, State.processKeyUp, if_neg (not_not.mpr hmodifier), List.map_nil,
          List.append_nil]
        refine h.unchanged (fun modifier => ?_) fun _ _ heq => Event.noConfusion heq
        rw [held_up reading modifier fun hnone => absurd hmodifier hnone]
        by_cases hsame : trackedModifier vkCode = modifier
        · rw [← hsame, hmodifier, held_none, Bool.false_and]
        · rw [decide_eq_false hsame, Bool.not_false, Bool.and_true]
      · exact h.release hmodifier horderly

theorem start : Recorded {} := by
  have hjoined {modifier : ModifierKey} (h : Joined modifier []) : False := by
    obtain ⟨-, vkCode, foreground, hmem, -⟩ := h
    exact List.not_mem_nil hmem
  constructor
  · rfl
  · intro _ modifier _ k fg hmem
    exact absurd hmem List.not_mem_nil
  · intro a b ha
    exact (hjoined ha).elim
  · intro a b c ha
    exact (hjoined ha).elim
  · intro modifier _ hcount
    cases hcount
  · intro modifier hcount
    cases hcount
  · intro d hd
    exact absurd hd List.not_mem_nil

end Recorded

/-- As long as the events are orderly, only clean taps carry out an intent. -/
theorem onlyCleanTaps_of_run {events : List Event} {w : World}
    (h : Run (Meeting Orderly World.Step) {} events w) : w.OnlyCleanTaps := by
  have hrecorded : Recorded w := by
    apply h.invariant Recorded.start
    intro before event after hbefore hstep
    obtain ⟨horderly, rfl⟩ := hstep
    exact hbefore.step horderly
  exact hrecorded.clean

/-- Ctrl alone turns VKey off and on. -/
def ctrlToggles : HotkeyRegistry :=
  ({} : HotkeyRegistry).addTrigger .toggleEnabled { vk := kVkControl }

/-- Ctrl is tapped once. -/
theorem onlyCleanTaps_ctrl : ∃ w : World,
    w.dispatches.map Dispatch.intent = [.toggleEnabled] ∧ w.OnlyCleanTaps := by
  refine ⟨_, ?_, @onlyCleanTaps_of_run
    [.down 0xA2 {}, .up 0xA2 { now := 40, registry := ctrlToggles }] _
    (.cons ⟨?_, rfl⟩ (.cons ⟨?_, rfl⟩ .nil))⟩
  · rfl
  · refine fun _ => ⟨fun hother => absurd hother Bool.false_ne_true, ?_⟩
    rintro a b ⟨-, k, fg, hmem, -⟩
    exact absurd hmem List.not_mem_nil
  · refine fun _ => ⟨fun k hk => ?_, ?_⟩
    · simp only [World.apply, keyHeld, Bool.or_false, beq_iff_eq]
      exact eq_comm
    · rintro ⟨-, hcount, -⟩
      cases hcount

/-- CapsLock is pressed while Ctrl is held, and the release of Ctrl is carried out. -/
theorem not_onlyCleanTaps_capsLock : ¬∀ (events : List Event) (w : World),
    Run World.Step {} events w → w.OnlyCleanTaps := by
  intro h
  have hrun := h [.down 0xA2 {}, .down 0x14 {}, .up 0x14 { now := 20, registry := ctrlToggles },
    .up 0xA2 { now := 40, registry := ctrlToggles }] _
    (.cons rfl (.cons rfl (.cons rfl (.cons rfl .nil))))
  obtain ⟨hclean, -⟩ := hrun _ List.mem_cons_self
  refine hclean.noKey 0x14 {} ?_ rfl
  exact List.mem_cons_of_mem _ List.mem_cons_self

end ModifierTaps

end HookEngine

end VKey
