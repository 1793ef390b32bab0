import Mathlib.Algebra.Ring.Nat
import Mathlib.Data.List.Basic

/-!
# The hotkey manager

The keyboard hook feeds every key event to `Match`.  A slot whose combination is pressed is latched
on the key until the key is released; the binding of a slot may be replaced in the meantime.
-/

namespace VKey

structure HotkeyConfig where
  ctrl : Bool := false
  shift : Bool := false
  alt : Bool := false
  win : Bool := false
  vk : Nat := 0
  deriving DecidableEq, Repr

namespace HotkeyConfig

def hasAny (config : HotkeyConfig) : Bool :=
  config.ctrl || config.shift || config.alt || config.win || config.vk != 0

def modifiersMatch (config : HotkeyConfig) (c s a w : Bool) : Bool :=
  config.ctrl == c && config.shift == s && config.alt == a && config.win == w

end HotkeyConfig

inductive KeyEventType where
  | down
  | up
  deriving DecidableEq, Repr

/-- The left and the right key of a modifier have one identity. -/
inductive ModifierKey where
  | none
  | control
  | shift
  | alt
  | win
  deriving DecidableEq, Repr

/-- The modifier of a virtual key. -/
def normalizeModifier (vk : Nat) : ModifierKey :=
  if vk = 0x11 ∨ vk = 0xA2 ∨ vk = 0xA3 then .control
  else if vk = 0x10 ∨ vk = 0xA0 ∨ vk = 0xA1 then .shift
  else if vk = 0x12 ∨ vk = 0xA4 ∨ vk = 0xA5 then .alt
  else if vk = 0x5B ∨ vk = 0x5C then .win
  else .none

structure KeyEvent where
  vk : Nat
  type : KeyEventType
  modifier : ModifierKey

structure MatchResult where
  consume : Bool := false
  cancelSystemMenu : Bool := false
  deriving DecidableEq, Repr

structure PhysicalModifierState where
  ctrl : Bool := false
  shift : Bool := false
  alt : Bool := false
  win : Bool := false
  deriving DecidableEq, Repr

namespace PhysicalModifierState

def any (mods : PhysicalModifierState) : Bool := mods.ctrl || mods.shift || mods.alt || mods.win

def get (mods : PhysicalModifierState) : ModifierKey → Bool
  | .none => false
  | .control => mods.ctrl
  | .shift => mods.shift
  | .alt => mods.alt
  | .win => mods.win

def set (mods : PhysicalModifierState) (down : Bool) : ModifierKey → PhysicalModifierState
  | .none => mods
  | .control => { mods with ctrl := down }
  | .shift => { mods with shift := down }
  | .alt => { mods with alt := down }
  | .win => { mods with win := down }

def agreesWith (mods : PhysicalModifierState) (config : HotkeyConfig) : Bool :=
  config.modifiersMatch mods.ctrl mods.shift mods.alt mods.win

end PhysicalModifierState

namespace HotkeyManager

def kCtrlBit : Nat := 0x01
def kShiftBit : Nat := 0x02
def kAltBit : Nat := 0x04
def kWinBit : Nat := 0x08
def kVkMask : Nat := 0x0FFFFFFF

/-- The bits of the modifiers in a packed word. -/
def modifierBits (ctrl shift alt win : Bool) : Nat :=
  (if ctrl then kCtrlBit else 0) ||| (if shift then kShiftBit else 0) |||
    (if alt then kAltBit else 0) ||| (if win then kWinBit else 0)

def packConfig (config : HotkeyConfig) : Nat :=
  config.vk <<< 4 ||| modifierBits config.ctrl config.shift config.alt config.win

def unpackConfig (packed : Nat) : HotkeyConfig where
  ctrl := packed &&& kCtrlBit != 0
  shift := packed &&& kShiftBit != 0
  alt := packed &&& kAltBit != 0
  win := packed &&& kWinBit != 0
  vk := packed >>> 4

theorem shiftLeft_and_eq_zero (vk : Nat) {bit : Nat} (hbit : bit < 16) : vk <<< 4 &&& bit = 0 := by
  apply Nat.eq_of_testBit_eq
  intro i
  rw [Nat.testBit_and, Nat.testBit_shiftLeft, Nat.zero_testBit]
  by_cases hi : 4 ≤ i
  · have hlt : bit < 2 ^ i :=
      Nat.lt_of_lt_of_le (show bit < 2 ^ 4 from hbit) (Nat.pow_le_pow_right Nat.two_pos hi)
    rw [Nat.testBit_lt_two_pow hlt, Bool.and_false]
  · rw [decide_eq_false hi, Bool.false_and, Bool.false_and]

theorem packConfig_and (config : HotkeyConfig) {bit : Nat} (hbit : bit < 16) :
    packConfig config &&& bit =
      modifierBits config.ctrl config.shift config.alt config.win &&& bit := by
  rw [packConfig, Nat.and_or_distrib_right, shiftLeft_and_eq_zero config.vk hbit, Nat.zero_or]

theorem modifierBits_spec : ∀ c s a w,
    (modifierBits c s a w &&& kCtrlBit != 0) = c ∧ (modifierBits c s a w &&& kShiftBit != 0) = s ∧
    (modifierBits c s a w &&& kAltBit != 0) = a ∧ (modifierBits c s a w &&& kWinBit != 0) = w ∧
    modifierBits c s a w >>> 4 = 0 := by
  decide

theorem unpackConfig_packConfig (config : HotkeyConfig) :
    unpackConfig (packConfig config) = config := by
  obtain ⟨hctrl, hshift, halt, hwin, hvk⟩ :=
    modifierBits_spec config.ctrl config.shift config.alt config.win
  have hkey : packConfig config >>> 4 = config.vk := by
    rw [packConfig, Nat.shiftRight_or_distrib, Nat.shiftLeft_shiftRight, hvk, Nat.or_zero]
  rw [unpackConfig, packConfig_and config (show kCtrlBit < 16 by decide),
    packConfig_and config (show kShiftBit < 16 by decide),
    packConfig_and config (show kAltBit < 16 by decide),
    packConfig_and config (show kWinBit < 16 by decide), hctrl, hshift, halt, hwin, hkey]

/-- What tells whether a latched DOWN was passed through, and on which key the slot is latched. -/
structure SlotState where
  comboKeyDown : Bool := false
  comboPassedThrough : Bool := false
  latchedVk : Nat := 0
  deriving DecidableEq, Repr

/-- One slot of the tables of the manager.  Before `FinalizeBindings` the packed configuration is
the pending one. -/
structure Slot where
  /-- What the predicate of the slot answers. -/
  passThrough : Bool
  liveConfig : Nat
  state : SlotState := {}
  deriving DecidableEq, Repr

namespace Slot

def config (slot : Slot) : HotkeyConfig := unpackConfig slot.liveConfig

/-- The slot is latched on the key. -/
def latchedOn (vk : Nat) (slot : Slot) : Bool :=
  slot.state.comboKeyDown && slot.state.latchedVk == vk

/-- The slot is free and its combination is pressed with the key. -/
def combo (mods : PhysicalModifierState) (vk : Nat) (slot : Slot) : Bool :=
  slot.config.vk != 0 && slot.config.vk ==
    vk && !slot.state.comboKeyDown && mods.agreesWith slot.config

/-- The slot is free and bound to the modifiers alone. -/
def modifierOnly (before : PhysicalModifierState) (slot : Slot) : Bool :=
  !slot.state.comboKeyDown && slot.config.vk ==
    0 && slot.config.hasAny && before.agreesWith slot.config

def latch (vk : Nat) (slot : Slot) : Slot :=
  { slot with
      state := { comboKeyDown := true, comboPassedThrough := slot.passThrough, latchedVk := vk } }

def release (slot : Slot) : Slot := { slot with state := {} }

def publish (config : HotkeyConfig) (slot : Slot) : Slot :=
  { slot with liveConfig := packConfig config }

def allow (allows : Bool) (slot : Slot) : Slot := { slot with passThrough := allows }

theorem latchedOn_iff {vk : Nat} {slot : Slot} :
    slot.latchedOn vk = true ↔ slot.state.comboKeyDown = true ∧ slot.state.latchedVk = vk := by
  rw [latchedOn, Bool.and_eq_true, beq_iff_eq]

@[simp] theorem latch_config (vk : Nat) (slot : Slot) : (slot.latch vk).config = slot.config := rfl

@[simp] theorem release_config (slot : Slot) : slot.release.config = slot.config := rfl

@[simp] theorem publish_config (config : HotkeyConfig) (slot : Slot) :
    (slot.publish config).config = config :=
  unpackConfig_packConfig config

end Slot

end HotkeyManager

structure HotkeyManager where
  slots : List HotkeyManager.Slot := []
  finalized : Bool := false
  /-- A sink for the deferred fires is wired. -/
  deferredFireSink : Bool := false
  /-- The flags of the modifiers. -/
  mods : PhysicalModifierState := {}
  otherKeyPressed : Bool := false

namespace HotkeyManager

/-- What `Match` returns, the slots it queues and the manager after it. -/
structure Matched where
  result : MatchResult
  queued : List Nat
  manager : HotkeyManager

def addHotkey (m : HotkeyManager) (config : HotkeyConfig) (passThrough : Bool) : HotkeyManager :=
  if m.finalized || config.vk > kVkMask then m
  else { m with slots := m.slots ++ [{ passThrough, liveConfig := packConfig config }] }

def finalizeBindings (m : HotkeyManager) : HotkeyManager := { m with finalized := true }

def updateHotkey (m : HotkeyManager) (slot : Nat) (config : HotkeyConfig) : HotkeyManager :=
  if !m.finalized || config.vk > kVkMask then m
  else { m with slots := m.slots.modify slot (Slot.publish config) }

def hasModifiers (m : HotkeyManager) : Bool := m.mods.any

def updateModifierState (m : HotkeyManager) (modifier : ModifierKey) : KeyEventType → HotkeyManager
  | .down =>
      { m with
        otherKeyPressed := if !m.mods.get modifier && !m.hasModifiers then
        false else m.otherKeyPressed
        mods := m.mods.set true modifier }
  | .up => { m with mods := m.mods.set false modifier }

/-- What an event does to the flags before any slot is looked at. -/
def observe (m : HotkeyManager) (event : KeyEvent) : HotkeyManager :=
  if event.modifier ≠ .none then m.updateModifierState event.modifier event.type
  else if event.type = .down then { m with otherKeyPressed := true }
  else m

def queueDeferredFire (m : HotkeyManager) (slot : Nat) : List Nat :=
  if m.deferredFireSink then [slot] else []

/-- The UP of a key: the first slot that is latched on it is released. -/
def matchUp (m : HotkeyManager) (vk : Nat) : Matched :=
  match m.slots.zipIdx.find? fun entry => entry.1.latchedOn vk with
  | some (slot, i) =>
      { result := { consume := !slot.state.comboPassedThrough }
        queued := []
        manager := { m with slots := m.slots.set i slot.release } }
  | none => { result := {}, queued := [], manager := m }

/-- The DOWN of a key: a repeat of a latched one is swallowed, otherwise the first slot whose
combination is pressed is latched. -/
def matchDown (m : HotkeyManager) (vk : Nat) : Matched :=
  if m.slots.any (Slot.latchedOn vk) then
    { result := { consume := true }, queued := [], manager := m }
  else
    match m.slots.zipIdx.find? fun entry => entry.1.combo m.mods vk with
    | some (slot, i) =>
        if slot.passThrough then
          { result := {}, queued := [], manager := { m with
              slots := m.slots.set i (slot.latch vk) } }
        else
          { result := { consume := true, cancelSystemMenu := slot.config.alt || slot.config.win }
            queued := m.queueDeferredFire i
            manager := { m with slots := m.slots.set i (slot.latch vk) } }
    | none => { result := {}, queued := [], manager := m }

/-- The UP of a modifier: every free slot that is bound to the modifiers held before it fires, if no
other key was pressed. -/
def matchModifierUp (m : HotkeyManager) (before : PhysicalModifierState) (otherKeyBefore : Bool) :
    Matched :=
  let fired := m.slots.zipIdx.filter fun entry =>
    entry.1.modifierOnly before && !(otherKeyBefore || entry.1.passThrough)
  { result :=
      { cancelSystemMenu := fired.any fun entry => entry.1.config.alt || entry.1.config.win }
    queued := fired.flatMap fun entry => m.queueDeferredFire entry.2
    manager := m }

/-- `Match` -/
def matchEvent (m : HotkeyManager) (event : KeyEvent) : Matched :=
  if !m.finalized then { result := {}, queued := [], manager := m }
  else
    match event.modifier, event.type with
    | .none, .up => (m.observe event).matchUp event.vk
    | .none, .down => (m.observe event).matchDown event.vk
    | _, .up => (m.observe event).matchModifierUp m.mods m.otherKeyPressed
    | _, .down => { result := {}, queued := [], manager := m.observe event }

/-- Slot `i` is latched on the key, and its DOWN was passed through or not. -/
def Latched (m : HotkeyManager) (i vk : Nat) (passed : Bool) : Prop :=
  ∃ slot, m.slots[i]? = some slot ∧ slot.state = ⟨true, passed, vk⟩

/-- Some slot that is free has its combination pressed with the key. -/
def Bound (m : HotkeyManager) (vk : Nat) : Prop := ∃ slot ∈ m.slots, slot.combo m.mods vk = true

theorem latchedOn_iff_latched {m : HotkeyManager} {vk : Nat} :
    m.slots.any (Slot.latchedOn vk) = true ↔ ∃ i passed, m.Latched i vk passed := by
  rw [List.any_eq_true]
  constructor
  · rintro ⟨slot, hmem, hslot⟩
    obtain ⟨i, hi⟩ := List.mem_iff_getElem?.mp hmem
    obtain ⟨hdown, hvk⟩ := Slot.latchedOn_iff.mp hslot
    refine ⟨i, slot.state.comboPassedThrough, slot, hi, ?_⟩
    rw [← hdown, ← hvk]
  · rintro ⟨i, passed, slot, hi, hstate⟩
    refine ⟨slot, List.mem_of_getElem? hi, Slot.latchedOn_iff.mpr ?_⟩
    rw [hstate]
    exact ⟨rfl, rfl⟩

theorem latched_set {m : HotkeyManager} {i j vk : Nat} {passed : Bool} {slot : Slot}
    (hi : i < m.slots.length) :
    Latched { m with slots := m.slots.set i slot } j vk passed ↔
      j = i ∧ slot.state = ⟨true, passed, vk⟩ ∨ j ≠ i ∧ m.Latched j vk passed := by
  by_cases hj : j = i
  · subst hj
    simp only [Latched, List.getElem?_set_self hi, Option.some.injEq, exists_eq_left', true_and,
      ne_eq, not_true_eq_false, false_and, or_false]
  · simp only [Latched, List.getElem?_set_ne (Ne.symm hj), hj, false_and, ne_eq, not_false_eq_true,
      true_and, false_or]

theorem latched_latch {m : HotkeyManager} {i j vk vk' : Nat} {passed : Bool} {slot : Slot}
    (hi : m.slots[i]? = some slot) :
    Latched { m with slots := m.slots.set i (slot.latch vk) } j vk' passed ↔
      j = i ∧ vk' = vk ∧ passed = slot.passThrough ∨ j ≠ i ∧ m.Latched j vk' passed := by
  rw [latched_set (List.getElem?_eq_some_iff.mp hi).1]
  simp only [Slot.latch, SlotState.mk.injEq, true_and]
  constructor
  · rintro (⟨hj, hpassed, hvk⟩ | hother)
    · exact Or.inl ⟨hj, hvk.symm, hpassed.symm⟩
    · exact Or.inr hother
  · rintro (⟨hj, hvk, hpassed⟩ | hother)
    · exact Or.inl ⟨hj, hpassed.symm, hvk.symm⟩
    · exact Or.inr hother

theorem latched_release {m : HotkeyManager} {i j vk : Nat} {passed : Bool} {slot : Slot}
    (hi : m.slots[i]? = some slot) :
    Latched { m with slots := m.slots.set i slot.release } j vk passed ↔
      j ≠ i ∧ m.Latched j vk passed := by
  rw [latched_set (List.getElem?_eq_some_iff.mp hi).1]
  constructor
  · rintro (⟨-, hstate⟩ | hother)
    · cases hstate
    · exact hother
  · exact Or.inr

theorem map_config_set {slots : List Slot} {i : Nat} {slot slot' : Slot}
    (hi : slots[i]? = some slot) (hconfig : slot'.config = slot.config) :
    (slots.set i slot').map Slot.config = slots.map Slot.config := by
  obtain ⟨hlt, rfl⟩ := List.getElem?_eq_some_iff.mp hi
  have hlt' : i < (slots.map Slot.config).length := by rwa [List.length_map]
  rw [List.map_set, hconfig, ← List.getElem_map Slot.config (h := hlt'), List.set_getElem_self]

theorem Latched.eq {m : HotkeyManager} {i vk vk' : Nat} {passed passed' : Bool}
    (h : m.Latched i vk passed) (h' : m.Latched i vk' passed') : vk = vk' ∧ passed = passed' := by
  obtain ⟨slot, hi, hstate⟩ := h
  obtain ⟨slot', hi', hstate'⟩ := h'
  obtain rfl := Option.some.inj (hi.symm.trans hi')
  obtain ⟨-, hpassed, hvk⟩ := SlotState.mk.inj (hstate.symm.trans hstate')
  exact ⟨hvk, hpassed⟩

/-- What the UP of a key does. -/
theorem matchUp_cases (m : HotkeyManager) (vk : Nat) :
    (∃ i passed, m.Latched i vk passed ∧ (m.matchUp vk).result = { consume := !passed } ∧
      ∃ slot, m.slots[i]? = some slot ∧
        (m.matchUp vk).manager = { m with slots := m.slots.set i slot.release }) ∨
    (∀ i passed, ¬m.Latched i vk passed) ∧ (m.matchUp vk).result = {} ∧
      (m.matchUp vk).manager = m := by
  rw [matchUp]
  split
  · rename_i slot i hfind
    left
    have hslot : slot.latchedOn vk = true :=
      List.find?_some (p := fun entry : Slot × Nat => entry.1.latchedOn vk) hfind
    obtain ⟨hdown, hvk⟩ := Slot.latchedOn_iff.mp hslot
    have hi : m.slots[i]? = some slot :=
      List.mem_zipIdx_iff_getElem?.mp (List.mem_of_find?_eq_some hfind)
    refine ⟨i, slot.state.comboPassedThrough, ⟨slot, hi, ?_⟩, rfl, slot, hi, rfl⟩
    rw [← hdown, ← hvk]
  · rename_i hnone
    right
    refine ⟨fun i passed hlatched => ?_, rfl, rfl⟩
    obtain ⟨slot, hi, hstate⟩ := hlatched
    refine List.find?_eq_none.mp hnone (slot, i) (List.mem_zipIdx_iff_getElem?.mpr hi) ?_
    rw [Slot.latchedOn_iff, hstate]
    exact ⟨rfl, rfl⟩

@[simp] theorem matchUp_queued (m : HotkeyManager) (vk : Nat) : (m.matchUp vk).queued = [] := by
  rw [matchUp]
  split <;> rfl

/-- What the DOWN of a key does. -/
theorem matchDown_cases (m : HotkeyManager) (vk : Nat) :
    ((∃ i passed, m.Latched i vk passed) ∧ m.matchDown vk = ⟨{ consume := true }, [], m⟩) ∨
    (∀ i passed, ¬m.Latched i vk passed) ∧
      ((¬m.Bound vk ∧ m.matchDown vk = ⟨{}, [], m⟩) ∨
        ∃ i slot, m.slots[i]? = some slot ∧ slot.combo m.mods vk = true ∧
          (m.matchDown vk).result.consume = !slot.passThrough ∧
          (∀ j ∈ (m.matchDown vk).queued, j = i) ∧ (m.matchDown vk).queued.length ≤ 1 ∧
          (m.matchDown vk).manager = { m with slots := m.slots.set i (slot.latch vk) }) := by
  have hlength : ∀ i, (m.queueDeferredFire i).length ≤ 1 ∧ ∀ j ∈ m.queueDeferredFire i, j = i := by
    intro i
    rw [queueDeferredFire]
    split
    · exact ⟨Nat.le_refl 1, fun j hj => List.mem_singleton.mp hj⟩
    · exact ⟨Nat.zero_le 1, fun j hj => absurd hj List.not_mem_nil⟩
  rw [matchDown]
  by_cases hlatched : m.slots.any (Slot.latchedOn vk) = true
  · left
    rw [if_pos hlatched]
    exact ⟨latchedOn_iff_latched.mp hlatched, rfl⟩
  · right
    rw [if_neg hlatched]
    refine ⟨fun i passed h => hlatched (latchedOn_iff_latched.mpr ⟨i, passed, h⟩), ?_⟩
    split
    · rename_i slot i hfind
      right
      have hi : m.slots[i]? = some slot :=
        List.mem_zipIdx_iff_getElem?.mp (List.mem_of_find?_eq_some hfind)
      have hcombo := List.find?_some hfind
      dsimp only at hcombo
      refine ⟨i, slot, hi, hcombo, ?_⟩
      by_cases hpass : slot.passThrough = true
      · rw [if_pos hpass, hpass]
        exact ⟨rfl, fun j hj => absurd hj List.not_mem_nil, Nat.zero_le 1, rfl⟩
      · rw [if_neg hpass, Bool.eq_false_iff.mpr hpass]
        exact ⟨rfl, (hlength i).2, (hlength i).1, rfl⟩
    · rename_i hnone
      left
      refine ⟨fun hbound => ?_, rfl⟩
      obtain ⟨slot, hmem, hcombo⟩ := hbound
      obtain ⟨i, hi⟩ := List.mem_iff_getElem?.mp hmem
      exact List.find?_eq_none.mp hnone (slot, i) (List.mem_zipIdx_iff_getElem?.mpr hi) hcombo

end HotkeyManager

end VKey
