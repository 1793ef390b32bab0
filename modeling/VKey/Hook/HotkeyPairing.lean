import VKey.Hook.HotkeyManager
import VKey.Support.Run

/-!
# The hotkeys and the keys of the keyboard

The keyboard sends the first DOWN of a press, its repeats and its UP.  An application sees the press
of a key whole, or not at all, as long as no slot is latched on a repeat.
-/

namespace VKey

namespace HotkeyManager

/-- The manager, the configurations that were given to it and the keys of the keyboard. -/
structure Session where
  manager : HotkeyManager
  bindings : List HotkeyConfig
  /-- The keys that are held, each key of a modifier for itself. -/
  held : Nat → Bool
  /-- The first DOWN of the last press of a key was consumed. -/
  consumed : Nat → Bool

inductive Input where
  | down (vk : Nat)
  | up (vk : Nat)
  | updateHotkey (slot : Nat) (config : HotkeyConfig)
  /-- The predicate of a slot changes its answer. -/
  | passThrough (slot : Nat) (allows : Bool)

namespace Session

/-- What `Match` does with an event of a key. -/
def matched (s : Session) (vk : Nat) (type : KeyEventType) : Matched :=
  s.manager.matchEvent { vk, type, modifier := normalizeModifier vk }

/-- The modifiers of which a key is held. -/
def heldModifiers (s : Session) : PhysicalModifierState where
  ctrl := s.held 0x11 || s.held 0xA2 || s.held 0xA3
  shift := s.held 0x10 || s.held 0xA0 || s.held 0xA1
  alt := s.held 0x12 || s.held 0xA4 || s.held 0xA5
  win := s.held 0x5B || s.held 0x5C

def press (s : Session) (vk : Nat) : Session :=
  { s with
    manager := (s.matched vk .down).manager
    held := Function.update s.held vk true
    consumed := if s.held vk then s.consumed
      else Function.update s.consumed vk (s.matched vk .down).result.consume }

def release (s : Session) (vk : Nat) : Session :=
  { s with manager := (s.matched vk .up).manager, held := Function.update s.held vk false }

def rebind (s : Session) (slot : Nat) (config : HotkeyConfig) : Session :=
  { s with
    manager := s.manager.updateHotkey slot config
    bindings := if config.vk > kVkMask then s.bindings else s.bindings.set slot config }

def allow (s : Session) (slot : Nat) (allows : Bool) : Session :=
  { s with manager := { s.manager with slots := s.manager.slots.modify slot (Slot.allow allows) } }

/-- The slots are added, then the bindings are finalized; no key is held. -/
def initial (sink : Bool) (slots : List (HotkeyConfig × Bool)) : Session where
  manager := finalizeBindings (slots.foldl (fun m slot => addHotkey m slot.1 slot.2)
    { deferredFireSink := sink })
  bindings := (slots.map Prod.fst).filter fun config => config.vk ≤ kVkMask
  held _ := false
  consumed _ := false

/-- A key is released only when it is held. -/
inductive Step : Session → Input → Session → Prop
  | down {s : Session} {vk : Nat} : Step s (.down vk) (s.press vk)
  | up {s : Session} {vk : Nat} (hheld : s.held vk = true) : Step s (.up vk) (s.release vk)
  | updateHotkey {s : Session} {slot : Nat} {config : HotkeyConfig} :
      Step s (.updateHotkey slot config) (s.rebind slot config)
  | passThrough {s : Session} {slot : Nat} {allows : Bool} :
      Step s (.passThrough slot allows) (s.allow slot allows)

/-- The press of a key that is no modifier: its UP is consumed exactly if its first DOWN was; only
the first DOWN queues a slot, at most one, and one whose modifiers are those that are held. -/
def Paired (s : Session) : Input → Prop
  | .down vk => normalizeModifier vk = .none →
      (s.matched vk .down).queued.length ≤ 1 ∧
      ∀ slot ∈ (s.matched vk .down).queued, s.held vk = false ∧
        ∃ config, s.bindings[slot]? = some config ∧ config.vk = vk ∧
          s.heldModifiers.agreesWith config = true
  | .up vk => normalizeModifier vk = .none →
      (s.matched vk .up).result.consume = s.consumed vk ∧ (s.matched vk .up).queued = []
  | _ => True

/-- At most one slot is latched on a key. -/
def Alone (s : Session) : Prop :=
  ∀ i j vk passed passed', s.manager.Latched i vk passed → s.manager.Latched j vk passed' → i = j

/-- When all keys but modifiers are up, no slot is latched. -/
def Free (s : Session) : Prop :=
  (∀ vk, normalizeModifier vk = .none → s.held vk = false) →
    ∀ slot ∈ s.manager.slots, slot.state.comboKeyDown = false

/-- The repeat of a DOWN finds a latch or no slot to latch; and when a first DOWN finds a slot, the
flags are those of the modifiers that are held. -/
def Timely (s : Session) : Input → Prop
  | .down vk => normalizeModifier vk = .none → s.manager.Bound vk →
      if s.held vk then ∃ i passed, s.manager.Latched i vk passed
      else s.manager.mods = s.heldModifiers
  | _ => True

/-- The latches belong to keys that are held, each to one. -/
structure Coherent (s : Session) : Prop where
  finalized : s.manager.finalized = true
  bound : s.manager.slots.map Slot.config = s.bindings
  held : ∀ i vk passed, s.manager.Latched i vk passed →
    s.held vk = true ∧ normalizeModifier vk = .none
  alone : s.Alone

/-- The first DOWN of a key that is held was consumed exactly if a slot is latched on it that was
not passed through. -/
def Settled (s : Session) : Prop :=
  ∀ vk, s.held vk = true → normalizeModifier vk = .none →
    (s.consumed vk = true ↔ ∃ i, s.manager.Latched i vk false)

variable {s : Session} {vk : Nat}

theorem matched_up (hfinalized : s.manager.finalized = true) (hkey : normalizeModifier vk = .none) :
    s.matched vk .up = s.manager.matchUp vk := by
  simp only [matched, matchEvent, hfinalized, hkey, observe, Bool.not_true,
    Bool.false_eq_true, if_false, ne_eq, not_true_eq_false, reduceCtorEq]

theorem matched_down (hfinalized : s.manager.finalized = true)
    (hkey : normalizeModifier vk = .none) :
    s.matched vk .down = matchDown { s.manager with otherKeyPressed := true } vk := by
  simp only [matched, matchEvent, hfinalized, hkey, observe, Bool.not_true,
    Bool.false_eq_true, if_false, ne_eq, not_true_eq_false, if_true]

/-- The events of a modifier leave the slots as they are. -/
theorem matched_modifier (hkey : normalizeModifier vk ≠ .none) (type : KeyEventType) :
    (s.matched vk type).manager.slots = s.manager.slots ∧
      (s.matched vk type).manager.finalized = s.manager.finalized := by
  have hobserve : (s.manager.observe ⟨vk, type, normalizeModifier vk⟩).slots = s.manager.slots ∧
      (s.manager.observe ⟨vk, type, normalizeModifier vk⟩).finalized = s.manager.finalized := by
    rw [observe, if_pos hkey]
    cases type <;> exact ⟨rfl, rfl⟩
  rw [matched, matchEvent]
  split
  · exact ⟨rfl, rfl⟩
  · split
    · exact absurd (by assumption) hkey
    · exact absurd (by assumption) hkey
    · exact hobserve
    · exact hobserve

/-- The part of the session that the keys of the modifiers do not change. -/
structure Alike (s s' : Session) : Prop where
  finalized : s'.manager.finalized = s.manager.finalized
  slots : s'.manager.slots = s.manager.slots
  bindings : s'.bindings = s.bindings
  held : ∀ vk, normalizeModifier vk = .none → s'.held vk = s.held vk
  consumed : ∀ vk, normalizeModifier vk = .none → s'.consumed vk = s.consumed vk

theorem Alike.latched_iff {s' : Session} (h : s.Alike s') {i vk : Nat} {passed : Bool} :
    s'.manager.Latched i vk passed ↔ s.manager.Latched i vk passed := by
  rw [Latched, Latched, h.slots]

theorem Coherent.alike {s' : Session} (h : s.Coherent) (halike : s.Alike s') : s'.Coherent where
  finalized := halike.finalized.trans h.finalized
  bound := by rw [halike.slots, halike.bindings, h.bound]
  held i vk passed hlatched := by
    obtain ⟨hheld, hkey⟩ := h.held i vk passed (halike.latched_iff.mp hlatched)
    exact ⟨(halike.held vk hkey).trans hheld, hkey⟩
  alone i j vk passed passed' hi hj :=
    h.alone i j vk passed passed' (halike.latched_iff.mp hi) (halike.latched_iff.mp hj)

theorem Settled.alike {s' : Session} (h : s.Settled) (halike : s.Alike s') : s'.Settled := by
  intro vk hheld hkey
  rw [halike.consumed vk hkey, h vk ((halike.held vk hkey).symm.trans hheld) hkey]
  exact exists_congr fun i => halike.latched_iff.symm

theorem press_held {other : Nat} :
    (s.press vk).held other = true ↔ other = vk ∨ s.held other = true := by
  by_cases h : other = vk
  · simp [press, h]
  · simp [press, h]

theorem release_held {other : Nat} :
    (s.release vk).held other = true ↔ other ≠ vk ∧ s.held other = true := by
  by_cases h : other = vk
  · simp [release, h]
  · simp [release, h]

theorem press_consumed {other : Nat} (h : s.held vk = true ∨ other ≠ vk) :
    (s.press vk).consumed other = s.consumed other := by
  simp only [press]
  split
  · rfl
  · rename_i hheld
    exact Function.update_of_ne (h.resolve_left hheld) _ _

theorem press_consumed_self (h : ¬s.held vk = true) :
    (s.press vk).consumed vk = (s.matched vk .down).result.consume := by
  simp [press, h]

theorem ne_of_key {other : Nat} (hkey : normalizeModifier vk ≠ .none)
    (hother : normalizeModifier other = .none) : other ≠ vk := by
  rintro rfl
  exact hkey hother

theorem press_alike (hkey : normalizeModifier vk ≠ .none) : s.Alike (s.press vk) where
  finalized := (matched_modifier hkey .down).2
  slots := (matched_modifier hkey .down).1
  bindings := rfl
  held _ hother := Function.update_of_ne (ne_of_key hkey hother) _ _
  consumed _ hother := press_consumed (Or.inr (ne_of_key hkey hother))

theorem release_alike (hkey : normalizeModifier vk ≠ .none) : s.Alike (s.release vk) where
  finalized := (matched_modifier hkey .up).2
  slots := (matched_modifier hkey .up).1
  bindings := rfl
  held _ hother := Function.update_of_ne (ne_of_key hkey hother) _ _
  consumed _ _ := rfl

/-- The slots that were added are free and keep their configurations. -/
theorem addHotkeys (sink : Bool) (slots : List (HotkeyConfig × Bool)) :
    ∃ m : HotkeyManager, slots.foldl (fun m slot => addHotkey m slot.1 slot.2)
        { deferredFireSink := sink } = m ∧ m.finalized = false ∧
      m.slots.map Slot.config = (slots.map Prod.fst).filter (fun config => config.vk ≤ kVkMask) ∧
      ∀ slot ∈ m.slots, slot.state = {} := by
  induction slots using List.reverseRecOn with
  | nil => exact ⟨_, rfl, rfl, rfl, fun slot hmem => absurd hmem List.not_mem_nil⟩
  | append_singleton slots last ih =>
      obtain ⟨m, hm, hfinalized, hconfig, hstate⟩ := ih
      refine ⟨_, rfl, ?_⟩
      rw [List.foldl_append, hm, List.foldl_cons, List.foldl_nil, addHotkey,
        hfinalized, Bool.false_or,
        List.map_append, List.filter_append, ← hconfig, List.map_singleton]
      by_cases hvk : last.1.vk > kVkMask
      · rw [if_pos (decide_eq_true hvk), List.filter_cons_of_neg, List.filter_nil, List.append_nil]
        · exact ⟨hfinalized, rfl, hstate⟩
        · rwa [decide_eq_true_eq, Nat.not_le]
      · rw [if_neg (by rwa [decide_eq_true_eq]), List.filter_cons_of_pos, List.filter_nil]
        · refine ⟨rfl, ?_, ?_⟩
          · rw [List.map_append, List.map_singleton]
            exact congrArg (fun config => _ ++ [config]) (unpackConfig_packConfig last.1)
          · intro slot hmem
            rcases List.mem_append.mp hmem with hmem | hmem
            · exact hstate slot hmem
            · rw [List.mem_singleton.mp hmem]
        · rwa [decide_eq_true_eq, ← Nat.not_lt]

theorem initial_not_latched (sink : Bool) (slots : List (HotkeyConfig × Bool)) (i vk : Nat)
    (passed : Bool) : ¬(initial sink slots).manager.Latched i vk passed := by
  obtain ⟨m, hm, -, -, hstate⟩ := addHotkeys sink slots
  rintro ⟨slot, hi, hlatched⟩
  rw [Session.initial, hm] at hi
  rw [hstate slot (List.mem_of_getElem? hi)] at hlatched
  cases hlatched

theorem Coherent.initial (sink : Bool) (slots : List (HotkeyConfig × Bool)) :
    (Session.initial sink slots).Coherent where
  finalized := rfl
  bound := by
    obtain ⟨m, hm, -, hconfig, -⟩ := addHotkeys sink slots
    rw [Session.initial, hm]
    exact hconfig
  held i vk passed hi := absurd hi (initial_not_latched sink slots i vk passed)
  alone i _ vk passed _ hi := absurd hi (initial_not_latched sink slots i vk passed)

theorem Settled.initial (sink : Bool) (slots : List (HotkeyConfig × Bool)) :
    (Session.initial sink slots).Settled :=
  fun _ hheld => absurd hheld Bool.false_ne_true

/-- The UP of a key releases the slot that is latched on it. -/
theorem Coherent.latched_up (h : s.Coherent) (hkey : normalizeModifier vk = .none) {i other : Nat}
    {passed : Bool} :
    (s.release vk).manager.Latched i other passed ↔ other ≠ vk ∧
    s.manager.Latched i other passed := by
  rw [release, matched_up h.finalized hkey]
  rcases s.manager.matchUp_cases vk with
    ⟨j, passed', hj, -, slot, hslot, hmanager⟩ | ⟨hfree, -, hmanager⟩
  · rw [hmanager, latched_release hslot]
    constructor
    · rintro ⟨hij, hi⟩
      refine ⟨?_, hi⟩
      rintro rfl
      exact hij (h.alone _ _ _ _ _ hi hj)
    · rintro ⟨hother, hi⟩
      refine ⟨?_, hi⟩
      rintro rfl
      exact hother (hi.eq hj).1
  · rw [hmanager]
    refine ⟨fun hi => ⟨?_, hi⟩, And.right⟩
    rintro rfl
    exact hfree i passed hi

theorem Coherent.release_key (h : s.Coherent) (hkey : normalizeModifier vk = .none) :
    (s.release vk).Coherent where
  finalized := by
    rw [release, matched_up h.finalized hkey]
    rcases s.manager.matchUp_cases vk with ⟨_, _, _, -, slot, _, hmanager⟩ | ⟨-, -, hmanager⟩
    · rw [hmanager]
      exact h.finalized
    · rw [hmanager]
      exact h.finalized
  bound := by
    rw [release, matched_up h.finalized hkey, ← h.bound]
    rcases s.manager.matchUp_cases vk with ⟨i, _, _, -, slot, hi, hmanager⟩ | ⟨-, -, hmanager⟩
    · rw [hmanager]
      exact map_config_set hi slot.release_config
    · rw [hmanager]
  held i other passed hlatched := by
    obtain ⟨hother, hi⟩ := (h.latched_up hkey).mp hlatched
    exact ⟨release_held.mpr ⟨hother, (h.held i other passed hi).1⟩, (h.held i other passed hi).2⟩
  alone i j other passed passed' hi hj :=
    h.alone i j other passed passed' ((h.latched_up hkey).mp hi).2 ((h.latched_up hkey).mp hj).2

theorem Settled.release_key (hsettled : s.Settled) (h : s.Coherent)
    (hkey : normalizeModifier vk = .none) : (s.release vk).Settled := by
  intro other hheld hother
  obtain ⟨hne, hbefore⟩ := release_held.mp hheld
  rw [show (s.release vk).consumed = s.consumed from rfl, hsettled other hbefore hother]
  exact exists_congr fun i => ⟨fun hi => (h.latched_up hkey).mpr ⟨hne, hi⟩,
    fun hi => ((h.latched_up hkey).mp hi).2⟩

/-- The repeat of a latched key changes nothing. -/
theorem Coherent.press_latched (h : s.Coherent) {i : Nat} {passed : Bool}
    (hlatched : s.manager.Latched i vk passed) : s.Alike (s.press vk) := by
  obtain ⟨hheld, hkey⟩ := h.held i vk passed hlatched
  have hmanager : (s.press vk).manager = { s.manager with otherKeyPressed := true } := by
    rw [press, matched_down h.finalized hkey]
    rcases matchDown_cases { s.manager with otherKeyPressed := true } vk with ⟨-, heq⟩ | ⟨hfree, -⟩
    · rw [heq]
    · exact absurd hlatched (hfree i passed)
  constructor
  · rw [hmanager]
  · rw [hmanager]
  · rfl
  · intro other _
    rw [Bool.eq_iff_iff, press_held]
    refine or_iff_right_of_imp ?_
    rintro rfl
    exact hheld
  · exact fun other _ => press_consumed (Or.inl hheld)

/-- A key that no slot is latched on, and that none is latched on by its DOWN. -/
theorem Coherent.press_unbound (h : s.Coherent) (hkey : normalizeModifier vk = .none)
    (hfree : ∀ i passed, ¬s.manager.Latched i vk passed)
    (hmatched : s.matched vk .down = ⟨{}, [], { s.manager with otherKeyPressed := true }⟩) :
    (s.press vk).Coherent ∧ (s.Settled → (s.press vk).Settled) := by
  have hmanager : (s.press vk).manager = { s.manager with otherKeyPressed := true } := by
    rw [press, hmatched]
  have hlatched : ∀ {i other passed},
      (s.press vk).manager.Latched i other passed ↔ s.manager.Latched i other passed := by
    intro i other passed
    rw [Latched, Latched, hmanager]
  refine ⟨⟨?_, ?_, ?_, ?_⟩, ?_⟩
  · rw [hmanager]
    exact h.finalized
  · rw [hmanager]
    exact h.bound
  · intro i other passed hi
    obtain ⟨hheld, hother⟩ := h.held i other passed (hlatched.mp hi)
    exact ⟨press_held.mpr (Or.inr hheld), hother⟩
  · exact fun i j other passed passed' hi hj =>
      h.alone i j other passed passed' (hlatched.mp hi) (hlatched.mp hj)
  · intro hsettled other hheld hother
    rw [exists_congr fun i => hlatched]
    by_cases hbefore : s.held other = true
    · rw [press_consumed, hsettled other hbefore hother]
      by_cases heq : other = vk
      · exact Or.inl (heq ▸ hbefore)
      · exact Or.inr heq
    · obtain rfl := (press_held.mp hheld).resolve_right hbefore
      rw [press_consumed_self hbefore, hmatched]
      exact iff_of_false Bool.false_ne_true (not_exists.mpr fun i => hfree i false)

/-- A key that a slot is latched on by its DOWN. -/
theorem Coherent.press_bound (h : s.Coherent) (hkey : normalizeModifier vk = .none)
    (hfree : ∀ i passed, ¬s.manager.Latched i vk passed) {i : Nat} {slot : Slot}
    (hi : s.manager.slots[i]? = some slot) (hslot : slot.state.comboKeyDown = false)
    (hconsume : (s.matched vk .down).result.consume = !slot.passThrough)
    (hmanager : (s.matched vk .down).manager =
      { s.manager with slots := s.manager.slots.set i (slot.latch vk), otherKeyPressed := true }) :
    (s.press vk).Coherent ∧ (s.Settled → s.held vk = false → (s.press vk).Settled) := by
  have hlatched : ∀ {j other passed}, (s.press vk).manager.Latched j other passed ↔
      j = i ∧ other = vk ∧ passed = slot.passThrough ∨ s.manager.Latched j other passed := by
    intro j other passed
    have hslots : (s.press vk).manager.slots = s.manager.slots.set i (slot.latch vk) :=
      congrArg slots hmanager
    rw [Latched, hslots]
    refine (latched_latch hi).trans ?_
    refine or_congr_right (and_iff_right_of_imp ?_)
    rintro ⟨slot', hj, hstate⟩ rfl
    obtain rfl := Option.some.inj (hi.symm.trans hj)
    rw [hstate] at hslot
    cases hslot
  refine ⟨⟨?_, ?_, ?_, ?_⟩, ?_⟩
  · rw [press, hmanager]
    exact h.finalized
  · rw [press, hmanager]
    exact (map_config_set hi (slot.latch_config vk)).trans h.bound
  · intro j other passed hj
    rcases hlatched.mp hj with ⟨-, rfl, -⟩ | hj
    · exact ⟨press_held.mpr (Or.inl rfl), hkey⟩
    · exact ⟨press_held.mpr (Or.inr (h.held j other passed hj).1), (h.held j other passed hj).2⟩
  · intro j k other passed passed' hj hk
    rcases hlatched.mp hj with ⟨rfl, rfl, -⟩ | holdj
    · rcases hlatched.mp hk with ⟨rfl, -, -⟩ | holdk
      · rfl
      · exact absurd holdk (hfree k passed')
    · rcases hlatched.mp hk with ⟨rfl, rfl, -⟩ | holdk
      · exact absurd holdj (hfree j passed)
      · exact h.alone j k other passed passed' holdj holdk
  · intro hsettled hup other hheld hother
    by_cases heq : other = vk
    · subst heq
      rw [press_consumed_self (by rw [hup]; exact Bool.false_ne_true), hconsume,
        Bool.not_eq_true']
      constructor
      · exact fun hpass => ⟨i, hlatched.mpr (Or.inl ⟨rfl, rfl, hpass.symm⟩)⟩
      · rintro ⟨j, hj⟩
        rcases hlatched.mp hj with ⟨-, -, hpass⟩ | hj
        · exact hpass.symm
        · exact absurd hj (hfree j false)
    · have hbefore : s.held other = true := (press_held.mp hheld).resolve_left heq
      rw [press_consumed (Or.inr heq), hsettled other hbefore hother]
      refine exists_congr fun j => ⟨fun hj => hlatched.mpr (Or.inr hj), fun hj => ?_⟩
      rcases hlatched.mp hj with ⟨-, hvk, -⟩ | hj
      · exact absurd hvk heq
      · exact hj

theorem combo_free {mods : PhysicalModifierState} {slot : Slot} (h : slot.combo mods vk = true) :
    slot.config.vk = vk ∧ slot.state.comboKeyDown = false ∧ mods.agreesWith slot.config = true := by
  simp only [Slot.combo, Bool.and_eq_true, beq_iff_eq, Bool.not_eq_true'] at h
  exact ⟨h.1.1.2, h.1.2, h.2⟩

theorem Coherent.press (h : s.Coherent) (vk : Nat) :
    (s.press vk).Coherent ∧ (s.Settled → s.Timely (.down vk) → (s.press vk).Settled) := by
  by_cases hkey : normalizeModifier vk = .none
  · have hmatched := matched_down h.finalized hkey
    rcases matchDown_cases { s.manager with otherKeyPressed := true } vk with
      ⟨⟨i, passed, hlatched⟩, -⟩ | ⟨hfree,
        ⟨hunbound, heq⟩ | ⟨i, slot, hi, hcombo, hconsume, -, -, hmanager⟩⟩
    · have halike := h.press_latched hlatched
      exact ⟨h.alike halike, fun hsettled _ => hsettled.alike halike⟩
    · obtain ⟨hcoherent, hsettled⟩ := h.press_unbound hkey hfree (hmatched.trans heq)
      exact ⟨hcoherent, fun hbefore _ => hsettled hbefore⟩
    · rw [← hmatched] at hconsume hmanager
      obtain ⟨hcoherent, hsettled⟩ :=
        h.press_bound hkey hfree hi (combo_free hcombo).2.1 hconsume hmanager
      refine ⟨hcoherent, fun hbefore htimely => hsettled hbefore ?_⟩
      have hbound : s.manager.Bound vk := ⟨slot, List.mem_of_getElem? hi, hcombo⟩
      have hrepeat := htimely hkey hbound
      cases hheld : s.held vk with
      | false => rfl
      | true =>
          rw [if_pos hheld] at hrepeat
          obtain ⟨j, passed, hj⟩ := hrepeat
          exact absurd hj (hfree j passed)
  · have halike : s.Alike (s.press vk) := press_alike hkey
    exact ⟨h.alike halike, fun hsettled _ => hsettled.alike halike⟩

theorem Coherent.release (h : s.Coherent) (vk : Nat) :
    (s.release vk).Coherent ∧ (s.Settled → (s.release vk).Settled) := by
  by_cases hkey : normalizeModifier vk = .none
  · exact ⟨h.release_key hkey, fun hsettled => hsettled.release_key h hkey⟩
  · exact ⟨h.alike (release_alike hkey), fun hsettled => hsettled.alike (release_alike hkey)⟩

/-- A new binding, or another answer of a predicate, leaves the latches as they are. -/
theorem latched_modify {m : HotkeyManager} (f : Slot → Slot)
    (hf : ∀ slot, (f slot).state = slot.state) {slot i vk : Nat} {passed : Bool} :
    Latched { m with slots := m.slots.modify slot f } i vk passed ↔ m.Latched i vk passed := by
  rw [Latched, Latched, ← Option.map_eq_some_iff, ← Option.map_eq_some_iff, List.getElem?_modify,
    Option.map_eq_map, Option.map_map]
  have hstate : (Slot.state ∘ fun a => if slot = i then f a else a) = Slot.state := by
    funext a
    rw [Function.comp_apply]
    split
    · exact hf a
    · rfl
  rw [hstate]

theorem map_config_publish (slots : List Slot) (i : Nat) (config : HotkeyConfig) :
    (slots.modify i (Slot.publish config)).map Slot.config =
      (slots.map Slot.config).set i config := by
  apply List.ext_getElem?
  intro j
  rw [List.getElem?_map, List.getElem?_modify, List.getElem?_set,
    List.getElem?_map, List.length_map]
  by_cases hij : i = j
  · subst hij
    cases hi : slots[i]? with
    | none =>
        rw [if_pos rfl, if_neg (Nat.not_lt.mpr (List.getElem?_eq_none_iff.mp hi))]
        rfl
    | some slot =>
        rw [if_pos rfl, if_pos (List.getElem?_eq_some_iff.mp hi).1]
        simp only [Option.map_eq_map, Option.map_some, if_pos, Slot.publish_config]
  · rw [if_neg hij]
    cases slots[j]? with
    | none => rfl
    | some slot => simp only [Option.map_eq_map, Option.map_some, if_neg hij]

theorem map_config_allow (slots : List Slot) (i : Nat) (allows : Bool) :
    (slots.modify i (Slot.allow allows)).map Slot.config = slots.map Slot.config := by
  apply List.ext_getElem?
  intro j
  rw [List.getElem?_map, List.getElem?_modify, List.getElem?_map, Option.map_eq_map, Option.map_map]
  congr 1
  funext slot
  rw [Function.comp_apply]
  split <;> rfl

/-- What keeps the latches, the keys and the bindings keeps the invariants. -/
theorem Coherent.republish (h : s.Coherent) {s' : Session}
    (hfinalized : s'.manager.finalized = true)
    (hbound : s'.manager.slots.map Slot.config = s'.bindings) (hheld : s'.held = s.held)
    (hconsumed : s'.consumed = s.consumed)
    (hlatched : ∀ i vk passed, s'.manager.Latched i vk passed ↔ s.manager.Latched i vk passed) :
    s'.Coherent ∧ (s.Settled → s'.Settled) := by
  refine ⟨⟨hfinalized, hbound, ?_, ?_⟩, ?_⟩
  · intro i vk passed hi
    rw [hheld]
    exact h.held i vk passed ((hlatched i vk passed).mp hi)
  · exact fun i j vk passed passed' hi hj =>
      h.alone i j vk passed passed' ((hlatched i vk passed).mp hi) ((hlatched j vk passed').mp hj)
  · intro hsettled vk hvk hkey
    rw [hconsumed, hsettled vk (hheld ▸ hvk) hkey]
    exact exists_congr fun i => (hlatched i vk false).symm

theorem Coherent.rebind (h : s.Coherent) (slot : Nat) (config : HotkeyConfig) :
    (s.rebind slot config).Coherent ∧ (s.Settled → (s.rebind slot config).Settled) := by
  have hmanager : (s.rebind slot config).manager = s.manager.updateHotkey slot config := rfl
  have hbindings : (s.rebind slot config).bindings =
    if config.vk > kVkMask then s.bindings else s.bindings.set slot config := rfl
  by_cases hvk : config.vk > kVkMask
  · have hsame : (s.rebind slot config).manager = s.manager := by
      rw [hmanager, updateHotkey, decide_eq_true hvk, Bool.or_true, if_pos rfl]
    rw [if_pos hvk] at hbindings
    apply h.republish
    · rw [hsame, h.finalized]
    · rw [hsame, hbindings, h.bound]
    · rfl
    · rfl
    · intro i vk passed
      rw [hsame]
  · have hnew : (s.rebind slot config).manager =
        { s.manager with slots := s.manager.slots.modify slot (Slot.publish config) } := by
      have hopen : (!s.manager.finalized || decide (config.vk > kVkMask)) = false := by
        rw [h.finalized, decide_eq_false hvk]
        rfl
      rw [hmanager, updateHotkey, hopen, if_neg Bool.false_ne_true]
    rw [if_neg hvk] at hbindings
    apply h.republish
    · rw [hnew, h.finalized]
    · rw [hnew, hbindings, ← h.bound]
      exact map_config_publish _ _ _
    · rfl
    · rfl
    · intro i vk passed
      rw [hnew]
      exact latched_modify (Slot.publish config) fun _ => rfl

theorem Coherent.allow (h : s.Coherent) (slot : Nat) (allows : Bool) :
    (s.allow slot allows).Coherent ∧ (s.Settled → (s.allow slot allows).Settled) := by
  apply h.republish
  · exact h.finalized
  · exact (map_config_allow _ _ _).trans h.bound
  · rfl
  · rfl
  · exact fun i vk passed => latched_modify (Slot.allow allows) fun _ => rfl

theorem Coherent.step {s' : Session} {input : Input} (h : s.Coherent) (hstep : Step s input s') :
    s'.Coherent ∧ (s.Settled → s.Timely input → s'.Settled) := by
  cases hstep with
  | down => exact h.press _
  | up =>
      obtain ⟨hcoherent, hsettled⟩ := h.release _
      exact ⟨hcoherent, fun hbefore _ => hsettled hbefore⟩
  | updateHotkey =>
      obtain ⟨hcoherent, hsettled⟩ := h.rebind _ _
      exact ⟨hcoherent, fun hbefore _ => hsettled hbefore⟩
  | passThrough =>
      obtain ⟨hcoherent, hsettled⟩ := h.allow _ _
      exact ⟨hcoherent, fun hbefore _ => hsettled hbefore⟩

theorem Coherent.free (h : s.Coherent) : s.Free := by
  intro hup slot hmem
  by_contra hnot
  have hdown : slot.state.comboKeyDown = true := Bool.not_eq_false _ |>.mp hnot
  obtain ⟨i, hi⟩ := List.mem_iff_getElem?.mp hmem
  have hlatched : s.manager.Latched i slot.state.latchedVk slot.state.comboPassedThrough := by
    refine ⟨slot, hi, ?_⟩
    rw [← hdown]
  obtain ⟨hheld, hkey⟩ := h.held _ _ _ hlatched
  cases (hup _ hkey).symm.trans hheld

/-- The DOWN of a key: what is queued is the slot that is latched. -/
theorem Coherent.paired_down (h : s.Coherent) (htimely : s.Timely (.down vk)) :
    s.Paired (.down vk) := by
  intro hkey
  rw [matched_down h.finalized hkey]
  rcases matchDown_cases { s.manager with otherKeyPressed := true } vk with
    ⟨-, heq⟩ | ⟨hfree, ⟨-, heq⟩ | ⟨i, slot, hi, hcombo, -, hqueued, hlength, -⟩⟩
  · rw [heq]
    exact ⟨Nat.zero_le 1, fun slot hmem => absurd hmem List.not_mem_nil⟩
  · rw [heq]
    exact ⟨Nat.zero_le 1, fun slot hmem => absurd hmem List.not_mem_nil⟩
  · refine ⟨hlength, fun j hmem => ?_⟩
    obtain rfl := hqueued j hmem
    obtain ⟨hvk, -, hmods⟩ := combo_free hcombo
    have hmatched := htimely hkey ⟨slot, List.mem_of_getElem? hi, hcombo⟩
    have hup : ¬s.held vk = true := by
      intro hheld
      rw [if_pos hheld] at hmatched
      obtain ⟨k, passed, hk⟩ := hmatched
      exact hfree k passed hk
    rw [if_neg hup] at hmatched
    refine ⟨Bool.eq_false_iff.mpr hup, slot.config, ?_, hvk, hmatched ▸ hmods⟩
    rw [← h.bound, List.getElem?_map, show s.manager.slots[j]? = some slot from hi]
    rfl

/-- The UP of a key: the slot that is latched tells what its first DOWN was. -/
theorem Coherent.paired_up (h : s.Coherent) (hsettled : s.Settled) (hheld : s.held vk = true) :
    s.Paired (.up vk) := by
  intro hkey
  rw [matched_up h.finalized hkey, matchUp_queued]
  refine ⟨?_, rfl⟩
  rw [Bool.eq_iff_iff, hsettled vk hheld hkey]
  rcases s.manager.matchUp_cases vk with ⟨i, passed, hi, hresult, -⟩ | ⟨hfree, hresult, -⟩
  · rw [hresult]
    constructor
    · intro hconsume
      obtain rfl : passed = false := by simpa using hconsume
      exact ⟨i, hi⟩
    · rintro ⟨j, hj⟩
      obtain rfl := h.alone _ _ _ _ _ hi hj
      rw [(hi.eq hj).2]
      rfl
  · rw [hresult]
    exact iff_of_false Bool.false_ne_true (not_exists.mpr fun i => hfree i false)

variable {sink : Bool} {slots : List (HotkeyConfig × Bool)} {inputs : List Input}

/-- Where no slot is latched on a repeat, and the flags of the modifiers are right when a slot is
latched, the presses are paired. -/
theorem paired_of_run (h : Run (Meeting Timely Step) (initial sink slots) inputs s) :
    s.Alone ∧ s.Free ∧ ∀ input s', s.Timely input → Step s input s' → s.Paired input := by
  obtain ⟨hcoherent, hsettled⟩ : (fun s : Session => s.Coherent ∧ s.Settled) s := by
    apply h.invariant
    · exact ⟨Coherent.initial sink slots, Settled.initial sink slots⟩
    · rintro s input s' ⟨hcoherent, hsettled⟩ ⟨htimely, hstep⟩
      exact ⟨(hcoherent.step hstep).1, (hcoherent.step hstep).2 hsettled htimely⟩
  refine ⟨hcoherent.alone, hcoherent.free, fun input s' htimely hstep => ?_⟩
  cases hstep with
  | down => exact hcoherent.paired_down htimely
  | up hheld => exact hcoherent.paired_up hsettled hheld
  | updateHotkey => trivial
  | passThrough => trivial

/-- Ctrl, J, and the UP of J, with a slot on Ctrl+J. -/
theorem paired_of_run_ctrl : ∃ s, Run Step (initial true [({ ctrl := true, vk := 0x4A }, false)])
    [.down 0xA2, .down 0x4A] s ∧ s.Alone ∧ s.Free ∧ s.consumed 0x4A = true ∧
      s.Paired (.up 0x4A) := by
  have hrun : Run (Meeting Timely Step) (initial true [({ ctrl := true, vk := 0x4A }, false)])
      [.down 0xA2, .down 0x4A] _ :=
    .cons ⟨fun hkey => absurd hkey (by decide), .down⟩
      (.cons ⟨fun _ _ => by rw [if_neg (by decide)]; decide, .down⟩ .nil)
  obtain ⟨halone, hfree, hpaired⟩ := paired_of_run hrun
  exact ⟨_, hrun.mono fun _ _ _ hstep => hstep.2, halone, hfree, by decide,
    hpaired (.up 0x4A) _ trivial (.up (by decide))⟩

/-- J is held before Ctrl: a repeat of J is taken for the combination, and the application that has
seen J go down never sees it go up. -/
theorem not_paired_of_run :
    ¬∀ (sink : Bool) (slots : List (HotkeyConfig × Bool)) (inputs : List Input)
    (s : Session), Run Step (initial sink slots) inputs s →
      ∀ input s', Step s input s' → s.Paired input := by
  intro h
  have hrun : Run Step (initial true [({ ctrl := true, vk := 0x4A }, false)])
      [.down 0x4A, .down 0xA2, .down 0x4A] _ :=
    .cons .down (.cons .down (.cons .down .nil))
  obtain ⟨hconsume, -⟩ := h _ _ _ _ hrun (.up 0x4A) _ (.up (by decide)) (by decide)
  revert hconsume
  decide

end Session

end HotkeyManager

end VKey
