import Mathlib.Data.Nat.Find
import Mathlib.Logic.Function.Basic
import VKey.Support.Run

/-!
# The mailbox of the hook thread

Producers post command bits, with a focus snapshot in its own slot; the hook thread drains them.
Every operation on an atomic is one step, and the steps of the producers and of the hook thread come
in any order.
-/

namespace VKey

namespace HookCommandMailbox

/-- A word of command bits. -/
abbrev Bits := BitVec 32

/-- The bits of the commands. -/
def kFocusChanged : Bits := 0x01

def kConfigApply : Bits := 0x02

def kTickPoll : Bits := 0x04

def kToggleVN : Bits := 0x08

/-- The bits are all in the word. -/
def Within (bits word : Bits) : Prop := bits &&& word = bits

/-- Where a producer stands in `Post`. -/
inductive Posting (α : Type) where
  | idle
  /-- Before the snapshot is stored. -/
  | storing (bit : Bits) (cls : α)
  /-- Before the bits are set. -/
  | setting (bit : Bits)
  /-- Before the wake latch is set. -/
  | latching
  /-- The latch was not set: the wake is due. -/
  | waking
  deriving DecidableEq

/-- Where the hook thread stands in `DrainBits` and what follows it. -/
inductive Draining where
  | idle
  /-- The latch is cleared, and the bits are not taken yet. -/
  | cleared
  /-- The bits that were taken. -/
  | drained (bits : Bits)
  deriving DecidableEq

/-- The atomics of the mailbox, and where the threads stand.  A wake function is set. -/
structure State (ι α : Type) where
  bits : Bits
  pendingFocus : Option α
  wakePosted : Bool
  posting : ι → Posting α
  draining : Draining

/-- An operation of one of the threads. -/
inductive Event (ι α : Type) where
  | call (i : ι) (bit : Bits) (cls : Option α)
  | storeFocus (i : ι) (cls : α)
  | fetchOr (i : ι) (bit : Bits)
  | exchangeLatch (i : ι)
  | wake (i : ι)
  | clearLatch
  | exchangeBits (bits : Bits)
  | consumePendingFocus (cls : Option α)

variable {ι α : Type} [DecidableEq ι]

/-- The place where `Post` begins. -/
def Posting.start (bit : Bits) : Option α → Posting α
  | some cls => .storing bit cls
  | none => .setting bit

/-- A producer moves on. -/
def State.moveTo (s : State ι α) (i : ι) (posting : Posting α) : State ι α :=
  { s with posting := Function.update s.posting i posting }

/-- One operation. -/
inductive Step : State ι α → Event ι α → State ι α → Prop
  | call {s : State ι α} {i : ι} (bit : Bits) (cls : Option α) (h : s.posting i = .idle) :
      Step s (.call i bit cls) (s.moveTo i (.start bit cls))
  | storeFocus {s : State ι α} {i : ι} {bit : Bits} {cls : α} (h : s.posting i = .storing bit cls) :
      Step s (.storeFocus i cls) ({ s with pendingFocus := some cls }.moveTo i (.setting bit))
  | fetchOr {s : State ι α} {i : ι} {bit : Bits} (h : s.posting i = .setting bit) :
      Step s (.fetchOr i bit) ({ s with bits := s.bits ||| bit }.moveTo i .latching)
  | exchangeLatch {s : State ι α} {i : ι} (h : s.posting i = .latching) :
      Step s (.exchangeLatch i)
        ({ s with wakePosted := true }.moveTo i (if s.wakePosted then .idle else .waking))
  | wake {s : State ι α} {i : ι} (h : s.posting i = .waking) :
      Step s (.wake i) (s.moveTo i .idle)
  | clearLatch {s : State ι α} (h : s.draining ≠ .cleared) :
      Step s .clearLatch { s with wakePosted := false, draining := .cleared }
  | exchangeBits {s : State ι α} (h : s.draining = .cleared) :
      Step s (.exchangeBits s.bits) { s with bits := 0, draining := .drained s.bits }
  | consumePendingFocus {s : State ι α} {bits : Bits} (h : s.draining = .drained bits) :
      Step s (.consumePendingFocus s.pendingFocus)
        { s with pendingFocus := none, draining := .idle }

/-- The mailbox of a new hook engine. -/
def State.initial : State ι α where
  bits := 0
  pendingFocus := none
  wakePosted := false
  posting _ := .idle
  draining := .idle

/-! ## Command bits -/

section Bits

variable {bit word word' : Bits}

theorem Within.or_left (h : Within bit word) (word' : Bits) : Within bit (word ||| word') := by
  unfold Within at h ⊢
  rw [← h]
  ext i hi
  simp only [BitVec.getElem_and, BitVec.getElem_or]
  cases bit[i] <;> cases word[i] <;> rfl

theorem within_or_right (bit word : Bits) : Within bit (word ||| bit) := by
  unfold Within
  ext i hi
  simp only [BitVec.getElem_and, BitVec.getElem_or]
  cases bit[i] <;> cases word[i] <;> rfl

end Bits

theorem within_bits_of_run {s t : State ι α} {bit : Bits} {events : List (Event ι α)}
    (h : Run Step s events t) (hbit : Within bit s.bits) :
    (∀ mask, Event.exchangeBits mask ∉ events) → Within bit t.bits := by
  induction h with
  | nil => exact fun _ => hbit
  | @snoc events s' t event _ hstep ih =>
      intro hnone
      have hbefore : Within bit s'.bits :=
        ih fun mask hmask => hnone mask (List.mem_append_left _ hmask)
      cases hstep with
      | fetchOr => exact hbefore.or_left _
      | exchangeBits => exact absurd List.mem_concat_self (hnone s'.bits)
      | call | storeFocus | exchangeLatch | wake | clearLatch | consumePendingFocus => exact hbefore

/-! ## Wake-ups -/

/-- A wake was fired after the latch was last cleared. -/
def WokenSinceClear (events : List (Event ι α)) : Prop :=
  ∃ before i after, events = before ++ .wake i :: after ∧ Event.clearLatch ∉ after

omit [DecidableEq ι] in
theorem WokenSinceClear.snoc {events : List (Event ι α)} {event : Event ι α}
    (h : WokenSinceClear events) (hevent : event ≠ .clearLatch) :
    WokenSinceClear (events ++ [event]) := by
  obtain ⟨before, i, after, rfl, hafter⟩ := h
  refine ⟨before, i, after ++ [event], by simp, ?_⟩
  rw [List.mem_append, List.mem_singleton, not_or]
  exact ⟨hafter, hevent.symm⟩

omit [DecidableEq ι] in
theorem wokenSinceClear_wake (events : List (Event ι α)) (i : ι) :
    WokenSinceClear (events ++ [.wake i]) := ⟨events, i, [], rfl, List.not_mem_nil⟩

/-- A latch that is set has a wake behind it, or a producer that is about to fire one; and bits that
are set have the latch, a producer that is about to set it, or a drain that takes them. -/
structure Wakes (events : List (Event ι α)) (s : State ι α) : Prop where
  latch : s.wakePosted = true → WokenSinceClear events ∨ ∃ i, s.posting i = .waking
  bits : s.bits ≠ 0 → s.draining = .cleared ∨ s.wakePosted = true ∨ ∃ i, s.posting i = .latching

theorem exists_posting_moveTo {s : State ι α} {i : ι} {posting place : Posting α}
    (h : ∃ j, s.posting j = place) (hi : s.posting i ≠ place) :
    ∃ j, (s.moveTo i posting).posting j = place := by
  obtain ⟨j, hj⟩ := h
  have hji : j ≠ i := by
    rintro rfl
    exact hi hj
  exact ⟨j, (Function.update_of_ne hji ..).trans hj⟩

theorem posting_moveTo (s : State ι α) (i : ι) (posting : Posting α) :
    (s.moveTo i posting).posting i = posting := Function.update_self ..

omit [DecidableEq ι] in
theorem Wakes.initial : Wakes ([] : List (Event ι α)) State.initial where
  latch h := Bool.noConfusion h
  bits h := absurd rfl h

/-- The wake behind the latch is still there after a producer that was not about to fire it has
moved. -/
theorem Wakes.latch_moveTo {events : List (Event ι α)} {s : State ι α} (h : Wakes events s)
    {event : Event ι α} (hevent : event ≠ .clearLatch) {i : ι} (hi : s.posting i ≠ .waking)
    (posting : Posting α) (hlatch : s.wakePosted = true) :
    WokenSinceClear (events ++ [event]) ∨ ∃ j, (s.moveTo i posting).posting j = .waking :=
  (h.latch hlatch).imp (fun hwoken => hwoken.snoc hevent)
    fun hwaking => exists_posting_moveTo hwaking hi

theorem Wakes.bits_moveTo {events : List (Event ι α)} {s : State ι α} (h : Wakes events s) {i : ι}
    (hi : s.posting i ≠ .latching) (posting : Posting α) (hbits : s.bits ≠ 0) :
    s.draining = .cleared ∨ s.wakePosted = true ∨ ∃ j, (s.moveTo i posting).posting j = .latching :=
  (h.bits hbits).imp_right (Or.imp_right fun hlatching => exists_posting_moveTo hlatching hi)

theorem Wakes.step {events : List (Event ι α)} {s s' : State ι α} {event : Event ι α}
    (h : Wakes events s) (hstep : Step s event s') : Wakes (events ++ [event]) s' := by
  cases hstep with
  | call bit cls hi =>
      exact ⟨h.latch_moveTo (by nofun) (by rw [hi]; nofun) _, h.bits_moveTo (by rw [hi]; nofun) _⟩
  | storeFocus hi =>
      exact ⟨h.latch_moveTo (by nofun) (by rw [hi]; nofun) _, h.bits_moveTo (by rw [hi]; nofun) _⟩
  | fetchOr hi =>
      exact ⟨h.latch_moveTo (by nofun) (by rw [hi]; nofun) _,
        fun _ => Or.inr (Or.inr ⟨_, posting_moveTo ..⟩)⟩
  | @exchangeLatch i hi =>
      constructor
      · intro _
        cases hlatch : s.wakePosted with
        | false => exact Or.inr ⟨i, posting_moveTo ..⟩
        | true => exact h.latch_moveTo (by nofun) (by rw [hi]; nofun) _ hlatch
      · exact fun _ => Or.inr (Or.inl rfl)
  | wake hi =>
      exact ⟨fun _ => Or.inl (wokenSinceClear_wake ..), h.bits_moveTo (by rw [hi]; nofun) _⟩
  | clearLatch =>
      constructor
      · exact fun hlatch => Bool.noConfusion hlatch
      · exact fun _ => Or.inl rfl
  | exchangeBits =>
      constructor
      · exact fun hlatch => (h.latch hlatch).imp_left fun hwoken => hwoken.snoc nofun
      · exact fun hbits => absurd rfl hbits
  | consumePendingFocus hdrained =>
      constructor
      · exact fun hlatch => (h.latch hlatch).imp_left fun hwoken => hwoken.snoc nofun
      · intro hbits
        refine Or.inr ((h.bits hbits).resolve_left ?_)
        rw [hdrained]
        nofun

theorem Step.within_of_fetchOr {s s' : State ι α} {i : ι} {bit : Bits}
    (h : Step s (.fetchOr i bit) s') : Within bit s'.bits := by
  cases h with
  | fetchOr => exact within_or_right bit s.bits

theorem Step.eq_of_exchangeBits {s s' : State ι α} {mask : Bits}
    (h : Step s (.exchangeBits mask) s') : mask = s.bits := by
  cases h with
  | exchangeBits => rfl

/-- No command is lost: in a run that drains again and again, a bit that is posted is returned by a
later drain.  And no wake-up is lost: between the calls, and outside of `DrainBits`, set bits have
the latch set and a wake behind it. -/
theorem no_command_lost :
    (∀ (states : Nat → State ι α) (events : Nat → Event ι α), states 0 = State.initial →
      Endless Step states events → (∀ n, ∃ m mask, n < m ∧ events m = .exchangeBits mask) →
        ∀ n i bit, events n = .fetchOr i bit →
          ∃ m mask, n < m ∧ events m = .exchangeBits mask ∧ Within bit mask) ∧
    ∀ (events : List (Event ι α)) (s : State ι α), Run Step State.initial events s →
      (∀ i, s.posting i = .idle) → s.draining ≠ .cleared → s.bits ≠ 0 →
        s.wakePosted = true ∧ WokenSinceClear events := by
  constructor
  · intro states events _ hendless hdrains n i bit hor
    -- the first drain after the post
    let Drained := fun m => n < m ∧ ∃ mask, events m = .exchangeBits mask
    have hdrained : ∃ m, Drained m := by
      obtain ⟨m, mask, hlt, hmask⟩ := hdrains n
      exact ⟨m, hlt, mask, hmask⟩
    classical
    obtain ⟨hlt, mask, hmask⟩ := Nat.find_spec hdrained
    refine ⟨Nat.find hdrained, mask, hlt, hmask, ?_⟩
    have hset : Within bit (states (n + 1)).bits := (hor ▸ hendless n).within_of_fetchOr
    obtain ⟨k, hk⟩ := Nat.exists_eq_add_of_le hlt
    have hkept : Within bit (states (n + 1 + k)).bits := by
      refine within_bits_of_run (hendless.run (n + 1) k) hset ?_
      intro mask' hmem
      obtain ⟨m, hrange, hm⟩ := List.mem_map.mp hmem
      obtain ⟨hle, hlt'⟩ := List.mem_range'_1.mp hrange
      exact Nat.find_min hdrained (hk ▸ hlt') ⟨hle, mask', hm⟩
    have htaken : mask = (states (Nat.find hdrained)).bits :=
      (hmask ▸ hendless (Nat.find hdrained)).eq_of_exchangeBits
    rw [htaken, hk]
    exact hkept
  · intro events s h hidle hdraining hbits
    have hwakes : Wakes events s := h.history Wakes.initial fun _ _ _ _ => Wakes.step
    have hnone : ∀ place, place ≠ .idle → ¬∃ i, s.posting i = place := by
      rintro place hplace ⟨i, hi⟩
      exact hplace (hi.symm.trans (hidle i))
    have hlatch : s.wakePosted = true :=
      ((hwakes.bits hbits).resolve_left hdraining).resolve_right (hnone _ (by nofun))
    exact ⟨hlatch, (hwakes.latch hlatch).resolve_right (hnone _ (by nofun))⟩

/-- The bits are set and the latch is not while `DrainBits` has only cleared the latch. -/
theorem not_wakePending_of_bits : ¬∀ (events : List (Event Unit Unit)) (s : State Unit Unit),
    Run Step State.initial events s → (∀ i, s.posting i = .idle) → s.bits ≠ 0 →
      s.wakePosted = true ∧ WokenSinceClear events := by
  intro h
  have hrun :
    Run Step (State.initial : State Unit Unit) [.call () kTickPoll none, .fetchOr () kTickPoll,
      .exchangeLatch (), .wake (), .clearLatch] _ :=
    .cons (.call kTickPoll none rfl) (.cons (.fetchOr rfl) (.cons (.exchangeLatch rfl)
      (.cons (.wake rfl) (.cons (.clearLatch (by nofun)) .nil))))
  exact Bool.noConfusion (h _ _ hrun (fun _ => rfl) (by decide)).1

/-- Two threads post, one of them a focus, while the hook is in `DrainBits`: the second one finds
the latch set. -/
theorem wakePending_of_posts : ∃ (events : List (Event Bool Unit)) (s : State Bool Unit),
    Run Step State.initial events s ∧ s.pendingFocus = some () ∧ s.wakePosted = true ∧
      WokenSinceClear events := by
  have hrun : Run Step (State.initial : State Bool Unit)
      [.clearLatch, .call false kTickPoll none, .call true kFocusChanged (some ()),
        .fetchOr false kTickPoll,
        .storeFocus true (), .exchangeBits kTickPoll, .fetchOr true kFocusChanged,
          .exchangeLatch true,
        .exchangeLatch false, .wake true] _ :=
    .cons (.clearLatch nofun)
      (.cons (.call kTickPoll none rfl) (.cons (.call kFocusChanged (some ()) rfl)
      (.cons (.fetchOr rfl)
        (.cons (.storeFocus rfl) (.cons (.exchangeBits rfl) (.cons (.fetchOr rfl)
        (.cons (.exchangeLatch rfl) (.cons (.exchangeLatch rfl) (.cons (.wake rfl) .nil)))))))))
  refine ⟨_, _, hrun, rfl, no_command_lost.2 _ _ hrun ?_ (by nofun) (by decide)⟩
  rintro (_ | _)
  · rfl
  · rfl

end HookCommandMailbox

end VKey
