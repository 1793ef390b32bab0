import Mathlib.Data.List.Range
import VKey.Hook.PendingKeys
import VKey.Support.Run

/-!
# The input queue

Physical events and the events that the hook sends stand in one queue, in the order in which they
came, and the hook is shown one after another.  What it passes reaches the application.  Every
synthetic event has a number, and every delivery remembers how many events had been sent before it.
-/

namespace VKey

namespace HookEngine

/-- A key that types, with no modifier but Shift, in a window of the plain injector. -/
structure KeyDown.Types (key : KeyDown) : Prop where
  kind : isAlphaVk key.vkCode = true ∨ isDigitVk key.vkCode = true ∨
    isOemPunctVk key.vkCode = true ∨
    key.vkCode = vkSpace ∨ key.vkCode = vkReturn ∨ (vkLeft ≤ key.vkCode ∧ key.vkCode ≤ vkDown) ∨
    key.vkCode = vkBack
  shortcut : key.shortcut = false
  lockstep : key.lockstep = false
  syncChannel : key.syncChannel = false

theorem KeyDown.Types.not_guarded {key : KeyDown} (h : key.Types) :
    isTopGuarded key.vkCode = false ∧ key.vkCode ≠ vkEscape := by
  have hkind := h.kind
  simp only [isAlphaVk, isDigitVk, isOemPunctVk, vkOem1, vkOem3, vkOem4,
    vkOem8, vkOemPlus, vkOemComma,
    vkOemMinus, vkOemPeriod, vkSpace, vkReturn, vkLeft, vkDown, vkBack, Bool.or_eq_true,
    decide_eq_true_eq, beq_iff_eq] at hkind
  simp only [isTopGuarded, vkEscape, Bool.or_eq_false_iff, decide_eq_false_iff_not,
    beq_eq_false_iff_ne]
  omega

namespace InputQueue

/-! ## Events -/

/-- An event of the queue. -/
inductive InputEvent where
  | keyDown (key : KeyDown)
  | keyUp (vkCode : Nat)
  | synthetic (number : Nat)

/-- An event that has reached the application, and the events that the hook had sent before it was
shown this one. -/
structure Delivery where
  event : InputEvent
  sentBefore : Nat

/-- The events that have been sent from one number to another. -/
def synthetics (first last : Nat) : List InputEvent :=
  (List.range' first (last - first)).map .synthetic

/-- The number of a synthetic event. -/
def InputEvent.number : InputEvent → Option Nat
  | .synthetic number => some number
  | .keyDown _ => none
  | .keyUp _ => none

/-- The numbers of some events, in their order. -/
def numbers (events : List InputEvent) : List Nat := events.filterMap InputEvent.number

@[simp] theorem numbers_nil : numbers [] = [] := rfl

@[simp] theorem numbers_append (front back : List InputEvent) :
    numbers (front ++ back) = numbers front ++ numbers back :=
  List.filterMap_append

@[simp] theorem numbers_synthetic (number : Nat) (events : List InputEvent) :
    numbers (.synthetic number :: events) = number :: numbers events := rfl

@[simp] theorem numbers_keyDown (key : KeyDown) (events : List InputEvent) :
    numbers (.keyDown key :: events) = numbers events := rfl

@[simp] theorem numbers_synthetics (first last : Nat) :
    numbers (synthetics first last) = List.range' first (last - first) := by
  have hsome : InputEvent.number ∘ InputEvent.synthetic = some := rfl
  rw [numbers, synthetics, List.filterMap_map, hsome, List.filterMap_some]

theorem mem_numbers {events : List InputEvent} {number : Nat} :
    number ∈ numbers events ↔ .synthetic number ∈ events := by
  constructor
  · intro h
    obtain ⟨event, hmem, hnumber⟩ := List.mem_filterMap.mp h
    cases event with
    | synthetic n =>
        obtain rfl := Option.some.inj hnumber
        exact hmem
    | keyDown => cases hnumber
    | keyUp => cases hnumber
  · exact fun h => List.mem_filterMap.mpr ⟨_, h, rfl⟩

/-! ## The order of deliveries -/

/-- A key has reached the application only behind everything that was sent before it was shown to
the hook. -/
def InOrder (delivered : List Delivery) : Prop :=
  ∀ front key sentBefore back, delivered = front ++ ⟨.keyDown key, sentBefore⟩ :: back →
    ∀ number < sentBefore, .synthetic number ∈ front.map Delivery.event

theorem inOrder_nil : InOrder [] := by
  intro front key sentBefore back h
  exact absurd h.symm (List.append_ne_nil_of_right_ne_nil _ (List.cons_ne_nil _ _))

theorem inOrder_concat {delivered : List Delivery} {last : Delivery} :
    InOrder (delivered ++ [last]) ↔ InOrder delivered ∧
      ∀ key, last.event = .keyDown key →
        ∀ number < last.sentBefore, .synthetic number ∈ delivered.map Delivery.event := by
  constructor
  · intro h
    constructor
    · intro front key sentBefore back heq
      exact h front key sentBefore (back ++ [last]) (by rw [heq, List.append_assoc]; rfl)
    · intro key hkey
      exact h delivered key last.sentBefore [] (by rw [← hkey])
  · rintro ⟨h, hlast⟩ front key sentBefore back heq
    rcases List.eq_nil_or_concat back with rfl | ⟨back, other, rfl⟩
    · obtain ⟨rfl, hsame⟩ := List.append_inj' heq rfl
      obtain rfl := List.singleton_inj.mp hsame
      exact hlast key rfl
    · rw [List.concat_eq_append, ← List.cons_append, ← List.append_assoc] at heq
      exact h front key sentBefore back (List.append_inj' heq rfl).1

/-! ## The queue -/

/-- The hook behind the queue, and what has reached the application. -/
structure State (E : Type) where
  hook : SynthState E
  queue : List InputEvent := []
  delivered : List Delivery := []

/-- What happens to the queue. -/
inductive QueueEvent where
  /-- A key goes down, or comes up again. -/
  | arrive (event : InputEvent)
  /-- The hook is shown the first event of the queue. -/
  | present

variable {E : Type} [InputEngine E] [WideCType] [AsciiCType] (config : DispatchConfig)

namespace State

/-- The hook passes the event. -/
def deliver (event : InputEvent) (sentBefore : Nat) (s : State E) : State E :=
  { s with delivered := s.delivered ++ [⟨event, sentBefore⟩] }

/-- The hook is shown an event that it has taken from the queue. -/
def present (event : InputEvent) (s : State E) : State E :=
  let sentBefore := s.hook.sent
  match event with
  | .synthetic _ =>
      deliver event sentBefore { s with hook :=
        { s.hook with synthEventsPending := s.hook.synthEventsPending - 1 } }
  | .keyUp _ => s.deliver event sentBefore
  | .keyDown key =>
      let (hook, outcome) := s.hook.processKeyDown config key
      let s := { s with hook, queue := s.queue ++ synthetics sentBefore hook.sent }
      if outcome = .eat then s else s.deliver event sentBefore

end State

/-- What happens to the queue.  An empty queue has nothing to show. -/
def State.next (s : State E) : QueueEvent → State E
  | .arrive event => { s with queue := s.queue ++ [event] }
  | .present =>
      match s.queue with
      | [] => s
      | event :: rest => { s with queue := rest }.present config event

/-- The keys that arrive are keys that type. -/
def QueueEvent.Allowed : QueueEvent → Prop
  | .arrive (.keyDown key) => key.Types
  | .arrive (.keyUp _) => True
  | .arrive (.synthetic _) => False
  | .present => True

/-- A step of the queue. -/
def Step (s : State E) (e : QueueEvent) (s' : State E) : Prop := e.Allowed ∧ s' = s.next config e

/-- A hook that has sent nothing yet. -/
structure Start (s : State E) : Prop where
  pending : s.hook.synthEventsPending = 0
  sent : s.hook.sent = 0
  queue : s.queue = []
  delivered : s.delivered = []

/-- While something is pending, a key that slips through stands at the head of the queue. -/
def State.overtakes (s : State E) : Bool :=
  match s.queue with
  | .keyDown key :: _ => decide (0 < s.hook.synthEventsPending) && s.hook.slips config key
  | _ => false

/-- The hook is shown no key that overtakes what is pending. -/
def Waits (s : State E) (e : QueueEvent) : Prop := e = .present → s.overtakes config = false

/-! ## The invariant -/

namespace State

/-- The events that have reached the application. -/
def reached (s : State E) : List InputEvent := s.delivered.map Delivery.event

omit [InputEngine E] [WideCType] [AsciiCType] in
@[simp] theorem reached_deliver (event : InputEvent) (sentBefore : Nat) (s : State E) :
    (s.deliver event sentBefore).reached = s.reached ++ [event] := by
  simp [reached, deliver]

/-- The synthetic events have been delivered or stand in the queue, in the order of their numbers;
the counter counts those in the queue; and the keys of the queue are keys that type. -/
structure Accounted (s : State E) : Prop where
  numbered : numbers (s.reached ++ s.queue) = List.range s.hook.sent
  pending : s.hook.synthEventsPending = (numbers s.queue).length
  types : ∀ key, .keyDown key ∈ s.queue → key.Types

variable {config} {s s' : State E} {event : InputEvent} {rest : List InputEvent}

omit [InputEngine E] [WideCType] [AsciiCType] in
theorem Accounted.of_start (h : Start s) : s.Accounted where
  numbered := by rw [reached, h.delivered, h.queue, h.sent]; rfl
  pending := by rw [h.pending, h.queue]; rfl
  types key hkey := by
    rw [h.queue] at hkey
    cases hkey

omit [InputEngine E] [WideCType] [AsciiCType] in
theorem Accounted.arrive (h : s.Accounted) (hallowed : (QueueEvent.arrive event).Allowed) :
    Accounted { s with queue := s.queue ++ [event] } := by
  have hnone : numbers [event] = [] := by
    cases event with
    | synthetic => exact hallowed.elim
    | keyDown => rfl
    | keyUp => rfl
  constructor
  · change numbers (s.reached ++ (s.queue ++ [event])) = _
    rw [← List.append_assoc, numbers_append, hnone, List.append_nil, h.numbered]
  · change _ = (numbers (s.queue ++ [event])).length
    rw [numbers_append, hnone, List.append_nil, h.pending]
  · intro key hkey
    rcases List.mem_append.mp hkey with hkey | hkey
    · exact h.types key hkey
    · obtain rfl := List.mem_singleton.mp hkey
      exact hallowed

/-- An event that goes from the queue to the application keeps its place. -/
theorem Accounted.present (h : s.Accounted) (hqueue : s.queue = event :: rest) :
    (State.present config event { s with queue := rest }).Accounted := by
  have hnumbered := h.numbered
  have hpending := h.pending
  have htypes : ∀ key, .keyDown key ∈ rest → key.Types := fun key hkey =>
    h.types key (hqueue ▸ List.mem_cons_of_mem _ hkey)
  rw [hqueue] at hnumbered hpending
  cases event with
  | synthetic number =>
      refine ⟨?_, ?_, htypes⟩
      · simpa [State.present, deliver, reached] using hnumbered
      · rw [numbers_synthetic, List.length_cons] at hpending
        change s.hook.synthEventsPending - 1 = (numbers rest).length
        omega
  | keyUp vkCode =>
      refine ⟨?_, hpending, htypes⟩
      simpa [State.present, deliver, reached] using hnumbered
  | keyDown key =>
      have hkey : key.Types := h.types key (hqueue ▸ List.mem_cons_self)
      have hcounted : s.hook.Counted (s.hook.processKeyDown config key).1 :=
        SynthState.Counted.processKeyDown hkey.not_guarded.2 hkey.shortcut
      obtain ⟨n, hn, hsent⟩ := hcounted
      have hrange : (s.hook.processKeyDown config key).1.sent - s.hook.sent = n := by omega
      have hqueued :
        numbers (rest ++ synthetics s.hook.sent (s.hook.processKeyDown config key).1.sent) =
          numbers rest ++ List.range' s.hook.sent n := by
        rw [numbers_append, numbers_synthetics, hrange]
      have hall : numbers s.reached ++ (numbers rest ++ List.range' s.hook.sent n) =
          List.range (s.hook.processKeyDown config key).1.sent := by
        rw [numbers_append, numbers_keyDown] at hnumbered
        rw [← List.append_assoc, hnumbered, hsent, List.range_eq_range', List.range_eq_range',
          ← List.range'_append_1, Nat.zero_add]
      have hcounter : (s.hook.processKeyDown config key).1.synthEventsPending =
          (numbers rest ++ List.range' s.hook.sent n).length := by
        rw [List.length_append, List.length_range', hn, hpending, numbers_keyDown]
      have hqueue' : ∀ other,
          .keyDown other ∈ rest ++ synthetics s.hook.sent
            (s.hook.processKeyDown config key).1.sent →
            other.Types := by
        intro other hother
        rcases List.mem_append.mp hother with hother | hother
        · exact htypes other hother
        · obtain ⟨number, -, heq⟩ := List.mem_map.mp hother
          cases heq
      unfold State.present
      dsimp only
      split_ifs
      · constructor
        · change numbers (s.reached ++ (rest ++ synthetics _ _)) = _
          rw [numbers_append, hqueued, hall]
        · change _ = (numbers (rest ++ synthetics _ _)).length
          rw [hqueued, ← hcounter]
        · exact hqueue'
      · constructor
        · rw [numbers_append, reached_deliver, numbers_append, numbers_keyDown, numbers_nil,
            List.append_nil]
          change numbers s.reached ++ numbers (rest ++ synthetics _ _) = _
          rw [hqueued, hall]
          rfl
        · change _ = (numbers (rest ++ synthetics _ _)).length
          rw [hqueued, ← hcounter]
          rfl
        · exact hqueue'

theorem Accounted.step (h : s.Accounted) {e : QueueEvent} (hstep : Step config s e s') :
    s'.Accounted := by
  obtain ⟨hallowed, rfl⟩ := hstep
  cases e with
  | arrive event => exact h.arrive hallowed
  | present =>
      unfold State.next
      cases hqueue : s.queue with
      | nil => exact h
      | cons event rest => exact h.present hqueue

omit [InputEngine E] [WideCType] [AsciiCType] in
/-- Everything that has been sent has reached the application exactly if nothing is pending. -/
theorem Accounted.reached_iff (h : s.Accounted) :
    (∀ number < s.hook.sent, .synthetic number ∈ s.reached) ↔ s.hook.synthEventsPending = 0 := by
  have hnumbered := h.numbered
  rw [numbers_append] at hnumbered
  rw [h.pending, List.length_eq_zero_iff]
  constructor
  · intro hall
    rw [List.eq_nil_iff_forall_not_mem]
    intro number hnumber
    have hlt : number < s.hook.sent := by
      rw [← List.mem_range, ← hnumbered]
      exact List.mem_append_right _ hnumber
    have hnodup : (numbers s.reached ++ numbers s.queue).Nodup := hnumbered ▸ List.nodup_range
    exact List.disjoint_of_nodup_append hnodup (mem_numbers.mpr (hall number hlt)) hnumber
  · intro hnil number hlt
    rw [hnil, List.append_nil] at hnumbered
    rw [← mem_numbers, hnumbered]
    exact List.mem_range.mpr hlt

end State

/-! ## Runs -/

variable {config} {start s s' : State E} {events : List QueueEvent} {e : QueueEvent}

/-- A key that goes down reaches the application in order exactly if it does not overtake
anything. -/
theorem inOrder_keyDown {key : KeyDown} {rest : List InputEvent} (h : s.Accounted)
    (hqueue : s.queue = .keyDown key :: rest) :
    InOrder (State.present config (.keyDown key) { s with queue := rest }).delivered ↔
      InOrder s.delivered ∧ s.overtakes config = false := by
  have hkey : key.Types := h.types key (hqueue ▸ List.mem_cons_self)
  have hovertakes : s.overtakes config =
      (decide (0 < s.hook.synthEventsPending) && s.hook.slips config key) := by
    rw [State.overtakes, hqueue]
  have hpasses : 0 < s.hook.synthEventsPending →
      ((s.hook.processKeyDown config key).2 ≠ .eat ↔ s.hook.slips config key = true) :=
    SynthState.processKeyDown_ne_eat_iff hkey.not_guarded.1 hkey.not_guarded.2 hkey.shortcut
  rw [hovertakes, Bool.and_eq_false_imp, decide_eq_true_eq]
  by_cases heat : (s.hook.processKeyDown config key).2 = .eat
  · have hdelivered : (State.present config (.keyDown key) { s with queue := rest }).delivered =
        s.delivered := by
      simp [State.present, heat]
    rw [hdelivered]
    refine (and_iff_left fun hpending => ?_).symm
    exact Bool.eq_false_iff.mpr fun hslips => (hpasses hpending).mpr hslips heat
  · have hdelivered : (State.present config (.keyDown key) { s with queue := rest }).delivered =
        s.delivered ++ [⟨.keyDown key, s.hook.sent⟩] := by
      simp [State.present, State.deliver, heat]
    rw [hdelivered, inOrder_concat]
    refine and_congr_right fun _ => ?_
    constructor
    · intro hall hpending
      exact absurd (h.reached_iff.mp (hall key rfl)) hpending.ne'
    · intro hslips other _
      refine h.reached_iff.mpr (Nat.eq_zero_of_not_pos fun hpending => ?_)
      exact absurd ((hpasses hpending).mp heat) (by simp [hslips hpending])

/-- A step keeps the order exactly if the hook is shown no key that overtakes what is pending. -/
theorem inOrder_step (h : s.Accounted) (hstep : Step config s e s') :
    InOrder s'.delivered ↔ InOrder s.delivered ∧ Waits config s e := by
  obtain ⟨-, rfl⟩ := hstep
  cases e with
  | arrive event => exact (and_iff_left nofun).symm
  | present =>
      have hwaits : Waits config s .present ↔ s.overtakes config = false := forall_prop_of_true rfl
      rw [hwaits]
      unfold State.next
      cases hqueue : s.queue with
      | nil => exact (and_iff_left (by rw [State.overtakes, hqueue])).symm
      | cons event rest =>
          cases event with
          | keyDown key => exact inOrder_keyDown h hqueue
          | synthetic number =>
              have hovertakes : s.overtakes config = false := by rw [State.overtakes, hqueue]
              change InOrder (s.delivered ++ [_]) ↔ _
              rw [inOrder_concat, and_iff_left hovertakes]
              exact and_iff_left fun key hkey => by cases hkey
          | keyUp vkCode =>
              have hovertakes : s.overtakes config = false := by rw [State.overtakes, hqueue]
              change InOrder (s.delivered ++ [_]) ↔ _
              rw [inOrder_concat, and_iff_left hovertakes]
              exact and_iff_left fun key hkey => by cases hkey

theorem Step.unique {s'' : State E} (h : Step config s e s') (h' : Step config s e s'') :
    s' = s'' :=
  h.2.trans h'.2.symm

/-- The keys of a run are in order exactly if no key that slips through comes before the pending
events. -/
theorem inOrder_iff_waits (hstart : Start start) (h : Run (Step config) start events s) :
    InOrder s.delivered ↔ Run (Meeting (Waits config) (Step config)) start events s := by
  induction h with
  | nil =>
      rw [hstart.delivered]
      exact iff_of_true inOrder_nil .nil
  | @snoc events s s' e hrun hstep ih =>
      have haccounted : s.Accounted :=
        hrun.invariant (State.Accounted.of_start hstart) fun _ _ _ hbefore => hbefore.step
      rw [inOrder_step haccounted hstep, ih]
      constructor
      · exact fun ⟨hfront, hwaits⟩ => hfront.snoc ⟨hwaits, hstep⟩
      · intro hall
        obtain ⟨t, hfront, hback⟩ := hall.split
        have hsame : Run (Step config) start events t :=
          hfront.mono fun _ _ _ hmeeting => hmeeting.2
        have hunique : ∀ (s : State E) e t t', Step config s e t → Step config s e t' → t = t' :=
          fun _ _ _ _ => Step.unique
        obtain rfl := Run.eq_of_deterministic hunique hrun hsame
        exact ⟨hfront, hback.step_of_singleton.1⟩

theorem run_foldl (events : List QueueEvent) (hallowed : ∀ e ∈ events, e.Allowed)
    (start : State E) :
    Run (Step config) start events (events.foldl (State.next config) start) := by
  induction events generalizing start with
  | nil => exact .nil
  | cons e events ih =>
      have hrest := ih (fun e he => hallowed e (List.mem_cons_of_mem _ he)) (start.next config e)
      exact .cons ⟨hallowed e List.mem_cons_self, rfl⟩ hrest

end InputQueue

/-! ## A burst of keys -/

namespace InputQueue

/-- A queue in front of a hook that has seen no key yet. -/
def State.initial : State TypingEngine where
  hook := { hook := { engine := TypingEngine.new {} } }

/-- `a`, `s` and two spaces go down before the hook is shown any of them, and it is shown the
letters and the first space. -/
def burst : List QueueEvent :=
  [.arrive (.keyDown { vkCode := 0x41, macroChar := L 'a' }),
    .arrive (.keyDown { vkCode := 0x53, macroChar := L 's' }),
    .arrive (.keyDown { vkCode := vkSpace, macroChar := L ' ' }),
    .arrive (.keyDown { vkCode := vkSpace, macroChar := L ' ' }),
    .present, .present, .present]

theorem allowed_of_mem_burst : ∀ e ∈ burst, e.Allowed := by
  intro e he
  simp only [burst, List.mem_cons, List.not_mem_nil, or_false] at he
  rcases he with rfl | rfl | rfl | rfl | rfl | rfl | rfl
  · exact ⟨Or.inl (by decide), rfl, rfl, rfl⟩
  · exact ⟨Or.inl (by decide), rfl, rfl, rfl⟩
  · exact ⟨by decide, rfl, rfl, rfl⟩
  · exact ⟨by decide, rfl, rfl, rfl⟩
  · trivial
  · trivial
  · trivial

theorem not_inOrder_burst :
    ¬InOrder (State.next {} (burst.foldl (State.next {}) State.initial) .present).delivered := by
  intro horder
  have hrun : Run (Step {}) State.initial burst (burst.foldl (State.next {}) State.initial) :=
    run_foldl burst allowed_of_mem_burst State.initial
  have haccounted := hrun.invariant (State.Accounted.of_start ⟨rfl, rfl, rfl, rfl⟩)
    fun _ _ _ hbefore => hbefore.step
  have hstep : Step {} (burst.foldl (State.next {}) State.initial) .present _ := ⟨trivial, rfl⟩
  exact absurd (((inOrder_step haccounted hstep).mp horder).2 rfl) (by decide +kernel)

/-- The letters and the first space are in order, and the second space does not wait. -/
theorem inOrder_iff_waits_burst : InOrder (burst.foldl (State.next {}) State.initial).delivered ∧
    ¬Run (Meeting (Waits {}) (Step {})) State.initial (burst ++ [.present])
      (State.next {} (burst.foldl (State.next {}) State.initial) .present) := by
  have hrun : Run (Step {}) State.initial burst (burst.foldl (State.next {}) State.initial) :=
    run_foldl burst allowed_of_mem_burst State.initial
  have hstep : Step {} (burst.foldl (State.next {}) State.initial) .present _ := ⟨trivial, rfl⟩
  have hwaits : Run (Meeting (Waits {}) (Step {})) State.initial burst
      (burst.foldl (State.next {}) State.initial) := by
    have hallowed := allowed_of_mem_burst
    simp only [burst, List.forall_mem_cons] at hallowed
    obtain ⟨hletter, htone, hspace, hsecond, -⟩ := hallowed
    exact .cons ⟨nofun, hletter, rfl⟩ (.cons ⟨nofun, htone, rfl⟩ (.cons ⟨nofun, hspace, rfl⟩
      (.cons ⟨nofun, hsecond, rfl⟩ (.cons ⟨fun _ => by decide +kernel, trivial, rfl⟩
        (.cons ⟨fun _ => by decide +kernel, trivial, rfl⟩
          (.cons ⟨fun _ => by decide +kernel, trivial, rfl⟩ .nil))))))
  exact ⟨(inOrder_iff_waits ⟨rfl, rfl, rfl, rfl⟩ hrun).mpr hwaits, fun hovertakes =>
    not_inOrder_burst ((inOrder_iff_waits ⟨rfl, rfl, rfl, rfl⟩ (hrun.snoc hstep)).mpr hovertakes)⟩

/-- The second space overtakes the letter that `s` has sent. -/
theorem not_inOrder : ¬∀ (config : DispatchConfig) (start s : State TypingEngine)
    (events : List QueueEvent), Start start → Run (Step config) start events s →
      InOrder s.delivered := by
  intro h
  have hrun : Run (Step {}) State.initial burst (burst.foldl (State.next {}) State.initial) :=
    run_foldl burst allowed_of_mem_burst State.initial
  have hstep : Step {} (burst.foldl (State.next {}) State.initial) .present _ := ⟨trivial, rfl⟩
  exact not_inOrder_burst (h {} State.initial _ _ ⟨rfl, rfl, rfl, rfl⟩ (hrun.snoc hstep))

end InputQueue

end HookEngine

end VKey
