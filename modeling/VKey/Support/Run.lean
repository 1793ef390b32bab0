import Mathlib.Data.List.Infix

/-!
# Runs of interleaved steps

Threads that share memory take their steps one after another, in any order.  A run is the list of
the events of the steps that have been taken.  A property that holds at the start and that every
step keeps holds after every run; it may speak about the events so far.
-/

namespace VKey

variable {State Event : Type} {step : State → Event → State → Prop} {start s t : State}

/-- The events lead from one state to another. -/
inductive Run (step : State → Event → State → Prop) (start : State) : List Event → State → Prop
  | nil : Run step start [] start
  | snoc {events : List Event} {s s' : State} {event : Event} (h : Run step start events s)
      (hstep : step s event s') : Run step start (events ++ [event]) s'

namespace Run

theorem single {event : Event} (h : step start event s) : Run step start [event] s :=
  snoc nil h

theorem append {events₁ events₂ : List Event} (h₁ : Run step start events₁ s)
    (h₂ : Run step s events₂ t) : Run step start (events₁ ++ events₂) t := by
  induction h₂ with
  | nil =>
      rw [List.append_nil]
      exact h₁
  | snoc _ hstep ih =>
      rw [← List.append_assoc]
      exact snoc ih hstep

theorem cons {event : Event} {events : List Event} (hstep : step start event s)
    (h : Run step s events t) : Run step start (event :: events) t :=
  append (single hstep) h

/-- A run may be cut anywhere. -/
theorem split {events₁ events₂ : List Event} (h : Run step start (events₁ ++ events₂) t) :
    ∃ s, Run step start events₁ s ∧ Run step s events₂ t := by
  generalize hevents : events₁ ++ events₂ = events at h
  induction h generalizing events₂ with
  | nil =>
      obtain ⟨rfl, rfl⟩ := List.append_eq_nil_iff.mp hevents
      exact ⟨start, nil, nil⟩
  | @snoc events s s' event hrun hstep ih =>
      rcases List.eq_nil_or_concat events₂ with rfl | ⟨front, last, rfl⟩
      · rw [List.append_nil] at hevents
        subst hevents
        exact ⟨s', snoc hrun hstep, nil⟩
      · rw [List.concat_eq_append, ← List.append_assoc] at hevents
        obtain ⟨rfl, hlast⟩ := List.append_inj' hevents rfl
        obtain rfl := List.singleton_inj.mp hlast
        obtain ⟨middle, hfront, hback⟩ := ih rfl
        rw [List.concat_eq_append]
        exact ⟨middle, hfront, snoc hback hstep⟩

theorem eq_of_nil (h : Run step start [] s) : s = start := by
  generalize hevents : ([] : List Event) = events at h
  cases h with
  | nil => rfl
  | snoc => exact absurd hevents.symm (List.append_ne_nil_of_right_ne_nil _ (List.cons_ne_nil _ _))

theorem step_of_singleton {event : Event} (h : Run step start [event] s) : step start event s := by
  generalize hevents : [event] = events at h
  cases h with
  | nil => exact absurd hevents (List.cons_ne_nil _ _)
  | @snoc events middle _ last hrun hstep =>
      obtain ⟨rfl, hlast⟩ :=
        List.append_inj' (show [] ++ [event] = events ++ [last] from hevents) rfl
      obtain rfl := List.singleton_inj.mp hlast
      obtain rfl := hrun.eq_of_nil
      exact hstep

theorem of_cons {event : Event} {events : List Event} (h : Run step start (event :: events) t) :
    ∃ s, step start event s ∧ Run step s events t := by
  rw [← List.singleton_append] at h
  obtain ⟨s, hfirst, hrest⟩ := h.split
  exact ⟨s, hfirst.step_of_singleton, hrest⟩

/-- What holds of the first state and is kept by every step holds of every state. -/
theorem invariant {inv : State → Prop} {events : List Event} (h : Run step start events s)
    (hstart : inv start) (hstep : ∀ s event s', inv s → step s event s' → inv s') : inv s := by
  induction h with
  | nil => exact hstart
  | snoc _ hlast ih => exact hstep _ _ _ ih hlast

/-- An invariant that speaks about the events so far. -/
theorem history {inv : List Event → State → Prop} {events : List Event}
    (h : Run step start events s) (hstart : inv [] start)
    (hstep : ∀ events s event s', inv events s → step s event s' → inv (events ++ [event]) s') :
    inv events s := by
  induction h with
  | nil => exact hstart
  | snoc _ hlast ih => exact hstep _ _ _ _ ih hlast

/-- If every step has one result, so has a run. -/
theorem eq_of_deterministic (hstep : ∀ s event t t', step s event t → step s event t' → t = t')
    {events : List Event} (h : Run step start events s) (h' : Run step start events t) : s = t := by
  induction h generalizing t with
  | nil => exact h'.eq_of_nil.symm
  | snoc _ hlast ih =>
      obtain ⟨middle, hfront, hback⟩ := h'.split
      obtain rfl := ih hfront
      exact hstep _ _ _ _ hlast hback.step_of_singleton

/-- A run with fewer steps is a run. -/
theorem mono {step' : State → Event → State → Prop} {events : List Event}
    (h : Run step start events s) (hmono : ∀ s event s', step s event s' → step' s event s') :
    Run step' start events s := by
  induction h with
  | nil => exact nil
  | snoc _ hlast ih => exact snoc ih (hmono _ _ _ hlast)

end Run

/-- A run that never ends. -/
def Endless (step : State → Event → State → Prop) (states : Nat → State)
    (events : Nat → Event) : Prop :=
  ∀ n, step (states n) (events n) (states (n + 1))

/-- The part of an endless run from one state to a later one. -/
theorem Endless.run {states : Nat → State} {events : Nat → Event} (h : Endless step states events)
    (n k : Nat) : Run step (states n) ((List.range' n k).map events) (states (n + k)) := by
  induction k with
  | zero => exact Run.nil
  | succ k ih =>
      rw [List.range'_concat, List.map_append, Nat.one_mul]
      exact Run.snoc ih (h (n + k))

/-- The steps that meet a condition on the state before them. -/
def Meeting (condition : State → Event → Prop) (step : State → Event → State → Prop) :
    State → Event → State → Prop :=
  fun s event s' => condition s event ∧ step s event s'

/-! ## Steps with one result -/

section EachStep

variable {next : State → Event → State} {P Q : State → Event → Prop}

/-- Every step of a run has a property, which speaks about the event and about the state before
it. -/
def EachStep (next : State → Event → State) (P : State → Event → Prop) : State → List Event → Prop
  | _, [] => True
  | s, event :: events => P s event ∧ EachStep next P (next s event) events

/-- Two properties that mean the same in the states that have an invariant, if one of them keeps
it. -/
theorem eachStep_iff (inv : State → Prop) {s : State}
    (hiff : ∀ s event, inv s → (P s event ↔ Q s event))
    (hstep : ∀ s event, inv s → Q s event → inv (next s event)) (hinv : inv s)
    (events : List Event) :
    EachStep next P s events ↔ EachStep next Q s events := by
  induction events generalizing s with
  | nil => exact Iff.rfl
  | cons event events ih =>
      rw [EachStep, EachStep, hiff s event hinv]
      exact and_congr_right fun hq => ih (hstep s event hinv hq)

/-- What a property gives in the states that have an invariant, if it keeps the invariant. -/
theorem EachStep.imp (inv : State → Prop) {s : State}
    (himp : ∀ s event, inv s → P s event → Q s event)
    (hstep : ∀ s event, inv s → P s event → inv (next s event)) (hinv : inv s) {events : List Event}
    (h : EachStep next P s events) : EachStep next Q s events := by
  induction events generalizing s with
  | nil => trivial
  | cons event events ih => exact ⟨himp s event hinv h.1, ih (hstep s event hinv h.1) h.2⟩

end EachStep

end VKey
