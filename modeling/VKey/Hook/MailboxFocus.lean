import VKey.Hook.Mailbox

/-!
# The focus snapshots of the mailbox

The snapshot is stored before its bit is set, and the hook thread takes the bits before the
snapshot. A post between these two steps of the hook thread loses its snapshot to the drain of an
earlier post; its own drain then finds the slot empty.
-/

namespace VKey

namespace HookCommandMailbox

variable {ι α : Type}

/-- The steps of producers that post the focus bit with a snapshot, and of a hook thread that takes
the snapshot when it has taken the focus bit. -/
def DrainsHookCommands (s : State ι α) : Event ι α → Prop
  | .call _ bit cls => Within kFocusChanged bit ↔ cls.isSome = true
  | .consumePendingFocus _ => ∃ bits, s.draining = .drained bits ∧ Within kFocusChanged bits
  | .clearLatch => ∀ bits, s.draining = .drained bits → ¬Within kFocusChanged bits
  | _ => True

/-- No producer has its focus bit in the word, or is about to set it. -/
def FocusPostsDrained (s : State ι α) : Prop :=
  ¬Within kFocusChanged s.bits ∧
    ∀ i bit, s.posting i = .setting bit → ¬Within kFocusChanged bit

/-- The hook thread takes the snapshot only when no later post has come. -/
def ConsumesInTime (s : State ι α) : Event ι α → Prop
  | .consumePendingFocus _ => FocusPostsDrained s
  | _ => True

/-! ## The focus bit -/

theorem within_focus_iff (word : Bits) : Within kFocusChanged word ↔ word.getLsbD 0 = true := by
  unfold Within kFocusChanged
  constructor
  · intro h
    have hzero := congrArg (fun w : Bits => w.getLsbD 0) h
    simpa using hzero
  · intro h
    ext i hi
    cases i with
    | zero => simpa using h
    | succ i => simp

theorem within_focus_or (word word' : Bits) : Within kFocusChanged (word ||| word') ↔
    Within kFocusChanged word ∨ Within kFocusChanged word' := by
  simp only [within_focus_iff, BitVec.getLsbD_or, Bool.or_eq_true]

theorem not_within_focus_zero : ¬Within kFocusChanged 0 := by
  rw [within_focus_iff]
  decide

/-! ## Every observed bit has a snapshot -/

/-- The focus bit is in the word, about to be set, or taken and not yet served. -/
def FocusDue (s : State ι α) : Prop :=
  Within kFocusChanged s.bits ∨ (∃ i bit, s.posting i = .setting bit ∧ Within kFocusChanged bit) ∨
    ∃ bits, s.draining = .drained bits ∧ Within kFocusChanged bits

/-- A snapshot that is being stored has the focus bit, and a snapshot in the slot is due. -/
structure Served (s : State ι α) : Prop where
  storing : ∀ i bit cls, s.posting i = .storing bit cls → Within kFocusChanged bit
  due : s.pendingFocus ≠ none → FocusDue s

variable [DecidableEq ι]

theorem posting_moveTo_eq {s : State ι α} {i j : ι} {posting place : Posting α}
    (h : (s.moveTo i posting).posting j = place) : posting = place ∨ s.posting j = place := by
  by_cases hj : j = i
  · subst hj
    rw [posting_moveTo] at h
    exact Or.inl h
  · exact Or.inr ((Function.update_of_ne hj ..).symm.trans h)

theorem FocusDue.moveTo {s : State ι α} (h : FocusDue s) {i : ι}
    (hi : ∀ bit, s.posting i = .setting bit → ¬Within kFocusChanged bit) (posting : Posting α) :
    FocusDue (s.moveTo i posting) := by
  refine h.imp_right (Or.imp_left ?_)
  rintro ⟨j, bit, hj, hbit⟩
  obtain ⟨k, hk⟩ := exists_posting_moveTo ⟨j, hj⟩ fun heq => hi bit heq hbit
  exact ⟨k, bit, hk, hbit⟩

theorem FocusDue.of_moveTo {s : State ι α} {i : ι} {posting : Posting α}
    (h : FocusDue (s.moveTo i posting))
    (hposting : ∀ bit, posting = .setting bit → ¬Within kFocusChanged bit) : FocusDue s := by
  refine h.imp_right (Or.imp_left ?_)
  rintro ⟨j, bit, hj, hbit⟩
  rcases posting_moveTo_eq hj with hsetting | hj
  · exact absurd hbit (hposting bit hsetting)
  · exact ⟨j, bit, hj, hbit⟩

theorem storing_moveTo {s : State ι α} {i : ι} {posting : Posting α}
    (h : ∀ j bit cls, s.posting j = .storing bit cls → Within kFocusChanged bit)
    (hposting : ∀ bit cls, posting = .storing bit cls → Within kFocusChanged bit)
    (j : ι) (bit : Bits) (cls : α) (hj : (s.moveTo i posting).posting j = .storing bit cls) :
    Within kFocusChanged bit := by
  rcases posting_moveTo_eq hj with hstoring | hj
  · exact hposting bit cls hstoring
  · exact h j bit cls hj

theorem start_of_isSome {bit : Bits} {cls : Option α}
    (h : Within kFocusChanged bit ↔ cls.isSome = true) :
    (∀ bit' cls', Posting.start bit cls = .storing bit' cls' → Within kFocusChanged bit') ∧
      ∀ bit', Posting.start bit cls = .setting bit' → ¬Within kFocusChanged bit' := by
  cases cls with
  | none =>
      refine ⟨nofun, ?_⟩
      rintro bit' ⟨⟩
      exact fun hbit => Bool.noConfusion (h.mp hbit)
  | some cls =>
      refine ⟨?_, nofun⟩
      rintro bit' cls' ⟨⟩
      exact h.mpr rfl

theorem Served.step {s s' : State ι α} {event : Event ι α} (h : Served s)
    (hconforms : DrainsHookCommands s event) (hstep : Step s event s') : Served s' := by
  cases hstep with
  | call bit cls hi =>
      exact ⟨storing_moveTo h.storing (start_of_isSome hconforms).1,
        fun hsome => (h.due hsome).moveTo (by rw [hi]; nofun) _⟩
  | @storeFocus i bit cls hi =>
      exact ⟨storing_moveTo h.storing nofun,
        fun _ => Or.inr (Or.inl ⟨i, bit, posting_moveTo .., h.storing i bit cls hi⟩)⟩
  | @fetchOr i bit hi =>
      refine ⟨storing_moveTo h.storing nofun, fun hsome => ?_⟩
      by_cases hbit : Within kFocusChanged bit
      · exact Or.inl ((within_focus_or ..).mpr (Or.inr hbit))
      · have hother : ∀ bit', s.posting i = .setting bit' → ¬Within kFocusChanged bit' := by
          rw [hi]
          rintro _ ⟨⟩
          exact hbit
        exact ((h.due hsome).moveTo hother .latching).imp_left
          fun hword => (within_focus_or ..).mpr (Or.inl hword)
  | exchangeLatch hi =>
      exact ⟨storing_moveTo h.storing (by split_ifs <;> nofun),
        fun hsome => (h.due hsome).moveTo (by rw [hi]; nofun) _⟩
  | wake hi =>
      exact ⟨storing_moveTo h.storing nofun,
        fun hsome => (h.due hsome).moveTo (by rw [hi]; nofun) _⟩
  | clearLatch =>
      refine ⟨h.storing, fun hsome => ?_⟩
      rcases h.due hsome with hword | hsetting | ⟨bits, hdrained, hbits⟩
      · exact Or.inl hword
      · exact Or.inr (Or.inl hsetting)
      · exact absurd hbits (hconforms bits hdrained)
  | exchangeBits hcleared =>
      refine ⟨h.storing, fun hsome => ?_⟩
      rcases h.due hsome with hword | hsetting | ⟨bits, hdrained, hbits⟩
      · exact Or.inr (Or.inr ⟨_, rfl, hword⟩)
      · exact Or.inr (Or.inl hsetting)
      · rw [hcleared] at hdrained
        cases hdrained
  | consumePendingFocus => exact ⟨h.storing, fun hsome => absurd rfl hsome⟩

/-- While the slot is empty no focus bit is due. -/
def Stocked (s : State ι α) : Prop := s.pendingFocus = none → ¬FocusDue s

theorem Stocked.step {s s' : State ι α} {event : Event ι α} (h : Stocked s)
    (hconforms : DrainsHookCommands s event) (htime : ConsumesInTime s event)
    (hstep : Step s event s') : Stocked s' := by
  cases hstep with
  | call bit cls =>
      exact fun hnone hdue => h hnone (hdue.of_moveTo (start_of_isSome hconforms).2)
  | storeFocus => exact fun hnone => absurd hnone (Option.some_ne_none _)
  | @fetchOr i bit hi =>
      intro hnone hdue
      have hdue' : FocusDue { s with bits := s.bits ||| bit } := hdue.of_moveTo nofun
      apply h hnone
      rcases hdue' with hword | hrest
      · rcases (within_focus_or ..).mp hword with hword | hbit
        · exact Or.inl hword
        · exact Or.inr (Or.inl ⟨i, bit, hi, hbit⟩)
      · exact Or.inr hrest
  | exchangeLatch =>
      exact fun hnone hdue => h hnone (hdue.of_moveTo (by split_ifs <;> nofun))
  | wake => exact fun hnone hdue => h hnone (hdue.of_moveTo nofun)
  | clearLatch =>
      intro hnone hdue
      apply h hnone
      rcases hdue with hword | hsetting | ⟨bits, hcleared, -⟩
      · exact Or.inl hword
      · exact Or.inr (Or.inl hsetting)
      · cases hcleared
  | exchangeBits =>
      intro hnone hdue
      apply h hnone
      rcases hdue with hzero | hsetting | ⟨bits, hdrained, hbits⟩
      · exact absurd hzero not_within_focus_zero
      · exact Or.inr (Or.inl hsetting)
      · obtain rfl := Draining.drained.inj hdrained
        exact Or.inl hbits
  | consumePendingFocus =>
      rintro - (hword | ⟨i, bit, hi, hbit⟩ | ⟨bits, hidle, -⟩)
      · exact htime.1 hword
      · exact htime.2 i bit hi hbit
      · cases hidle

/-! ## Every snapshot is consumed or replaced -/

/-- Every snapshot that was stored has been replaced or consumed, or is still in its slot. -/
def Delivers (events : List (Event ι α)) (s : State ι α) : Prop :=
  ∀ before i cls after, events = before ++ .storeFocus i cls :: after →
    (∃ j cls', Event.storeFocus j cls' ∈ after) ∨ Event.consumePendingFocus (some cls) ∈ after ∨
      s.pendingFocus = some cls

theorem Delivers.step {events : List (Event ι α)} {s s' : State ι α} {event : Event ι α}
    (h : Delivers events s) (hstep : Step s event s') : Delivers (events ++ [event]) s' := by
  intro before i cls after hevents
  rcases List.eq_nil_or_concat after with rfl | ⟨after, last, rfl⟩
  · -- the snapshot has just been stored
    obtain ⟨-, hevent⟩ := List.append_inj' hevents rfl
    obtain rfl := List.singleton_inj.mp hevent
    cases hstep with
    | storeFocus => exact Or.inr (Or.inr rfl)
  · rw [List.concat_eq_append] at hevents ⊢
    rw [← List.cons_append, ← List.append_assoc] at hevents
    obtain ⟨rfl, hlast⟩ := List.append_inj' hevents rfl
    obtain rfl := List.singleton_inj.mp hlast
    rcases h before i cls after rfl with ⟨j, cls', hmem⟩ | hmem | hslot
    · exact Or.inl ⟨j, cls', List.mem_append_left _ hmem⟩
    · exact Or.inr (Or.inl (List.mem_append_left _ hmem))
    · cases hstep with
      | @storeFocus j _ cls' => exact Or.inl ⟨j, cls', List.mem_concat_self⟩
      | consumePendingFocus =>
          rw [← hslot]
          exact Or.inr (Or.inl List.mem_concat_self)
      | call | fetchOr | exchangeLatch | wake | clearLatch | exchangeBits =>
          exact Or.inr (Or.inr hslot)

/-- What holds of a run so far. -/
structure FocusHistory (events : List (Event ι α)) (s : State ι α) : Prop where
  found : ∀ cls, Event.consumePendingFocus cls ∈ events → cls ≠ none
  delivers : Delivers events s
  served : Served s
  stocked : Stocked s

omit [DecidableEq ι] in
theorem FocusHistory.initial : FocusHistory ([] : List (Event ι α)) State.initial where
  found _ hmem := absurd hmem List.not_mem_nil
  delivers before i cls after hevents := by simp at hevents
  served := ⟨nofun, fun hsome => absurd rfl hsome⟩
  stocked _ := by
    rintro (hword | ⟨i, bit, hi, -⟩ | ⟨bits, hidle, -⟩)
    · exact not_within_focus_zero hword
    · cases hi
    · cases hidle

theorem FocusHistory.step {events : List (Event ι α)} {s s' : State ι α} {event : Event ι α}
    (h : FocusHistory events s) (hconforms : DrainsHookCommands s event)
    (htime : ConsumesInTime s event) (hstep : Step s event s') :
    FocusHistory (events ++ [event]) s' where
  found cls hmem := by
    rcases List.mem_append.mp hmem with hmem | hmem
    · exact h.found cls hmem
    · obtain rfl := List.mem_singleton.mp hmem
      cases hstep with
      | consumePendingFocus hdrained =>
          exact fun hnone => h.stocked hnone (Or.inr (Or.inr hconforms))
  delivers := h.delivers.step hstep
  served := h.served.step hconforms hstep
  stocked := h.stocked.step hconforms htime hstep

/-- Where the hook thread takes the snapshot only when no later post has come, it always finds one;
and when no focus bit is due, every snapshot has been consumed or replaced. -/
theorem focus_delivered {events : List (Event ι α)} {s : State ι α}
    (h : Run (Meeting (fun s event => DrainsHookCommands s event ∧ ConsumesInTime s event) Step)
      State.initial events s) :
    (∀ cls, Event.consumePendingFocus cls ∈ events → cls ≠ none) ∧
    (¬FocusDue s → ∀ before i cls after, events = before ++ .storeFocus i cls :: after →
      (∃ j cls', Event.storeFocus j cls' ∈ after) ∨
        Event.consumePendingFocus (some cls) ∈ after) := by
  have hhistory : FocusHistory events s := h.history FocusHistory.initial
    fun _ _ _ _ hbefore hstep => hbefore.step hstep.1.1 hstep.1.2 hstep.2
  refine ⟨hhistory.found, fun hdue before i cls after hevents => ?_⟩
  rcases hhistory.delivers before i cls after hevents with hreplaced | hconsumed | hslot
  · exact Or.inl hreplaced
  · exact Or.inr hconsumed
  · refine absurd (hhistory.served.due ?_) hdue
    rw [hslot]
    exact Option.some_ne_none cls

theorem within_focus_self : Within kFocusChanged kFocusChanged := by
  rw [within_focus_iff]
  decide

/-- A post alone delivers its snapshot. -/
theorem focus_delivered_alone : ∃ (events : List (Event Unit Unit)) (s : State Unit Unit),
    Event.consumePendingFocus (some ()) ∈ events ∧ Run Step State.initial events s ∧
      ∀ cls, Event.consumePendingFocus cls ∈ events → cls ≠ none := by
  have hrun :
    Run (Meeting (fun s event => DrainsHookCommands s event ∧ ConsumesInTime s event) Step)
      (State.initial : State Unit Unit)
      [.call () kFocusChanged (some ()), .storeFocus () (), .fetchOr () kFocusChanged,
        .exchangeLatch (), .wake (), .clearLatch, .exchangeBits kFocusChanged,
        .consumePendingFocus (some ())] _ :=
    .cons ⟨⟨iff_of_true within_focus_self rfl, trivial⟩, .call kFocusChanged (some ()) rfl⟩
      (.cons ⟨⟨trivial, trivial⟩, .storeFocus rfl⟩ (.cons ⟨⟨trivial, trivial⟩, .fetchOr rfl⟩
        (.cons ⟨⟨trivial, trivial⟩, .exchangeLatch rfl⟩ (.cons ⟨⟨trivial, trivial⟩, .wake rfl⟩
          (.cons ⟨⟨nofun, trivial⟩, .clearLatch (by nofun)⟩
            (.cons ⟨⟨trivial, trivial⟩, .exchangeBits rfl⟩
              (.cons ⟨⟨⟨_, rfl, within_focus_self⟩, not_within_focus_zero, nofun⟩,
                .consumePendingFocus rfl⟩ .nil)))))))
  exact ⟨_, _, by simp, hrun.mono fun _ _ _ hstep => hstep.2, (focus_delivered hrun).1⟩

/-- A second post between the two steps of the hook thread: its drain finds no snapshot. -/
theorem not_focus_delivered : ¬∀ (events : List (Event Bool Unit)) (s : State Bool Unit),
    Run (Meeting DrainsHookCommands Step) State.initial events s →
      ∀ cls, Event.consumePendingFocus cls ∈ events → cls ≠ none := by
  intro h
  have hrun : Run (Meeting DrainsHookCommands Step) (State.initial : State Bool Unit)
      [.call true kFocusChanged (some ()), .storeFocus true (), .fetchOr true kFocusChanged,
        .exchangeLatch true, .wake true, .clearLatch, .exchangeBits kFocusChanged,
        .call false kFocusChanged (some ()), .storeFocus false (), .fetchOr false kFocusChanged,
        .exchangeLatch false, .wake false, .consumePendingFocus (some ()),
        .clearLatch, .exchangeBits kFocusChanged, .consumePendingFocus none] _ :=
    .cons ⟨iff_of_true within_focus_self rfl, .call kFocusChanged (some ()) rfl⟩
      (.cons ⟨trivial, .storeFocus rfl⟩ (.cons ⟨trivial, .fetchOr rfl⟩
        (.cons ⟨trivial, .exchangeLatch rfl⟩ (.cons ⟨trivial, .wake rfl⟩
          (.cons ⟨nofun, .clearLatch (by nofun)⟩ (.cons ⟨trivial, .exchangeBits rfl⟩
            (.cons ⟨iff_of_true within_focus_self rfl, .call kFocusChanged (some ()) rfl⟩
              (.cons ⟨trivial, .storeFocus rfl⟩ (.cons ⟨trivial, .fetchOr rfl⟩
                (.cons ⟨trivial, .exchangeLatch rfl⟩ (.cons ⟨trivial, .wake rfl⟩
                  (.cons ⟨⟨_, rfl, within_focus_self⟩, .consumePendingFocus rfl⟩
                    (.cons ⟨nofun, .clearLatch (by nofun)⟩ (.cons ⟨trivial, .exchangeBits rfl⟩
                      (.cons ⟨⟨_, rfl, within_focus_self⟩, .consumePendingFocus rfl⟩
                        .nil)))))))))))))))
  exact h _ _ hrun none (by simp) rfl

end HookCommandMailbox

end VKey
