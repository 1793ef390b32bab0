import VKey.Hook.HookReclaim

/-!
# Runs of the hook thread

Between a start and the next one, the requests that have been accepted are those that have come to
an end and those under way, each of them once.  A process is under way at most once, its hook is
replaced at most once, and there is never more than one keyboard hook.
-/

namespace VKey

/-! ## Slots of tickets -/

theorem DorionProcessIdentity.isValid_ne {identity : DorionProcessIdentity}
    (h : identity.isValid = true) : identity ≠ {} := by
  rintro rfl
  cases h

namespace DorionDelayedReclaimTicket

theorem isValid_iff {ticket : DorionDelayedReclaimTicket} :
    ticket.isValid = true ↔
      ticket.identity.isValid = true ∧ ticket.timerId ≠ 0 ∧ ticket.remainingGateChecks ≠ 0 := by
  rw [isValid, Bool.and_eq_true, Bool.and_eq_true, bne_iff_ne, bne_iff_ne, and_assoc]

end DorionDelayedReclaimTicket

namespace DorionDelayedReclaimSlots

open DorionDelayedReclaimTicket (isValid isValid_iff)

variable {slots slots' : DorionDelayedReclaimSlots} {ticket : DorionDelayedReclaimTicket}
  {timerId nowTickMs : Nat}

/-- Every slot is in use or empty. -/
def Clean (slots : DorionDelayedReclaimSlots) : Prop :=
  ∀ slot ∈ slots.list, slot.isValid = true ∨ slot = {}

theorem clean_clear : Clean (Slots.clear {}) :=
  fun _ hslot => Or.inr (List.eq_of_mem_replicate hslot)

theorem occupied_clear : (Slots.clear {} : DorionDelayedReclaimSlots).occupied isValid = [] :=
  Slots.occupied_clear rfl

/-- A ticket is armed. -/
theorem arm_eq_some (hclean : slots.Clean) (h : slots.arm ticket = some slots') :
    slots'.Clean ∧ (slots'.occupied isValid).Perm (ticket :: slots.occupied isValid) ∧
      ∀ other ∈ slots.occupied isValid, other.timerId ≠ ticket.timerId := by
  rw [arm] at h
  split_ifs at h with hinvalid hknown
  rw [Bool.not_eq_true', Bool.not_eq_false] at hinvalid
  refine ⟨?_, Slots.occupied_fill hinvalid h, ?_⟩
  · intro slot hslot
    rcases Slots.mem_fill h hslot with rfl | hslot
    · exact Or.inl hinvalid
    · exact hclean slot hslot
  · intro other hother hsame
    apply hknown
    refine List.any_eq_true.mpr ⟨other, (Slots.mem_occupied.mp hother).1, ?_⟩
    rw [hsame, beq_self_eq_true, Bool.or_true]

/-- A ticket is refused only if there is no room for it. -/
theorem arm_ne_none (hclean : slots.Clean) (hvalid : ticket.isValid = true)
    (hother : ∀ other ∈ slots.occupied isValid,
      other.identity ≠ ticket.identity ∧ other.timerId ≠ ticket.timerId)
    (hroom : (slots.occupied isValid).length < 4) : slots.arm ticket ≠ none := by
  obtain ⟨hidentity, htimer, -⟩ := isValid_iff.mp hvalid
  have hnone : ¬(slots.list.any fun slot =>
      slot.identity == ticket.identity || slot.timerId == ticket.timerId) = true := by
    intro hany
    obtain ⟨slot, hslot, hsame⟩ := List.any_eq_true.mp hany
    rw [Bool.or_eq_true, beq_iff_eq, beq_iff_eq] at hsame
    rcases hclean slot hslot with hused | rfl
    · obtain ⟨hne, hne'⟩ := hother slot (Slots.mem_occupied.mpr ⟨hslot, hused⟩)
      exact hsame.elim hne hne'
    · rcases hsame with hsame | hsame
      · exact DorionProcessIdentity.isValid_ne hidentity hsame.symm
      · exact htimer hsame.symm
  rw [arm, hvalid, Bool.not_true, if_neg Bool.false_ne_true, if_neg hnone]
  intro hfull
  have := Slots.fill_eq_none hfull
  omega

/-- A ticket is taken when it is due. -/
theorem takeIfDue_eq_some {taken : DorionDelayedReclaimTicket × DorionDelayedReclaimSlots}
    (hclean : slots.Clean) (h : slots.takeIfDue timerId nowTickMs = some taken) :
    taken.1.timerId = timerId ∧ taken.1.dueTickMs ≤ nowTickMs ∧ Clean taken.2 ∧
      (slots.occupied isValid).Perm (taken.1 :: taken.2.occupied isValid) := by
  rw [takeIfDue] at h
  split_ifs at h with hzero
  have hused : ∀ slot ∈ slots.list,
      (slot.timerId == timerId && decide (slot.dueTickMs ≤ nowTickMs)) = true →
        slot.isValid = true := by
    intro slot hslot hdue
    rw [Bool.and_eq_true, beq_iff_eq] at hdue
    refine (hclean slot hslot).resolve_right ?_
    rintro rfl
    exact hzero hdue.1.symm
  obtain ⟨hdue, hperm⟩ := Slots.occupied_take rfl hused h
  rw [Bool.and_eq_true, beq_iff_eq, decide_eq_true_iff] at hdue
  refine ⟨hdue.1, hdue.2, ?_, hperm⟩
  intro slot hslot
  rcases Slots.mem_take h hslot with rfl | hslot
  · exact Or.inr rfl
  · exact hclean slot hslot

theorem not_hasPending (hclean : slots.Clean) {identity : DorionProcessIdentity}
    (hother : ∀ other ∈ slots.occupied isValid, other.identity ≠ identity) :
    slots.hasPending identity = false := by
  rw [Bool.eq_false_iff, hasPending, Ne, Bool.and_eq_true, List.any_eq_true]
  rintro ⟨hvalid, slot, hslot, hsame⟩
  rw [beq_iff_eq] at hsame
  rcases hclean slot hslot with hused | rfl
  · exact hother slot (Slots.mem_occupied.mpr ⟨hslot, hused⟩) hsame
  · exact DorionProcessIdentity.isValid_ne hvalid hsame.symm

end DorionDelayedReclaimSlots

/-! ## The policy -/

namespace DorionHookReclaimPolicy

open DorionProcessIdentity (isValid)

variable {policy : DorionHookReclaimPolicy} {identity : DorionProcessIdentity}
  {exeName : List WChar}

theorem observe_eq_false (h : (policy.observe exeName identity true).1 = false) :
    (policy.observe exeName identity true).2 = policy := by
  rw [observe] at h ⊢
  split_ifs at h ⊢
  · rfl
  · rfl
  · cases hfill : policy.pending.fill isValid identity with
    | none => rfl
    | some pending =>
        rw [hfill] at h
        cases h

/-- A process is observed that is neither under way nor known to have succeeded. -/
structure Observed (policy : DorionHookReclaimPolicy) (identity : DorionProcessIdentity)
    (policy' : DorionHookReclaimPolicy) : Prop where
  valid : identity.isValid = true
  notPending : identity ∉ policy.pending.occupied isValid
  notSuccessful : identity ∉ policy.successful.occupied isValid
  notSuppressed : policy.suppressNewIdentities = false
  pending : (policy'.pending.occupied isValid).Perm (identity :: policy.pending.occupied isValid)
  successful : policy'.successful = policy.successful
  suppressed : policy'.suppressNewIdentities = policy.suppressNewIdentities

theorem observe_eq_true (h : (policy.observe exeName identity true).1 = true) :
    Observed policy identity (policy.observe exeName identity true).2 := by
  rw [observe] at h ⊢
  split_ifs at h ⊢ with hrefused hknown
  rw [Bool.not_eq_true, Bool.or_eq_false_iff, Bool.not_eq_false'] at hrefused
  rw [Bool.not_eq_true, Bool.or_eq_false_iff, Bool.or_eq_false_iff, ← Bool.not_eq_true,
    ← Bool.not_eq_true, List.contains_iff_mem, List.contains_iff_mem] at hknown
  obtain ⟨⟨hpending, hsuccessful⟩, hsuppressed⟩ := hknown
  cases hfill : policy.pending.fill isValid identity with
  | none =>
      rw [hfill] at h
      cases h
  | some pending =>
      exact
        { valid := hrefused.2
          notPending := fun hmem => hpending (Slots.mem_occupied.mp hmem).1
          notSuccessful := fun hmem => hsuccessful (Slots.mem_occupied.mp hmem).1
          notSuppressed := hsuppressed
          pending := Slots.occupied_fill hrefused.2 hfill
          successful := rfl
          suppressed := rfl }

theorem pending_complete (succeeded : Bool) :
    (policy.complete identity succeeded).pending = policy.pending.free (· == identity) {} := by
  rw [complete]
  split_ifs
  · rfl
  · dsimp only
    cases policy.successful.fill isValid identity with
    | none => rfl
    | some successful => rfl

theorem complete_false :
    policy.complete identity false =
      { policy with pending := policy.pending.free (· == identity) {} } := by
  rw [complete, Bool.not_false, Bool.true_or, Bool.true_or, if_pos rfl]

theorem notSuppressed_of_complete {succeeded : Bool}
    (h : (policy.complete identity succeeded).suppressNewIdentities = false) :
    policy.suppressNewIdentities = false := by
  rw [complete] at h
  split_ifs at h
  · exact h
  · dsimp only at h
    cases hfill : policy.successful.fill isValid identity with
    | none =>
        rw [hfill] at h
        cases h
    | some successful =>
        rw [hfill] at h
        exact h

/-- A success is remembered unless new processes are suppressed. -/
theorem complete_true (hvalid : identity.isValid = true)
    (hnew : identity ∉ policy.successful.occupied isValid)
    (hsuppressed : (policy.complete identity true).suppressNewIdentities = false) :
    ((policy.complete identity true).successful.occupied isValid).Perm
      (identity :: policy.successful.occupied isValid) := by
  have hcontains : policy.successful.list.contains identity = false := by
    rw [← Bool.not_eq_true, List.contains_iff_mem]
    exact fun hmem => hnew (Slots.mem_occupied.mpr ⟨hmem, hvalid⟩)
  rw [complete] at hsuppressed ⊢
  dsimp only at hsuppressed ⊢
  rw [hvalid, hcontains, Bool.not_true, Bool.or_self, Bool.or_self, if_neg Bool.false_ne_true]
    at hsuppressed ⊢
  cases hfill : policy.successful.fill isValid identity with
  | none =>
      rw [hfill] at hsuppressed
      cases hsuppressed
  | some successful =>
      rw [hfill] at hsuppressed
      exact Slots.occupied_fill hvalid hfill

end DorionHookReclaimPolicy

namespace HookLifecycle

open DorionHookReclaimPolicy (kMaxPending kMaxSuccessful)

namespace State

/-- The processes under way. -/
def pending (s : State) : List DorionProcessIdentity :=
  s.policy.pending.occupied DorionProcessIdentity.isValid

/-- The processes whose replacement has succeeded. -/
def replaced (s : State) : List DorionProcessIdentity :=
  (s.outcomes.filter fun outcome => outcome.result == .replaced).map Outcome.identity

/-- The requests that the hook thread has still to answer. -/
def inFlight (s : State) : List DorionProcessIdentity :=
  s.messages ++ s.tickets.map DorionDelayedReclaimTicket.identity

end State

/-- The last request for the process was accepted in time for something that happens at a tick. -/
def RequestedBefore (s : State) (identity : DorionProcessIdentity) (delayMs tickMs : Nat) : Prop :=
  ∃ requested, s.accepted.lookup identity = some requested ∧ requested + delayMs ≤ tickMs

/-- The books of a running hook thread.  The processes in `out` are being handled. -/
structure Booked (out : List DorionProcessIdentity) (s : State) : Prop where
  clean : s.dorionSlots.Clean
  timers : (s.tickets.map DorionDelayedReclaimTicket.timerId).Nodup
  flight : s.pending.Perm (out ++ s.inFlight)
  nodup : s.pending.Nodup
  valid : ∀ identity ∈ s.pending, identity.isValid = true
  accepted : (s.accepted.map Prod.fst).Perm (s.outcomes.map Outcome.identity ++ s.pending)
  fresh : ∀ identity ∈ s.pending, identity ∉ s.replaced
  successful : s.policy.suppressNewIdentities = false →
    s.replaced.Perm (s.policy.successful.occupied DorionProcessIdentity.isValid)
  replaced : s.replaced.Nodup
  count : s.replaced.length + s.pending.length ≤ kMaxSuccessful + kMaxPending
  messages : ∀ identity ∈ s.messages, RequestedBefore s identity 0 s.nowTickMs
  tickets : ∀ ticket ∈ s.tickets,
    RequestedBefore s ticket.identity kDorionInitialDelayMs ticket.dueTickMs
  timely : ∀ outcome ∈ s.outcomes, outcome.result = .replaced →
    RequestedBefore s outcome.identity kDorionInitialDelayMs outcome.tickMs

variable {s : State} {identity : DorionProcessIdentity} {out : List DorionProcessIdentity}
  {answers : Answers}

/-- A running hook thread that has nothing to do yet. -/
theorem booked_of_empty (hslots : s.dorionSlots = .clear {}) (hpolicy : s.policy = .reset)
    (hmessages : s.messages = []) (haccepted : s.accepted = []) (houtcomes : s.outcomes = []) :
    Booked [] s := by
  have hpending : s.pending = [] := by
    rw [State.pending, hpolicy]
    exact Slots.occupied_clear rfl
  have htickets : s.tickets = [] := by
    rw [State.tickets, hslots]
    exact DorionDelayedReclaimSlots.occupied_clear
  have hreplaced : s.replaced = [] := by
    rw [State.replaced, houtcomes]
    rfl
  have hsuccessful : s.policy.successful.occupied DorionProcessIdentity.isValid = [] := by
    rw [hpolicy]
    exact Slots.occupied_clear rfl
  have hclean : s.dorionSlots.Clean := by
    rw [hslots]
    exact DorionDelayedReclaimSlots.clean_clear
  refine ⟨hclean, ?_, ?_, ?_, ?_, ?_, ?_, ?_, ?_, ?_, ?_, ?_, ?_⟩
  · rw [htickets]
    exact List.nodup_nil
  · rw [hpending, State.inFlight, hmessages, htickets]
    exact List.Perm.nil
  · rw [hpending]
    exact List.nodup_nil
  · rw [hpending]
    exact fun _ hmem => absurd hmem List.not_mem_nil
  · rw [haccepted, houtcomes, hpending]
    exact List.Perm.nil
  · rw [hpending]
    exact fun _ hmem => absurd hmem List.not_mem_nil
  · intro _
    rw [hreplaced, hsuccessful]
  · rw [hreplaced]
    exact List.nodup_nil
  · rw [hreplaced, hpending]
    exact Nat.zero_le _
  · rw [hmessages]
    exact fun _ hmem => absurd hmem List.not_mem_nil
  · rw [htickets]
    exact fun _ hmem => absurd hmem List.not_mem_nil
  · rw [houtcomes]
    exact fun _ hmem => absurd hmem List.not_mem_nil

/-! ## Handling a request -/

theorem Booked.takeMessage {messages : List DorionProcessIdentity} (h : Booked [] s)
    (hmessages : s.messages = identity :: messages) : Booked [identity] { s with messages } :=
  { h with
    flight := by
      refine h.flight.trans ?_
      rw [State.inFlight, hmessages]
      exact List.Perm.refl _
    messages := by
      intro other hother
      apply h.messages
      rw [hmessages]
      exact List.mem_cons_of_mem _ hother }

theorem Booked.takeTicket {timerId nowTickMs : Nat}
    {taken : DorionDelayedReclaimTicket × DorionDelayedReclaimSlots} (h : Booked [] s)
    (htaken : s.dorionSlots.takeIfDue timerId nowTickMs = some taken) :
    Booked [taken.1.identity] { s with dorionSlots := taken.2 } ∧
      RequestedBefore s taken.1.identity kDorionInitialDelayMs nowTickMs := by
  obtain ⟨-, hdue, hclean, hperm⟩ :=
    DorionDelayedReclaimSlots.takeIfDue_eq_some h.clean htaken
  have hmem : taken.1 ∈ s.tickets := hperm.symm.subset List.mem_cons_self
  have htimers := (hperm.map DorionDelayedReclaimTicket.timerId).nodup_iff.mp h.timers
  obtain ⟨requested, hlookup, hdelay⟩ := h.tickets _ hmem
  refine ⟨{ h with clean := hclean, timers := htimers.of_cons, flight := ?_, tickets := ?_ },
    requested, hlookup, hdelay.trans hdue⟩
  · refine h.flight.trans ?_
    exact ((hperm.map _).append_left s.messages).trans List.perm_middle
  · exact fun ticket hticket =>
      h.tickets ticket (hperm.symm.subset (List.mem_cons_of_mem _ hticket))

theorem Booked.ne_of_mem_tickets (h : Booked [identity] s) :
    ∀ other ∈ s.tickets, other.identity ≠ identity := by
  rintro other hother rfl
  have hnodup : (other.identity :: s.inFlight).Nodup := h.flight.nodup_iff.mp h.nodup
  apply (List.nodup_cons.mp hnodup).1
  exact List.mem_append_right _ (List.mem_map_of_mem hother)

/-- The process is handled by setting a timer. -/
theorem Booked.schedule {ticket : DorionDelayedReclaimTicket} {delayMs : Nat}
    {slots : DorionDelayedReclaimSlots} (h : Booked [identity] s)
    (hticket : ticket.identity = identity)
    (hslots : scheduleTicket answers s.nowTickMs s.dorionSlots ticket delayMs = some slots)
    (hdue : RequestedBefore s identity kDorionInitialDelayMs (s.nowTickMs + delayMs)) :
    Booked [] { s with dorionSlots := slots } := by
  subst hticket
  rw [scheduleTicket] at hslots
  split_ifs at hslots
  obtain ⟨hclean, hperm, htimer⟩ := DorionDelayedReclaimSlots.arm_eq_some h.clean hslots
  refine { h with clean := hclean, timers := ?_, flight := ?_, tickets := ?_ }
  · refine (hperm.map DorionDelayedReclaimTicket.timerId).nodup_iff.mpr ?_
    refine List.nodup_cons.mpr ⟨?_, h.timers⟩
    intro hmem
    obtain ⟨other, hother, hsame⟩ := List.mem_map.mp hmem
    exact htimer other hother hsame
  · refine h.flight.trans ?_
    exact (((hperm.map DorionDelayedReclaimTicket.identity).append_left s.messages).trans
      List.perm_middle).symm
  · intro other hother
    rcases List.mem_cons.mp (hperm.subset hother) with rfl | hother
    · exact hdue
    · exact h.tickets other hother

/-- A timer that can be set is never refused by the slots. -/
theorem Booked.schedule_ne_none {ticket : DorionDelayedReclaimTicket} {delayMs nowTickMs : Nat}
    (h : Booked [identity] s) (hticket : ticket.identity = identity)
    (hchecks : ticket.remainingGateChecks ≠ 0) (htimer : answers.timer ≠ 0)
    (hother : ∀ other ∈ s.tickets, other.timerId ≠ answers.timer) :
    scheduleTicket answers nowTickMs s.dorionSlots ticket delayMs ≠ none := by
  subst hticket
  have hmem : ticket.identity ∈ s.pending := h.flight.symm.subset List.mem_cons_self
  have hvalid := h.valid _ hmem
  have hlength : s.pending.length = s.inFlight.length + 1 := h.flight.length_eq
  have htickets : s.tickets.length ≤ s.inFlight.length := by
    rw [State.inFlight, List.length_append, List.length_map]
    exact Nat.le_add_left _ _
  have hfour : s.pending.length ≤ 4 := Slots.length_occupied_le
  rw [scheduleTicket, if_neg htimer]
  apply DorionDelayedReclaimSlots.arm_ne_none h.clean
  · exact DorionDelayedReclaimTicket.isValid_iff.mpr ⟨hvalid, htimer, hchecks⟩
  · exact fun other hmem' => ⟨h.ne_of_mem_tickets other hmem', hother other hmem'⟩
  · change s.tickets.length < 4
    omega

/-- The process is handled by reporting its result. -/
theorem Booked.report {result : DorionKeyboardReclaimResult} (h : Booked [identity] s)
    (hdue : result = .replaced →
      RequestedBefore s identity kDorionInitialDelayMs s.nowTickMs) :
    Booked [] (s.report identity result) := by
  have hmem : identity ∈ s.pending := h.flight.symm.subset List.mem_cons_self
  have hpending : s.pending.Perm (identity :: (s.report identity result).pending) := by
    rw [State.pending, State.pending, State.report,
      DorionHookReclaimPolicy.pending_complete]
    exact Slots.occupied_free rfl hmem
  have hnodup := hpending.nodup_iff.mp h.nodup
  obtain ⟨hnotMem, hnodup'⟩ := List.nodup_cons.mp hnodup
  have hsub : ∀ other ∈ (s.report identity result).pending, other ∈ s.pending :=
    fun other hother => hpending.symm.subset (List.mem_cons_of_mem _ hother)
  have hreplaced : (s.report identity result).replaced =
      if result = .replaced then identity :: s.replaced else s.replaced := by
    by_cases hresult : result = .replaced
    · subst hresult
      rfl
    · rw [if_neg hresult, State.replaced, State.report, List.filter_cons_of_neg]
      · rfl
      · rw [beq_iff_eq]
        exact hresult
  have hlength := hpending.length_eq
  rw [List.length_cons] at hlength
  refine ⟨h.clean, h.timers, ?_, hnodup', fun other hother =>
    h.valid other (hsub other hother), ?_, ?_, ?_, ?_, ?_, h.messages, h.tickets, ?_⟩
  · exact (hpending.symm.trans h.flight).cons_inv
  · exact h.accepted.trans ((hpending.append_left _).trans List.perm_middle)
  · intro other hother
    rw [hreplaced]
    split_ifs
    · refine List.not_mem_cons_of_ne_of_not_mem ?_ (h.fresh other (hsub other hother))
      rintro rfl
      exact hnotMem hother
    · exact h.fresh other (hsub other hother)
  · intro hsuppressed
    rw [hreplaced]
    by_cases hresult : result = .replaced
    · subst hresult
      rw [if_pos rfl]
      have hbefore := DorionHookReclaimPolicy.notSuppressed_of_complete hsuppressed
      have hnew : identity ∉ s.policy.successful.occupied DorionProcessIdentity.isValid :=
        fun hmem' => h.fresh identity hmem ((h.successful hbefore).symm.subset hmem')
      exact ((h.successful hbefore).cons identity).trans
        (DorionHookReclaimPolicy.complete_true (h.valid identity hmem) hnew hsuppressed).symm
    · have hfalse : (result == DorionKeyboardReclaimResult.replaced) = false :=
        beq_false_of_ne hresult
      rw [State.report, hfalse, DorionHookReclaimPolicy.complete_false] at hsuppressed ⊢
      rw [if_neg hresult]
      exact h.successful hsuppressed
  · rw [hreplaced]
    split_ifs
    · exact List.nodup_cons.mpr ⟨h.fresh identity hmem, h.replaced⟩
    · exact h.replaced
  · rw [hreplaced]
    have := h.count
    split_ifs
    · rw [List.length_cons]
      omega
    · omega
  · intro outcome houtcome hresult
    rcases List.mem_cons.mp houtcome with rfl | houtcome
    · exact hdue hresult
    · exact h.timely outcome houtcome hresult

/-! ## Steps -/

theorem RequestedBefore.mono {delayMs tickMs later : Nat}
    (h : RequestedBefore s identity delayMs tickMs) (hle : tickMs ≤ later) :
    RequestedBefore s identity delayMs later := by
  obtain ⟨requested, hlookup, hdelay⟩ := h
  exact ⟨requested, hlookup, hdelay.trans hle⟩

theorem RequestedBefore.cons {s' : State} {other : DorionProcessIdentity} {delayMs tickMs now : Nat}
    (h : RequestedBefore s identity delayMs tickMs) (hother : identity ≠ other)
    (haccepted : s'.accepted = (other, now) :: s.accepted) :
    RequestedBefore s' identity delayMs tickMs := by
  obtain ⟨requested, hlookup, hdelay⟩ := h
  refine ⟨requested, ?_, hdelay⟩
  rw [haccepted, List.lookup_cons, beq_false_of_ne hother]
  exact hlookup

/-- A request is accepted. -/
theorem Booked.accept {policy' : DorionHookReclaimPolicy} (h : Booked [] s)
    (hobserved : s.policy.Observed identity policy') :
    Booked []
      { s with
        policy := policy'
        messages := s.messages ++ [identity]
        accepted := (identity, s.nowTickMs) :: s.accepted } := by
  have hmem : ∀ other ∈ s.pending, other ≠ identity := by
    rintro other hother rfl
    exact hobserved.notPending hother
  have hflight : ∀ other ∈ s.inFlight, other ≠ identity :=
    fun other hother => hmem other (h.flight.symm.subset hother)
  have hnew : identity ∉ s.replaced := by
    intro hmem'
    exact hobserved.notSuccessful ((h.successful hobserved.notSuppressed).subset hmem')
  have hmemReplaced : ∀ outcome ∈ s.outcomes, outcome.result = .replaced →
      outcome.identity ≠ identity := by
    rintro outcome houtcome hresult rfl
    apply hnew
    apply List.mem_map_of_mem
    exact List.mem_filter.mpr ⟨houtcome, beq_iff_eq.mpr hresult⟩
  refine ⟨h.clean, h.timers, ?_, ?_, ?_, ?_, ?_, ?_, h.replaced, ?_, ?_, ?_, ?_⟩
  · refine hobserved.pending.trans ?_
    refine (h.flight.cons identity).trans ?_
    rw [List.nil_append, State.inFlight]
    change (identity :: (s.messages ++ s.tickets.map DorionDelayedReclaimTicket.identity)).Perm
      (s.messages ++ [identity] ++ s.tickets.map DorionDelayedReclaimTicket.identity)
    rw [List.append_assoc, List.singleton_append]
    exact List.perm_middle.symm
  · exact hobserved.pending.nodup_iff.mpr (List.nodup_cons.mpr ⟨hobserved.notPending, h.nodup⟩)
  · intro other hother
    rcases List.mem_cons.mp (hobserved.pending.subset hother) with rfl | hother
    · exact hobserved.valid
    · exact h.valid other hother
  · refine (h.accepted.cons identity).trans ?_
    exact List.perm_middle.symm.trans (hobserved.pending.symm.append_left _)
  · intro other hother
    rcases List.mem_cons.mp (hobserved.pending.subset hother) with rfl | hother
    · exact hnew
    · exact h.fresh other hother
  · intro _
    change s.replaced.Perm (policy'.successful.occupied _)
    rw [hobserved.successful]
    exact h.successful hobserved.notSuppressed
  · have hreplaced : s.replaced.length ≤ kMaxSuccessful := by
      rw [(h.successful hobserved.notSuppressed).length_eq]
      exact Slots.length_occupied_le
    exact Nat.add_le_add hreplaced Slots.length_occupied_le
  · intro other hother
    rcases List.mem_append.mp hother with hother | hother
    · exact (h.messages other hother).cons (hflight other (List.mem_append_left _ hother)) rfl
    · obtain rfl := List.mem_singleton.mp hother
      refine ⟨s.nowTickMs, ?_, Nat.le_refl _⟩
      rw [List.lookup_cons, beq_self_eq_true]
  · intro ticket hticket
    exact (h.tickets ticket hticket).cons
      (hflight _ (List.mem_append_right _ (List.mem_map_of_mem hticket))) rfl
  · intro outcome houtcome hresult
    exact (h.timely outcome houtcome hresult).cons (hmemReplaced outcome houtcome hresult) rfl

/-- A request that could not be posted is forgotten. -/
theorem Booked.refuse {policy' : DorionHookReclaimPolicy} (h : Booked [] s)
    (hobserved : s.policy.Observed identity policy') :
    Booked [] { s with policy := policy'.complete identity false } := by
  have hmem : identity ∈ policy'.pending.occupied DorionProcessIdentity.isValid :=
    hobserved.pending.symm.subset List.mem_cons_self
  have hpending : ((policy'.complete identity false).pending.occupied
      DorionProcessIdentity.isValid).Perm s.pending := by
    rw [DorionHookReclaimPolicy.pending_complete]
    exact ((Slots.occupied_free rfl hmem).symm.trans hobserved.pending).cons_inv
  refine ⟨h.clean, h.timers, hpending.trans h.flight, hpending.nodup_iff.mpr h.nodup,
    fun other hother => h.valid other (hpending.subset hother),
    h.accepted.trans (hpending.symm.append_left _),
    fun other hother => h.fresh other (hpending.subset hother), ?_, h.replaced, ?_, h.messages,
    h.tickets, h.timely⟩
  · intro _
    change s.replaced.Perm ((policy'.complete identity false).successful.occupied _)
    rw [DorionHookReclaimPolicy.complete_false, hobserved.successful]
    exact h.successful hobserved.notSuppressed
  · refine le_trans (Nat.add_le_add_left ?_ _) h.count
    exact hpending.length_eq.le

theorem Booked.routeFocus {exeName : List WChar} {dropStale posted : Bool} (h : Booked [] s) :
    Booked [] (s.routeFocus exeName identity dropStale posted) := by
  rw [State.routeFocus]
  by_cases hdrop : dropStale = true
  · rw [if_pos hdrop]
    exact h
  rw [if_neg hdrop]
  dsimp only
  by_cases hobserved : (s.policy.observe exeName identity true).1 = true
  · rw [if_pos hobserved]
    split_ifs
    · exact h.accept (DorionHookReclaimPolicy.observe_eq_true hobserved)
    · exact h.refuse (DorionHookReclaimPolicy.observe_eq_true hobserved)
  · rw [if_neg hobserved,
      DorionHookReclaimPolicy.observe_eq_false (Bool.eq_false_iff.mpr hobserved)]
    exact h

theorem Booked.setHook (h : Booked out s) (keyboardHook : Nat) (hooks : Hooks) :
    Booked out { s with keyboardHook, hooks } := { h with clean := h.clean }

theorem Booked.reportFailed {result : DorionKeyboardReclaimResult} (h : Booked [identity] s)
    (hresult : result ≠ .replaced) : Booked [] (s.report identity result) :=
  h.report fun hreplaced => absurd hreplaced hresult

/-- What becomes of the next request. -/
inductive ReclaimHandled (s : State) (answers : Answers) : State → Prop
  | none (hmessages : s.messages = []) : ReclaimHandled s answers s
  | failed {identity : DorionProcessIdentity} {messages : List DorionProcessIdentity}
      {result : DorionKeyboardReclaimResult} (hmessages : s.messages = identity :: messages)
      (hresult : result ≠ .replaced)
      (hschedule : result = .scheduleFailed → scheduleTicket answers s.nowTickMs s.dorionSlots
        { identity, remainingGateChecks := kDorionMaxGateChecks } kDorionInitialDelayMs = .none) :
      ReclaimHandled s answers ({ s with messages }.report identity result)
  | armed {identity : DorionProcessIdentity} {messages : List DorionProcessIdentity}
      {dorionSlots : DorionDelayedReclaimSlots} (hmessages : s.messages = identity :: messages)
      (hschedule : scheduleTicket answers s.nowTickMs s.dorionSlots
        { identity, remainingGateChecks := kDorionMaxGateChecks } kDorionInitialDelayMs =
          some dorionSlots) :
      ReclaimHandled s answers { s with messages, dorionSlots }

theorem Booked.reclaimHandled (h : Booked [] s) :
    ReclaimHandled s answers (s.reclaimMessage answers) := by
  rw [State.reclaimMessage]
  cases hmessages : s.messages with
  | nil => exact .none hmessages
  | cons identity messages =>
      have htaken := h.takeMessage hmessages
      have hpending : s.dorionSlots.hasPending identity = false :=
        DorionDelayedReclaimSlots.not_hasPending h.clean htaken.ne_of_mem_tickets
      have hvalid : identity.isValid = true :=
        htaken.valid identity (htaken.flight.symm.subset List.mem_cons_self)
      dsimp only
      rw [handleReclaim, hvalid, hpending, Bool.not_true, if_neg Bool.false_ne_true,
        if_neg Bool.false_ne_true]
      by_cases hforeground : answers.foreground ≠ identity
      · rw [if_pos hforeground]
        exact .failed hmessages DorionKeyboardReclaimResult.noConfusion
          DorionKeyboardReclaimResult.noConfusion
      rw [if_neg hforeground]
      cases hschedule : scheduleTicket answers s.nowTickMs s.dorionSlots
          { identity, remainingGateChecks := kDorionMaxGateChecks } kDorionInitialDelayMs with
      | none =>
          exact .failed hmessages DorionKeyboardReclaimResult.noConfusion fun _ => hschedule
      | some dorionSlots => exact .armed hmessages hschedule

/-- What becomes of a ticket that is due. -/
theorem handleDue_cases (answers : Answers) (nowTickMs : Nat) (slots : DorionDelayedReclaimSlots)
    (ticket : DorionDelayedReclaimTicket) :
    handleDue answers nowTickMs slots ticket = .replace ∨
      (∃ result, handleDue answers nowTickMs slots ticket = .finished result ∧ result ≠ .replaced ∧
        (result = .scheduleFailed → ∃ again : DorionDelayedReclaimTicket,
          again.identity = ticket.identity ∧ again.remainingGateChecks ≠ 0 ∧
            scheduleTicket answers nowTickMs slots again kDorionGateRetryMs = none)) ∨
      ∃ (again : DorionDelayedReclaimTicket) (slots' : DorionDelayedReclaimSlots),
        handleDue answers nowTickMs slots ticket = .armed slots' ∧
          again.identity = ticket.identity ∧
            scheduleTicket answers nowTickMs slots again kDorionGateRetryMs = some slots' := by
  rw [handleDue]
  split_ifs with hforeground hbusy hchecks hforegroundAgain
  · exact Or.inr (Or.inl ⟨_, rfl, DorionKeyboardReclaimResult.noConfusion,
      DorionKeyboardReclaimResult.noConfusion⟩)
  · exact Or.inr (Or.inl ⟨_, rfl, DorionKeyboardReclaimResult.noConfusion,
      DorionKeyboardReclaimResult.noConfusion⟩)
  · cases hschedule : scheduleTicket answers nowTickMs slots
        { ticket with remainingGateChecks := ticket.remainingGateChecks - 1 }
          kDorionGateRetryMs with
    | none =>
        refine Or.inr (Or.inl ⟨_, rfl, DorionKeyboardReclaimResult.noConfusion, ?_⟩)
        intro _
        refine ⟨{ ticket with remainingGateChecks := ticket.remainingGateChecks - 1 }, rfl, ?_,
          hschedule⟩
        dsimp only
        omega
    | some slots' =>
        exact Or.inr (Or.inr ⟨{ ticket with remainingGateChecks := ticket.remainingGateChecks - 1 },
          slots', rfl, rfl, hschedule⟩)
  · exact Or.inr (Or.inl ⟨_, rfl, DorionKeyboardReclaimResult.noConfusion,
      DorionKeyboardReclaimResult.noConfusion⟩)
  · exact Or.inl rfl

/-- What becomes of the message of a timer. -/
inductive TimerHandled (s : State) (answers : Answers) (timerId : Nat) : State → Prop
  | none : TimerHandled s answers timerId s
  | armed {taken : DorionDelayedReclaimTicket × DorionDelayedReclaimSlots}
      {again : DorionDelayedReclaimTicket} {dorionSlots : DorionDelayedReclaimSlots}
      (htaken : s.dorionSlots.takeIfDue timerId s.nowTickMs = some taken)
      (hagain : again.identity = taken.1.identity)
      (hschedule : scheduleTicket answers s.nowTickMs taken.2 again kDorionGateRetryMs =
        some dorionSlots) : TimerHandled s answers timerId { s with dorionSlots }
  | failed {taken : DorionDelayedReclaimTicket × DorionDelayedReclaimSlots}
      {result : DorionKeyboardReclaimResult}
      (htaken : s.dorionSlots.takeIfDue timerId s.nowTickMs = some taken)
      (hresult : result ≠ .replaced)
      (hschedule : result = .scheduleFailed → ∃ again : DorionDelayedReclaimTicket,
        again.identity = taken.1.identity ∧ again.remainingGateChecks ≠ 0 ∧
          scheduleTicket answers s.nowTickMs taken.2 again kDorionGateRetryMs = .none) :
      TimerHandled s answers timerId
        ({ s with dorionSlots := taken.2 }.report taken.1.identity result)
  | replaced {taken : DorionDelayedReclaimTicket × DorionDelayedReclaimSlots}
      {status : SingleHookReplacementStatus} {keyboardHook : Nat} {hooks : Hooks}
      (htaken : s.dorionSlots.takeIfDue timerId s.nowTickMs = some taken)
      (hreplace : replaceSingleHook (replacementOps answers) s.keyboardHook s.hooks =
        (status, keyboardHook, hooks)) :
      TimerHandled s answers timerId
        ({ s with dorionSlots := taken.2, keyboardHook, hooks }.report taken.1.identity
          (replacementResult status))

theorem timerHandled (s : State) (answers : Answers) (threadTimer : Bool) (timerId : Nat) :
    TimerHandled s answers timerId (s.timerMessage answers threadTimer timerId) := by
  rw [State.timerMessage]
  split_ifs
  · cases htaken : s.dorionSlots.takeIfDue timerId s.nowTickMs with
    | none => exact .none
    | some taken =>
        dsimp only
        rcases handleDue_cases answers s.nowTickMs taken.2 taken.1 with
          hdue | ⟨result, hdue, hresult, hschedule⟩ | ⟨again, dorionSlots, hdue, hagain, hschedule⟩
        · rw [hdue]
          exact .replaced htaken rfl
        · rw [hdue]
          exact .failed htaken hresult hschedule
        · rw [hdue]
          exact .armed htaken hagain hschedule
  · exact .none

theorem Booked.reclaimMessage (h : Booked [] s) : Booked [] (s.reclaimMessage answers) := by
  have hhandled : ReclaimHandled s answers (s.reclaimMessage answers) := h.reclaimHandled
  generalize s.reclaimMessage answers = s' at hhandled
  cases hhandled with
  | none => exact h
  | failed hmessages hresult => exact (h.takeMessage hmessages).reportFailed hresult
  | @armed identity messages dorionSlots hmessages hschedule =>
      obtain ⟨requested, hlookup, hdelay⟩ : RequestedBefore s identity 0 s.nowTickMs := by
        apply h.messages
        rw [hmessages]
        exact List.mem_cons_self
      exact Booked.schedule (s := { s with messages }) (h.takeMessage hmessages) rfl hschedule
        ⟨requested, hlookup, Nat.add_le_add_right hdelay _⟩

theorem Booked.timerMessage {threadTimer : Bool} {timerId : Nat} (h : Booked [] s) :
    Booked [] (s.timerMessage answers threadTimer timerId) := by
  have hhandled := timerHandled s answers threadTimer timerId
  generalize s.timerMessage answers threadTimer timerId = s' at hhandled
  cases hhandled with
  | none => exact h
  | @armed taken again dorionSlots htaken hagain hschedule =>
      obtain ⟨hbooked, hrequested⟩ := h.takeTicket htaken
      exact Booked.schedule (s := { s with dorionSlots := taken.2 }) hbooked hagain hschedule
        (hrequested.mono (Nat.le_add_right _ _))
  | failed htaken hresult => exact (h.takeTicket htaken).1.reportFailed hresult
  | replaced htaken =>
      obtain ⟨hbooked, hrequested⟩ := h.takeTicket htaken
      exact (hbooked.setHook _ _).report fun _ => hrequested

/-! ## One hook -/

/-- The system calls at most one keyboard hook, the one that the hook thread knows. -/
def SingleHook (keyboardHook : Nat) (hooks : Hooks) : Prop :=
  hooks = [] ∨ keyboardHook ≠ 0 ∧ hooks = [keyboardHook]

theorem singleHook_install (answers : Answers) :
    SingleHook (if answers.hook ≠ 0 then answers.hook else 0)
      (if answers.hook ≠ 0 then [answers.hook] else []) := by
  split_ifs with hhook
  · exact Or.inr ⟨hhook, rfl⟩
  · exact Or.inl rfl

theorem replaceSingleHook_of_empty (answers : Answers) :
    ∃ status, replaceSingleHook (replacementOps answers) 0 [] =
      (status, if answers.hook ≠ 0 then answers.hook else 0,
        if answers.hook ≠ 0 then [answers.hook] else []) := by
  by_cases hhook : answers.hook ≠ 0
  · refine ⟨.replaced, ?_⟩
    simp [replaceSingleHook, replacementOps, hhook]
  · refine ⟨.installFailed, ?_⟩
    simp [replaceSingleHook, replacementOps, hhook]

/-- A replacement never leaves two hooks, whatever the system answers. -/
theorem SingleHook.replace {keyboardHook keyboardHook' : Nat} {hooks hooks' : Hooks}
    {status : SingleHookReplacementStatus} (h : SingleHook keyboardHook hooks)
    (hreplace : replaceSingleHook (replacementOps answers) keyboardHook hooks =
      (status, keyboardHook', hooks')) : SingleHook keyboardHook' hooks' := by
  by_cases hhook : keyboardHook = 0
  · have hnone : hooks = [] := h.resolve_right fun hone => hone.1 hhook
    subst hhook hnone
    obtain ⟨status', hinstall⟩ := replaceSingleHook_of_empty answers
    rw [hinstall] at hreplace
    cases hreplace
    exact singleHook_install answers
  · by_cases hfails : answers.unhookFails = true
    · -- the hook stays
      simp [replaceSingleHook, replacementOps, hhook, hfails] at hreplace
      obtain ⟨-, rfl, rfl⟩ := hreplace
      exact h
    · have hgone : replaceSingleHook (replacementOps answers) keyboardHook hooks =
          replaceSingleHook (replacementOps answers) 0 [] := by
        rcases h with rfl | ⟨-, rfl⟩
        · simp [replaceSingleHook, replacementOps, hhook, hfails]
        · simp [replaceSingleHook, replacementOps, hhook, hfails]
      obtain ⟨status', hinstall⟩ := replaceSingleHook_of_empty answers
      rw [hgone, hinstall] at hreplace
      cases hreplace
      exact singleHook_install answers

/-! ## Runs -/

/-- What is known of the replacements since the start. -/
structure Recorded (s : State) : Prop where
  replaced : s.replaced.Nodup
  count : s.replaced.length ≤ kMaxSuccessful + kMaxPending
  timely : ∀ outcome ∈ s.outcomes, outcome.result = .replaced →
    RequestedBefore s outcome.identity kDorionInitialDelayMs outcome.tickMs

theorem Booked.recorded (h : Booked out s) : Recorded s :=
  ⟨h.replaced, (Nat.le_add_right _ _).trans h.count, h.timely⟩

/-- The books are kept while the hook thread runs, and there is one hook. -/
structure Kept (s : State) : Prop where
  hook : SingleHook s.keyboardHook s.hooks
  stopped : s.joinable = false → s.hooks = []
  booked : s.joinable = true → Booked [] s
  recorded : Recorded s

theorem recorded_of_empty (houtcomes : s.outcomes = []) : Recorded s := by
  have hreplaced : s.replaced = [] := by
    rw [State.replaced, houtcomes]
    rfl
  refine ⟨?_, ?_, ?_⟩
  · rw [hreplaced]
    exact List.nodup_nil
  · rw [hreplaced]
    exact Nat.zero_le _
  · rw [houtcomes]
    exact fun _ hmem => absurd hmem List.not_mem_nil

theorem kept_initial : Kept {} :=
  ⟨Or.inl rfl, fun _ => rfl, Bool.noConfusion, recorded_of_empty rfl⟩

theorem Kept.of_booked {s' : State} (hrunning : s'.joinable = true) (hbooked : Booked [] s')
    (hhook : SingleHook s'.keyboardHook s'.hooks) : Kept s' := by
  refine ⟨hhook, ?_, fun _ => hbooked, hbooked.recorded⟩
  intro hstopped
  rw [hrunning] at hstopped
  cases hstopped

theorem hook_routeFocus (s : State) (exeName : List WChar) (identity : DorionProcessIdentity)
    (dropStale posted : Bool) :
    (s.routeFocus exeName identity dropStale posted).joinable = s.joinable ∧
      (s.routeFocus exeName identity dropStale posted).keyboardHook = s.keyboardHook ∧
        (s.routeFocus exeName identity dropStale posted).hooks = s.hooks := by
  rw [State.routeFocus]
  dsimp only
  split_ifs
  all_goals exact ⟨rfl, rfl, rfl⟩

theorem Kept.step {event : Event} {s' : State} (h : Kept s) (hstep : Step s event s') :
    Kept s' := by
  obtain ⟨hadmits, rfl⟩ := hstep
  cases event with
  | focus exeName identity dropStale posted =>
      obtain ⟨hjoinable, hhook, hhooks⟩ := hook_routeFocus s exeName identity dropStale posted
      apply Kept.of_booked
      · exact hjoinable.trans hadmits
      · exact (h.booked hadmits).routeFocus
      · change SingleHook (s.routeFocus exeName identity dropStale posted).keyboardHook _
        rw [hhook]
        change SingleHook _ (s.routeFocus exeName identity dropStale posted).hooks
        rw [hhooks]
        exact h.hook
  | reclaim answers =>
      have hbooked := h.booked hadmits.1
      have hhandled : ReclaimHandled s answers (s.reclaimMessage answers) := hbooked.reclaimHandled
      have hbooked' : Booked [] (s.reclaimMessage answers) := hbooked.reclaimMessage
      change Kept (s.reclaimMessage answers)
      generalize s.reclaimMessage answers = s' at hhandled hbooked'
      cases hhandled with
      | none => exact h
      | failed => exact Kept.of_booked hadmits.1 hbooked' h.hook
      | armed => exact Kept.of_booked hadmits.1 hbooked' h.hook
  | timer answers threadTimer timerId =>
      have hhandled := timerHandled s answers threadTimer timerId
      have hbooked' : Booked [] (s.timerMessage answers threadTimer timerId) :=
        (h.booked hadmits.1).timerMessage
      change Kept (s.timerMessage answers threadTimer timerId)
      generalize s.timerMessage answers threadTimer timerId = s' at hhandled hbooked'
      cases hhandled with
      | none => exact h
      | armed => exact Kept.of_booked hadmits.1 hbooked' h.hook
      | failed => exact Kept.of_booked hadmits.1 hbooked' h.hook
      | replaced htaken hreplace =>
          exact Kept.of_booked hadmits.1 hbooked' (h.hook.replace hreplace)
  | tick elapsedMs =>
      refine ⟨h.hook, h.stopped, ?_, ⟨h.recorded.replaced, h.recorded.count, h.recorded.timely⟩⟩
      intro hrunning
      have hbooked := h.booked hrunning
      exact { hbooked with
        clean := hbooked.clean
        messages := fun identity hmem =>
          (hbooked.messages identity hmem).mono (Nat.le_add_right _ _) }
  | removed handle =>
      have hhooks : s.hooks.filter (· ≠ handle) = [] ∨ s.hooks.filter (· ≠ handle) = s.hooks := by
        rcases h.hook with hnone | ⟨-, hone⟩
        · rw [hnone]
          exact Or.inl rfl
        · rw [hone]
          by_cases hsame : s.keyboardHook = handle
          · exact Or.inl (by simp [hsame])
          · exact Or.inr (by simp [hsame])
      refine ⟨?_, ?_, fun hrunning => (h.booked hrunning).setHook _ _, ?_⟩
      · rcases hhooks with hnone | hsame
        · exact Or.inl hnone
        · change SingleHook s.keyboardHook (s.hooks.filter (· ≠ handle))
          rw [hsame]
          exact h.hook
      · intro hstopped
        change s.hooks.filter (· ≠ handle) = []
        rw [h.stopped hstopped]
        rfl
      · exact ⟨h.recorded.replaced, h.recorded.count, h.recorded.timely⟩
  | start hook =>
      change Kept (s.start hook)
      rw [State.start]
      by_cases hrunning : s.joinable = true
      · rw [if_pos hrunning]
        exact h
      have hnone := h.stopped (Bool.eq_false_iff.mpr hrunning)
      rw [if_neg hrunning]
      by_cases hhook : hook = 0
      · rw [if_pos hhook]
        exact ⟨Or.inl hnone, fun _ => hnone, fun hrunning' => absurd hrunning' hrunning,
          recorded_of_empty rfl⟩
      · rw [if_neg hhook, hnone]
        exact Kept.of_booked rfl (booked_of_empty rfl rfl rfl rfl rfl) (Or.inr ⟨hhook, rfl⟩)
  | stop =>
      exact ⟨Or.inl rfl, fun _ => rfl, Bool.noConfusion,
        ⟨h.recorded.replaced, h.recorded.count, h.recorded.timely⟩⟩

variable {events : List Event}

theorem kept_of_run (hrun : Run Step {} events s) : Kept s :=
  hrun.invariant kept_initial fun _ _ _ h hstep => h.step hstep

/-- There is never more than one keyboard hook.  Between a start and the next one, the hook is
replaced at most once for each process and at most twelve times, and not before the delay after the
request. -/
theorem replacements_of_run (hrun : Run Step {} events s) :
    SingleHook s.keyboardHook s.hooks ∧ s.replaced.Nodup ∧
      s.replaced.length ≤ kMaxSuccessful + kMaxPending ∧
        ∀ outcome ∈ s.outcomes, outcome.result = .replaced →
          RequestedBefore s outcome.identity kDorionInitialDelayMs outcome.tickMs := by
  have hkept := kept_of_run hrun
  exact ⟨hkept.hook, hkept.recorded.replaced, hkept.recorded.count, hkept.recorded.timely⟩

/-- Timers can be set. -/
def Event.SetsTimers : Event → Prop
  | .reclaim answers | .timer answers _ _ => answers.timer ≠ 0
  | _ => True

/-- A request fails to be scheduled only if no timer can be set. -/
def NeverUnscheduled (s : State) : Prop :=
  ∀ outcome ∈ s.outcomes, outcome.result ≠ .scheduleFailed

theorem NeverUnscheduled.report {result : DorionKeyboardReclaimResult} (h : NeverUnscheduled s)
    (hresult : result ≠ .scheduleFailed) : NeverUnscheduled (s.report identity result) := by
  intro outcome houtcome
  rcases List.mem_cons.mp houtcome with rfl | houtcome
  · exact hresult
  · exact h outcome houtcome

theorem NeverUnscheduled.step {event : Event} {s' : State} (h : NeverUnscheduled s) (hkept : Kept s)
    (hstep : Step s event s') (hsets : event.SetsTimers) : NeverUnscheduled s' := by
  obtain ⟨hadmits, rfl⟩ := hstep
  cases event with
  | focus exeName identity dropStale posted =>
      change NeverUnscheduled (s.routeFocus exeName identity dropStale posted)
      rw [State.routeFocus]
      dsimp only
      split_ifs
      all_goals exact h
  | reclaim answers =>
      have hbooked := hkept.booked hadmits.1
      have hhandled : ReclaimHandled s answers (s.reclaimMessage answers) := hbooked.reclaimHandled
      change NeverUnscheduled (s.reclaimMessage answers)
      generalize s.reclaimMessage answers = s' at hhandled
      cases hhandled with
      | none => exact h
      | @failed identity messages result hmessages hresult hschedule =>
          apply NeverUnscheduled.report h
          intro hfailed
          exact (hbooked.takeMessage hmessages).schedule_ne_none rfl
            (Nat.succ_ne_zero 29) hsets hadmits.2
            (hschedule hfailed)
      | armed => exact h
  | timer answers threadTimer timerId =>
      have hbooked := hkept.booked hadmits.1
      have hhandled := timerHandled s answers threadTimer timerId
      change NeverUnscheduled (s.timerMessage answers threadTimer timerId)
      generalize s.timerMessage answers threadTimer timerId = s' at hhandled
      cases hhandled with
      | none => exact h
      | armed => exact h
      | @failed taken result htaken hresult hschedule =>
          apply NeverUnscheduled.report h
          intro hfailed
          obtain ⟨again, hagain, hchecks, hnone⟩ := hschedule hfailed
          obtain ⟨htimer, -, -, hperm⟩ :=
            DorionDelayedReclaimSlots.takeIfDue_eq_some hbooked.clean htaken
          have htimers := (hperm.map DorionDelayedReclaimTicket.timerId).nodup_iff.mp hbooked.timers
          refine (hbooked.takeTicket htaken).1.schedule_ne_none hagain hchecks hsets ?_ hnone
          -- the timer of the ticket has been cancelled, and no other ticket has it
          intro other hother hsame
          have hmem : other ∈ s.tickets := hperm.symm.subset (List.mem_cons_of_mem _ hother)
          apply (List.nodup_cons.mp htimers).1
          rw [htimer, ← hadmits.2 other hmem hsame]
          exact List.mem_map_of_mem hother
      | @replaced taken status keyboardHook hooks htaken hreplace =>
          apply NeverUnscheduled.report h
          cases status <;> exact DorionKeyboardReclaimResult.noConfusion
  | tick elapsedMs => exact h
  | removed handle => exact h
  | start hook =>
      change NeverUnscheduled (s.start hook)
      rw [State.start]
      split_ifs
      · exact h
      · exact fun _ hmem => absurd hmem List.not_mem_nil
      · exact fun _ hmem => absurd hmem List.not_mem_nil
  | stop => exact h

theorem neverUnscheduled_of_run (hrun : Run Step {} events s)
    (hsets : ∀ event ∈ events, event.SetsTimers) : NeverUnscheduled s := by
  induction hrun with
  | nil => exact fun _ hmem => absurd hmem List.not_mem_nil
  | snoc hrun hstep ih =>
      have hbefore := ih fun event hevent => hsets event (List.mem_append_left _ hevent)
      exact hbefore.step (kept_of_run hrun) hstep
        (hsets _ (List.mem_append_right _ List.mem_cons_self))

/-- While the hook thread runs, the requests accepted since the start are those that have come to
one end and those under way, each of them once.  No more than four are under way, and none of them
fails to be scheduled as long as timers can be set. -/
theorem requests_of_run (hrun : Run Step {} events s) (hrunning : s.joinable = true) :
    (s.accepted.map Prod.fst).Perm (s.outcomes.map Outcome.identity ++ s.inFlight) ∧
      s.inFlight.Nodup ∧ s.inFlight.length ≤ kMaxPending ∧
        ((∀ event ∈ events, event.SetsTimers) →
          ∀ outcome ∈ s.outcomes, outcome.result ≠ .scheduleFailed) := by
  have hbooked := (kept_of_run hrun).booked hrunning
  refine ⟨hbooked.accepted.trans (hbooked.flight.append_left _),
    hbooked.flight.nodup_iff.mp hbooked.nodup, ?_, neverUnscheduled_of_run hrun⟩
  have hlength : s.pending.length = s.inFlight.length := hbooked.flight.length_eq
  have hfour : s.pending.length ≤ kMaxPending := Slots.length_occupied_le
  omega

/-! ## A replacement -/

/-- The process stays in the foreground, and nothing is being typed. -/
def quietAnswers : Answers where
  foreground := ⟨5, 9⟩
  foregroundAgain := ⟨5, 9⟩
  evidence := some { lastInputQuerySucceeded := true, nowTickMs := 300, lastInputTickMs := 100 }
  timer := 3
  unhookFails := false
  hook := 8

/-- A process is observed and its hook is replaced when the timer is due. -/
def reclaimEvents : List Event :=
  [.start 7, .focus ("dorion.exe".toList.map L)
    ⟨5, 9⟩ false true, .reclaim quietAnswers, .tick 1800, .timer quietAnswers true 3]

def reclaimedState : State := reclaimEvents.foldl State.next {}

theorem run_reclaimEvents : Run Step {} reclaimEvents reclaimedState := by
  refine Run.cons ⟨trivial, rfl⟩ (Run.cons ⟨by decide, rfl⟩ (Run.cons ⟨by decide, rfl⟩
    (Run.cons ⟨trivial, rfl⟩ (Run.single ⟨by decide, rfl⟩))))

theorem replacements_of_run_once :
    reclaimedState.hooks = [8] ∧ reclaimedState.replaced = [⟨5, 9⟩] ∧
      SingleHook reclaimedState.keyboardHook reclaimedState.hooks ∧ reclaimedState.replaced.Nodup ∧
        reclaimedState.replaced.length ≤ kMaxSuccessful + kMaxPending ∧
          ∀ outcome ∈ reclaimedState.outcomes, outcome.result = .replaced →
            RequestedBefore reclaimedState outcome.identity kDorionInitialDelayMs outcome.tickMs :=
  ⟨by decide, by decide, replacements_of_run run_reclaimEvents⟩

theorem requests_of_run_once :
    (reclaimedState.accepted.map Prod.fst).Perm
        (reclaimedState.outcomes.map Outcome.identity ++ reclaimedState.inFlight) ∧
      reclaimedState.inFlight.Nodup ∧ reclaimedState.inFlight.length ≤ kMaxPending ∧
        ((∀ event ∈ reclaimEvents, event.SetsTimers) →
          ∀ outcome ∈ reclaimedState.outcomes, outcome.result ≠ .scheduleFailed) :=
  requests_of_run run_reclaimEvents (by decide)

end HookLifecycle

end VKey
