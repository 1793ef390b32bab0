import VKey.Ipc.SharedState

/-!
# The flags of the shared state

`Write` stores the flags that it has read some steps before, and a process sets the ready bit some
steps after it has become the owner.  No update is lost in a run where nothing has changed in
between.
-/

namespace VKey

namespace SharedStateManager

variable {κ : Type}

/-- The value of a flag after one more operation of the setters. -/
def updateFlag (k : Nat) (value : Bool) : Event κ → Bool
  | .setOrClearFlag flagBit set => if flagBit.getLsbD k then set else value
  | .toggleFlag flagBit => if flagBit.getLsbD k then !value else value
  | _ => value

/-- The value that the setters have given to a flag. -/
def setValue (events : List (Event κ)) (k : Nat) : Bool :=
  events.foldl (updateFlag k) (initDefaults.getLsbD k)

/-- The flags of the setters are as they have set them; the ready bit is not theirs. -/
def FlagsKept (events : List (Event κ)) (s : State κ) : Prop :=
  ∀ k < 32, SharedFlags.tsfNativeConvertReady.getLsbD k = false →
    s.flags.getLsbD k = setValue events k

def State.IsReady (s : State κ) : Prop := s.flags &&& SharedFlags.tsfNativeConvertReady ≠ 0

instance (s : State κ) : Decidable s.IsReady := inferInstanceAs (Decidable (_ ≠ _))

/-- Readiness is that of an owner whose last call says so. -/
def ReadyOwned (s : State κ) : Prop := s.IsReady → s.owner ≠ 0 ∧ s.declared s.owner = true

/-- The process has declared that it is ready, or will still clear the bit. -/
def Backed (s : State κ) (processId : ProcessId) : Prop :=
  s.declared processId = true ∨ s.publishing processId = .checking ∨
    s.publishing processId = .clearing

/-- `Write` stores the flags that are there, and does not bring the ready bit back; a process that
sets the ready bit finds an owner that backs it; and the setters leave that bit to the owners. -/
def Undisturbed (s : State κ) : Event κ → Prop
  | .storeFlags => ∀ state seq loaded, s.writing = .storingFlags state seq loaded →
      state.flags &&& ~~~SharedFlags.tsfNativeConvertReady =
        s.flags &&& ~~~SharedFlags.tsfNativeConvertReady ∧
      (loaded &&& SharedFlags.tsfNativeConvertReady ≠ 0 → s.IsReady)
  | .setReady _ => s.owner ≠ 0 ∧ Backed s s.owner
  | .setOrClearFlag flagBit set => set = true → flagBit &&& SharedFlags.tsfNativeConvertReady = 0
  | .toggleFlag flagBit => flagBit &&& SharedFlags.tsfNativeConvertReady = 0
  | _ => True

/-! ## Bits -/

section Bits

open SharedFlags

theorem getLsbD_ready (k : Nat) : tsfNativeConvertReady.getLsbD k = decide (k = 11) := by
  have hpow : tsfNativeConvertReady = BitVec.twoPow 32 11 := rfl
  rw [hpow, BitVec.getLsbD_twoPow, decide_eq_true (by decide : 11 < 32), Bool.true_and,
    decide_eq_decide]
  exact eq_comm

theorem and_ready_ne_zero_iff (flags : Flags) :
    flags &&& tsfNativeConvertReady ≠ 0 ↔ flags.getLsbD 11 = true := by
  constructor
  · intro h
    by_contra hbit
    apply h
    apply BitVec.eq_of_getLsbD_eq
    intro k _
    rw [BitVec.getLsbD_and, getLsbD_ready]
    by_cases heq : k = 11
    · subst heq
      rw [eq_false_of_ne_true hbit]
      rfl
    · rw [decide_eq_false heq, Bool.and_false]
      exact BitVec.getLsbD_zero.symm
  · intro hbit hzero
    have h := congrArg (fun word : Flags => word.getLsbD 11) hzero
    rw [BitVec.getLsbD_and, getLsbD_ready, hbit] at h
    cases h

theorem getLsbD_or_ready (flags : Flags) {k : Nat} (hk : tsfNativeConvertReady.getLsbD k = false) :
    (flags ||| tsfNativeConvertReady).getLsbD k = flags.getLsbD k := by
  rw [BitVec.getLsbD_or, hk, Bool.or_false]

theorem getLsbD_and_not_ready (flags : Flags) {k : Nat} (hlt : k < 32)
    (hk : tsfNativeConvertReady.getLsbD k = false) :
    (flags &&& ~~~tsfNativeConvertReady).getLsbD k = flags.getLsbD k := by
  rw [BitVec.getLsbD_and, BitVec.getLsbD_not, hk, decide_eq_true hlt, Bool.not_false, Bool.and_true,
    Bool.and_true]

theorem not_ready_of_and_not (flags : Flags) :
    ¬(flags &&& ~~~tsfNativeConvertReady).getLsbD 11 = true := by
  rw [BitVec.getLsbD_and, BitVec.getLsbD_not, getLsbD_ready]
  simp

theorem getLsbD_writtenFlags (state loaded : Flags) {k : Nat} (hlt : k < 32)
    (hk : tsfNativeConvertReady.getLsbD k = false) :
    (writtenFlags state loaded).getLsbD k = state.getLsbD k := by
  rw [writtenFlags, BitVec.getLsbD_or, getLsbD_and_not_ready state hlt hk, BitVec.getLsbD_and, hk,
    Bool.and_false, Bool.or_false]

theorem ready_writtenFlags {state loaded : Flags}
    (h : (writtenFlags state loaded).getLsbD 11 = true) :
    loaded.getLsbD 11 = true := by
  rw [writtenFlags, BitVec.getLsbD_or, Bool.or_eq_true] at h
  have hloaded := h.resolve_left (not_ready_of_and_not state)
  rw [BitVec.getLsbD_and, Bool.and_eq_true] at hloaded
  exact hloaded.1

end Bits

/-! ## The invariant -/

/-- What the call says in which a process stands. -/
def Publishing.declaredReady : Publishing → Option Bool
  | .idle => none
  | .exchanging => some true
  | .setting => some true
  | .checking => some false
  | .clearing => some false
  | .releasing => some false

/-- The calls under way are the last ones of their processes. -/
def CallsDeclared (s : State κ) : Prop :=
  ∀ processId ready, (s.publishing processId).declaredReady = some ready →
    processId ≠ 0 ∧ s.declared processId = ready

structure Coherent (events : List (Event κ)) (s : State κ) : Prop where
  kept : FlagsKept events s
  backed : s.flags.getLsbD 11 = true → s.owner ≠ 0 ∧ Backed s s.owner
  calls : CallsDeclared s

theorem FlagsKept.step {events : List (Event κ)} {s t : State κ} {event : Event κ}
    (h : FlagsKept events s)
    (hflags : ∀ k < 32, SharedFlags.tsfNativeConvertReady.getLsbD k = false →
      t.flags.getLsbD k = updateFlag k (s.flags.getLsbD k) event) :
    FlagsKept (events ++ [event]) t := by
  intro k hlt hk
  rw [setValue, List.foldl_append, hflags k hlt hk, h k hlt hk]
  rfl

theorem publishing_publishTo_self (s : State κ) (processId : ProcessId) (publishing : Publishing) :
    (s.publishTo processId publishing).publishing processId = publishing := Function.update_self ..

theorem publishing_publishTo_of_ne (s : State κ) {processId other : ProcessId}
    (h : other ≠ processId) (publishing : Publishing) :
    (s.publishTo processId publishing).publishing other = s.publishing other :=
  Function.update_of_ne h ..

theorem CallsDeclared.publishTo {s : State κ} {processId : ProcessId} {publishing : Publishing}
    (h : ∀ other, other ≠ processId → ∀ ready, (s.publishing other).declaredReady = some ready →
      other ≠ 0 ∧ s.declared other = ready)
    (hnew : ∀ ready, publishing.declaredReady = some ready →
      processId ≠ 0 ∧ s.declared processId = ready) :
    CallsDeclared (s.publishTo processId publishing) := by
  intro other ready hdeclared
  rcases eq_or_ne other processId with rfl | hne
  · rw [publishing_publishTo_self] at hdeclared
    exact hnew ready hdeclared
  · rw [publishing_publishTo_of_ne s hne] at hdeclared
    exact h other hne ready hdeclared

theorem Backed.of_ne {s : State κ} {processId other : ProcessId} {publishing : Publishing}
    (h : Backed s other) (hne : other ≠ processId) :
    Backed (s.publishTo processId publishing) other := by
  rw [Backed, publishing_publishTo_of_ne s hne]
  exact h

/-- The steps of the process that reads and writes, except that which stores the flags. -/
theorem Coherent.writeTo {events : List (Event κ)} {s t : State κ} {event : Event κ}
    (h : Coherent events s) (hevent : ∀ k value, updateFlag k value event = value)
    (hflags : t.flags = s.flags) (howner : t.owner = s.owner)
    (hpublishing : t.publishing = s.publishing)
    (hdeclared : t.declared = s.declared) (writing : Writing κ) :
    Coherent (events ++ [event]) (t.writeTo writing) where
  kept := h.kept.step fun k _ _ => by
    rw [hevent]
    exact congrArg (fun flags : Flags => flags.getLsbD k) hflags
  backed hready := by
    rw [show (t.writeTo writing).flags = s.flags from hflags] at hready
    rw [Backed, show (t.writeTo writing).owner = s.owner from howner,
      show (t.writeTo writing).declared = s.declared from hdeclared,
      show (t.writeTo writing).publishing = s.publishing from hpublishing]
    exact h.backed hready
  calls := by
    rw [CallsDeclared, show (t.writeTo writing).declared = s.declared from hdeclared,
      show (t.writeTo writing).publishing = s.publishing from hpublishing]
    exact h.calls

theorem Coherent.storeFlags {events : List (Event κ)} {s : State κ} (h : Coherent events s)
    {state : Snapshot κ} {loaded : Flags}
    (hsame : state.flags &&& ~~~SharedFlags.tsfNativeConvertReady =
      s.flags &&& ~~~SharedFlags.tsfNativeConvertReady)
    (hready : loaded &&& SharedFlags.tsfNativeConvertReady ≠ 0 → s.IsReady) (writing : Writing κ) :
    Coherent (events ++ [.storeFlags])
      ({ s with flags := writtenFlags state.flags loaded }.writeTo writing) where
  kept := h.kept.step fun k hlt hk => by
    change (writtenFlags state.flags loaded).getLsbD k = s.flags.getLsbD k
    rw [getLsbD_writtenFlags _ _ hlt hk, ← getLsbD_and_not_ready _ hlt hk, hsame,
      getLsbD_and_not_ready _ hlt hk]
  backed hwritten := by
    have hloaded := (and_ready_ne_zero_iff loaded).mpr (ready_writtenFlags hwritten)
    exact h.backed ((and_ready_ne_zero_iff s.flags).mp (hready hloaded))
  calls := h.calls

theorem Coherent.setFlags {events : List (Event κ)} {s : State κ} {event : Event κ}
    (h : Coherent events s) {flags : Flags}
    (hflags : ∀ k < 32, flags.getLsbD k = updateFlag k (s.flags.getLsbD k) event)
    (hready : flags.getLsbD 11 = true → s.flags.getLsbD 11 = true) :
    Coherent (events ++ [event]) { s with flags := flags } where
  kept := h.kept.step fun k hlt _ => hflags k hlt
  backed hset := h.backed (hready hset)
  calls := h.calls

theorem getLsbD_ready_of_and_eq_zero {flagBit : Flags}
    (h : flagBit &&& SharedFlags.tsfNativeConvertReady = 0) : flagBit.getLsbD 11 = false :=
  eq_false_of_ne_true fun hbit => (and_ready_ne_zero_iff flagBit).mpr hbit h

/-- A process that publishes changes at most the ready bit. -/
theorem FlagsKept.publish {events : List (Event κ)} {s t : State κ} {event : Event κ}
    (h : FlagsKept events s) (hevent : ∀ k value, updateFlag k value event = value)
    (hflags : ∀ k < 32, SharedFlags.tsfNativeConvertReady.getLsbD k = false →
      t.flags.getLsbD k = s.flags.getLsbD k) : FlagsKept (events ++ [event]) t :=
  h.step fun k hlt hk => by rw [hevent, hflags k hlt hk]

theorem declared_declare_self (s : State κ) (processId : ProcessId) (ready : Bool) :
    (s.declare processId ready).declared processId = ready := Function.update_self ..

theorem declared_declare_of_ne (s : State κ) {processId other : ProcessId} (h : other ≠ processId)
    (ready : Bool) : (s.declare processId ready).declared other = s.declared other :=
  Function.update_of_ne h ..

theorem Coherent.callPublish {events : List (Event κ)} {s : State κ} (h : Coherent events s)
    {processId : ProcessId} (ready : Bool) (hprocess : processId ≠ 0) :
    Coherent (events ++ [.callPublish processId ready])
      ((s.declare processId ready).publishTo processId
        (if ready then .exchanging else .checking)) where
  kept := h.kept.publish (fun _ _ => rfl) fun _ _ _ => rfl
  backed hset := by
    obtain ⟨howner, hbacked⟩ := h.backed hset
    refine ⟨howner, ?_⟩
    change Backed _ s.owner
    rcases eq_or_ne s.owner processId with heq | hne
    · rw [heq]
      cases ready with
      | false => exact Or.inr (Or.inl (publishing_publishTo_self ..))
      | true => exact Or.inl (declared_declare_self ..)
    · apply Backed.of_ne _ hne
      rw [Backed, declared_declare_of_ne s hne]
      exact hbacked
  calls := by
    apply CallsDeclared.publishTo
    · intro other hne said hdeclared
      rw [declared_declare_of_ne s hne]
      exact h.calls other said hdeclared
    · intro said hdeclared
      rw [declared_declare_self]
      refine ⟨hprocess, ?_⟩
      cases ready <;> exact Option.some.inj hdeclared

theorem Coherent.exchange {events : List (Event κ)} {s : State κ} (h : Coherent events s)
    {processId : ProcessId} (hpublishing : s.publishing processId = .exchanging) :
    Coherent (events ++ [.publish processId])
      ({ s with owner := processId }.publishTo processId .setting) := by
  have hdeclared := h.calls processId true (by rw [hpublishing]; rfl)
  refine ⟨h.kept.publish (fun _ _ => rfl) fun _ _ _ => rfl, fun _ =>
    ⟨hdeclared.1, Or.inl hdeclared.2⟩, ?_⟩
  apply CallsDeclared.publishTo
  · exact fun other _ => h.calls other
  · rintro _ ⟨⟩
    exact hdeclared

theorem Coherent.setReady {events : List (Event κ)} {s : State κ} (h : Coherent events s)
    {processId : ProcessId} (hpublishing : s.publishing processId = .setting)
    (hbacked : s.owner ≠ 0 ∧ Backed s s.owner) :
    Coherent (events ++ [.setReady processId])
      ({ s with flags := s.flags ||| SharedFlags.tsfNativeConvertReady }.publishTo processId
        .idle) where
  kept := h.kept.publish (fun _ _ => rfl) fun _ _ hk => getLsbD_or_ready s.flags hk
  backed _ := by
    refine ⟨hbacked.1, ?_⟩
    change Backed _ s.owner
    rcases eq_or_ne s.owner processId with heq | hne
    · left
      rw [heq]
      exact (h.calls processId true (by rw [hpublishing]; rfl)).2
    · exact Backed.of_ne hbacked.2 hne
  calls := .publishTo (fun other _ => h.calls other) (by nofun)

theorem Coherent.check {events : List (Event κ)} {s : State κ} (h : Coherent events s)
    {processId : ProcessId} (hpublishing : s.publishing processId = .checking) :
    Coherent (events ++ [.publish processId])
      (s.publishTo processId (if s.owner = processId then .clearing else .idle)) where
  kept := h.kept.publish (fun _ _ => rfl) fun _ _ _ => rfl
  backed hset := by
    obtain ⟨howner, hbacked⟩ := h.backed hset
    refine ⟨howner, ?_⟩
    change Backed _ s.owner
    rcases eq_or_ne s.owner processId with heq | hne
    · rw [if_pos heq, heq]
      exact Or.inr (Or.inr (publishing_publishTo_self ..))
    · exact hbacked.of_ne hne
  calls := by
    apply CallsDeclared.publishTo (fun other _ => h.calls other)
    intro ready hdeclared
    split_ifs at hdeclared
    · obtain rfl := Option.some.inj hdeclared
      exact h.calls processId false (by rw [hpublishing]; rfl)
    · cases hdeclared

theorem Coherent.clearReady {events : List (Event κ)} {s : State κ} (h : Coherent events s)
    {processId : ProcessId} (hpublishing : s.publishing processId = .clearing) :
    Coherent (events ++ [.publish processId])
      ({ s with flags := s.flags &&& ~~~SharedFlags.tsfNativeConvertReady }.publishTo processId
        .releasing) where
  kept := h.kept.publish (fun _ _ => rfl) fun _ hlt hk => getLsbD_and_not_ready s.flags hlt hk
  backed hset := absurd hset (not_ready_of_and_not s.flags)
  calls := by
    apply CallsDeclared.publishTo (fun other _ => h.calls other)
    rintro _ ⟨⟩
    exact h.calls processId false (by rw [hpublishing]; rfl)

/-- A process that releases the ownership has cleared the bit. -/
theorem Coherent.release {events : List (Event κ)} {s : State κ} (h : Coherent events s)
    {processId : ProcessId} (hpublishing : s.publishing processId = .releasing) :
    Coherent (events ++ [.publish processId])
      ({ s with owner := if s.owner = processId then 0 else s.owner }.publishTo
        processId .idle) where
  kept := h.kept.publish (fun _ _ => rfl) fun _ _ _ => rfl
  backed hset := by
    obtain ⟨howner, hbacked⟩ := h.backed hset
    change (if s.owner = processId then 0 else s.owner) ≠ 0 ∧
      Backed _ (if s.owner = processId then 0 else s.owner)
    rcases eq_or_ne s.owner processId with heq | hne
    · exfalso
      have hdeclared := (h.calls processId false (by rw [hpublishing]; rfl)).2
      rw [heq, Backed, hpublishing, hdeclared] at hbacked
      rcases hbacked with hfalse | hfalse | hfalse <;> cases hfalse
    · rw [if_neg hne]
      exact ⟨howner, hbacked.of_ne hne⟩
  calls := .publishTo (fun other _ => h.calls other) (by nofun)

theorem Coherent.step {events : List (Event κ)} {s s' : State κ} {event : Event κ}
    (h : Coherent events s) (hundisturbed : Undisturbed s event) (hstep : Step s event s') :
    Coherent (events ++ [event]) s' := by
  cases hstep with
  | read | loadEpoch | copy | accept | retry | giveUp | callWrite | beginWrite | storeHeader |
      loadFlags | storeConfig | endWrite =>
      apply Coherent.writeTo h
      · exact fun _ _ => rfl
      all_goals rfl
  | storeFlags hwriting =>
      obtain ⟨hsame, hready⟩ := hundisturbed _ _ _ hwriting
      exact h.storeFlags hsame hready _
  | setOrClearFlag flagBit set hmagic =>
      cases set with
      | false =>
          apply h.setFlags
          · intro k hlt
            change (s.flags &&& ~~~flagBit).getLsbD k = if flagBit.getLsbD k then false else _
            rw [BitVec.getLsbD_and, BitVec.getLsbD_not, decide_eq_true hlt]
            cases flagBit.getLsbD k <;> simp
          · intro hset
            change (s.flags &&& ~~~flagBit).getLsbD 11 = true at hset
            rw [BitVec.getLsbD_and, Bool.and_eq_true] at hset
            exact hset.1
      | true =>
          apply h.setFlags
          · intro k hlt
            change (s.flags ||| flagBit).getLsbD k = if flagBit.getLsbD k then true else _
            rw [BitVec.getLsbD_or]
            cases flagBit.getLsbD k <;> simp
          · intro hset
            change (s.flags ||| flagBit).getLsbD 11 = true at hset
            rwa [BitVec.getLsbD_or, getLsbD_ready_of_and_eq_zero (hundisturbed rfl),
              Bool.or_false] at hset
  | toggleFlag flagBit hmagic =>
      apply h.setFlags
      · intro k hlt
        change (s.flags ^^^ flagBit).getLsbD k = if flagBit.getLsbD k then !s.flags.getLsbD k else _
        rw [BitVec.getLsbD_xor]
        cases flagBit.getLsbD k <;> simp
      · intro hset
        rwa [BitVec.getLsbD_xor, getLsbD_ready_of_and_eq_zero hundisturbed, Bool.xor_false] at hset
  | callPublish ready hpublishing hmagic hprocess => exact h.callPublish ready hprocess
  | exchange hpublishing => exact h.exchange hpublishing
  | setReady hpublishing => exact h.setReady hpublishing hundisturbed
  | check hpublishing => exact h.check hpublishing
  | clearReady hpublishing => exact h.clearReady hpublishing
  | release hpublishing => exact h.release hpublishing

theorem Coherent.of_run {config : κ} {events : List (Event κ)} {s : State κ}
    (h : Run (Meeting Undisturbed Step) (State.initial config) events s) : Coherent events s := by
  apply h.history
  · refine ⟨fun _ _ _ => rfl, fun hset => ?_, fun _ _ hdeclared =>
      (Option.some_ne_none _ hdeclared.symm).elim⟩
    exact absurd (show initDefaults.getLsbD 11 = true from hset) (by decide)
  · intro events s event s' hcoherent hstep
    exact hcoherent.step hstep.1 hstep.2

/-- In an undisturbed run no update of a flag is lost, and readiness is that of an owner. -/
theorem flagsKept_and_readyOwned {config : κ} {events : List (Event κ)} {s : State κ}
    (hrun : Run (Meeting Undisturbed Step) (State.initial config) events s) (hquiet : Quiescent s) :
    FlagsKept events s ∧ ReadyOwned s := by
  have hcoherent := Coherent.of_run hrun
  refine ⟨hcoherent.kept, fun hready => ?_⟩
  obtain ⟨howner, hbacked⟩ := hcoherent.backed ((and_ready_ne_zero_iff s.flags).mp hready)
  have hidle := hquiet.2 s.owner
  rcases hbacked with hdeclared | hchecking | hclearing
  · exact ⟨howner, hdeclared⟩
  · cases hidle.symm.trans hchecking
  · cases hidle.symm.trans hclearing

theorem idle_of_update {publishing : ProcessId → Publishing} {processId other : ProcessId}
    (h : other ≠ processId → publishing other = .idle) :
    Function.update publishing processId .idle other = .idle := by
  rcases eq_or_ne other processId with rfl | hne
  · exact Function.update_self ..
  · exact (Function.update_of_ne hne ..).trans (h hne)

theorem idle_of_update_of_ne {publishing : ProcessId → Publishing} {processId other : ProcessId}
    {place : Publishing} (hne : other ≠ processId) (h : publishing other = .idle) :
    Function.update publishing processId place other = .idle :=
  (Function.update_of_ne hne ..).trans h

/-- A toggle, a process that publishes that it is ready, and a `Write`. -/
theorem flagsKept_and_readyOwned_write : ∃ (events : List (Event Unit)) (s : State Unit),
    Run (Meeting Undisturbed Step) (State.initial ()) events s ∧ Quiescent s ∧ FlagsKept events s ∧
      ReadyOwned s := by
  have hrun : Run (Meeting Undisturbed Step) (State.initial ())
      [.toggleFlag SharedFlags.vietnameseMode, .callPublish 1 true, .publish 1, .setReady 1, .write,
        .write, .write, .write, .callWrite (), .write, .write, .write,
          .storeFlags, .write, .write] _ :=
    .cons ⟨rfl, .toggleFlag _ rfl⟩
      (.cons ⟨trivial, .callPublish true rfl rfl (by decide)⟩ (.cons ⟨trivial, .exchange rfl⟩
        (.cons ⟨⟨by decide, Or.inl rfl⟩, .setReady rfl⟩
          (.cons ⟨trivial, .read rfl rfl⟩ (.cons ⟨trivial, .loadEpoch rfl (by decide)⟩
            (.cons ⟨trivial, .copy rfl⟩ (.cons ⟨trivial, .accept rfl rfl rfl⟩
              (.cons ⟨trivial, .callWrite () rfl ⟨rfl, by decide, by decide⟩⟩
                (.cons ⟨trivial, .beginWrite rfl⟩ (.cons ⟨trivial, .storeHeader rfl⟩
                  (.cons ⟨trivial, .loadFlags rfl⟩
                    (.cons ⟨by rintro _ _ _ ⟨⟩; exact ⟨rfl, id⟩, .storeFlags rfl⟩
                      (.cons ⟨trivial, .storeConfig rfl⟩
                        (.cons ⟨trivial, .endWrite rfl⟩ .nil))))))))))))))
  refine ⟨_, _, hrun, ?quiet, flagsKept_and_readyOwned hrun ?quiet⟩
  exact ⟨rfl, fun _ => idle_of_update fun hne =>
    idle_of_update_of_ne hne (idle_of_update_of_ne hne rfl)⟩

/-- A toggle between the steps of a `Write` is lost; and the ready bit is set when the process that
became the owner in between has given the ownership up. -/
theorem not_flagsKept_and_readyOwned :
    (¬∀ (events : List (Event Unit)) (s : State Unit), Run Step (State.initial ()) events s →
      Quiescent s → FlagsKept events s) ∧
    ¬∀ (events : List (Event Unit)) (s : State Unit), Run Step (State.initial ()) events s →
      Quiescent s → ReadyOwned s := by
  constructor
  · intro h
    have hrun : Run Step (State.initial ())
        [.write, .write, .write, .toggleFlag SharedFlags.vietnameseMode,
          .write, .callWrite (), .write, .write, .write, .storeFlags, .write, .write] _ :=
      .cons (.read rfl rfl) (.cons (.loadEpoch rfl (by decide)) (.cons (.copy rfl)
        (.cons (.toggleFlag _ rfl) (.cons (.accept rfl rfl rfl)
          (.cons (.callWrite () rfl ⟨rfl, by decide, by decide⟩) (.cons (.beginWrite rfl)
            (.cons (.storeHeader rfl) (.cons (.loadFlags rfl) (.cons (.storeFlags rfl)
              (.cons (.storeConfig rfl) (.cons (.endWrite rfl) .nil)))))))))))
    have hkept := h _ _ hrun ⟨rfl, fun _ => rfl⟩ 0 (by decide) rfl
    exact absurd (show true = false from hkept) Bool.noConfusion
  · intro h
    have hrun : Run Step (State.initial ())
        [.callPublish 1 true, .publish 1, .callPublish 2 true, .publish 2, .setReady 2,
          .callPublish 2 false, .publish 2, .publish 2, .publish 2, .setReady 1] _ :=
      .cons (.callPublish true rfl rfl (by decide)) (.cons (.exchange rfl)
        (.cons (.callPublish true rfl rfl (by decide)) (.cons (.exchange rfl) (.cons (.setReady rfl)
          (.cons (.callPublish false rfl rfl (by decide))
            (.cons (.check rfl) (.cons (.clearReady rfl)
            (.cons (.release rfl) (.cons (.setReady rfl) .nil)))))))))
    have howned := h _ _ hrun ⟨rfl, fun _ => idle_of_update fun hne₁ => idle_of_update fun hne₂ =>
      idle_of_update_of_ne hne₂ (idle_of_update_of_ne hne₂ (idle_of_update_of_ne hne₂
        (idle_of_update_of_ne hne₂ (idle_of_update_of_ne hne₂ (idle_of_update_of_ne hne₂
          (idle_of_update_of_ne hne₁ (idle_of_update_of_ne hne₁ rfl)))))))⟩
    exact (howned (by decide)).1 rfl

end SharedStateManager

end VKey
