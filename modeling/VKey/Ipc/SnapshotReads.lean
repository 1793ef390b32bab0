import VKey.Ipc.StateBlock

/-!
# Reads of the shared state are not torn while its writers stay apart

Two writers that overlap, or a writer that follows a dead one, make the epoch even while fields are
still to be stored.  As long as every writer begins alone and on an even epoch, or makes the block
anew, a valid read has the fields of one completed writer.
-/

namespace VKey

namespace StateBlock

open Seqlock

/-! ## Where a process stands towards the two locks -/

def Access.configStore : Access → Option (Store ConfigCell Nat)
  | .config store => some store
  | _ => none

namespace Doing

def configPhase : Doing → Phase ConfigCell Nat
  | .locking _ _ => .entered
  | .storing call _ accesses => .holding (accesses.filterMap Access.configStore) call.fields
  | .copying _ _ reading _ => .reading reading
  | _ => .outside

def anchorPhase : Doing → Phase AnchorCell Nat
  | .anchoring anchor stores => .holding stores anchor
  | .anchorCopying _ _ reading _ => .reading reading
  | _ => .outside

/-- The process is in `Create`. -/
def Creates : Doing → Prop
  | .locking .create _ => True
  | .storing .create _ _ => True
  | _ => False

end Doing

variable {ι : Type}

/-- A writer begins when no other one is under way, and on an even count; `Create` makes the epoch
even again, and begins and ends while nobody uses the anchor.  A read of the anchor returns after
the first writer of it has completed, and fewer than `2 ^ 32` increments come before the end of a
read. -/
def Orderly (s : State ι) : Event ι → Prop
  | .beginCreate _ => ∀ j, ¬(s.doing j).configPhase.Writes ∧ (s.doing j).anchorPhase = .outside
  | .beginWrite _ _ => (∀ j, ¬(s.doing j).configPhase.Writes) ∧ s.epoch &&& 1 = 0
  | .beginAnchor _ _ =>
      (∀ j, ¬(s.doing j).anchorPhase.Writes ∧ ¬(s.doing j).Creates) ∧ s.generation &&& 1 = 0
  | .loadGeneration _ => ∀ j, ¬(s.doing j).Creates
  | .readReturns i _ => ∀ reading, (s.doing i).configPhase = .reading reading →
      s.config.increments < reading.begun + 2 ^ 32
  | .anchorReturns i _ => ∀ reading, (s.doing i).anchorPhase = .reading reading →
      s.anchor.completed ≠ [] ∧ s.anchor.increments < reading.begun + 2 ^ 32
  | _ => True

/-! ## The stores of the writers -/

theorem mem_copiedCells {cell : ConfigCell} (h : Claimed cell) : cell ∈ copiedCells := by
  cases cell with
  | featureFlags i =>
      have hi : i = 0 ∨ i = 1 := by
        simp only [Claimed] at h
        omega
      rcases hi with rfl | rfl <;> simp [copiedCells]
  | reserved i =>
      obtain ⟨hlt, howner⟩ := h
      refine List.mem_append_right _ (List.mem_map.mpr ⟨i, ?_, rfl⟩)
      rw [reservedOffsets, List.mem_append, List.mem_range, List.mem_range'_1]
      simp only [nativeConvertOwnerOffset, reservedSize] at *
      omega
  | magic | structVersion | structSize | flags => exact h.elim
  | _ => simp [copiedCells]

theorem mem_readCells_drop {cell : ConfigCell} (h : Claimed cell) : cell ∈ readCells.drop 3 := by
  rw [readCells]
  cases cell with
  | featureFlags i =>
      have hi : i = 0 ∨ i = 1 := by
        simp only [Claimed] at h
        omega
      rcases hi with rfl | rfl <;> simp
  | reserved i =>
      obtain ⟨hlt, -⟩ := h
      simpa using hlt
  | magic | structVersion | structSize | flags => exact h.elim
  | _ => simp

theorem mem_configStores {accesses : List Access} {store : Store ConfigCell Nat} :
    store ∈ accesses.filterMap Access.configStore ↔ .config store ∈ accesses := by
  rw [List.mem_filterMap]
  constructor
  · rintro ⟨access, haccess, hstore⟩
    cases access with
    | config _ =>
        obtain rfl := Option.some.inj hstore
        exact haccess
    | epoch | generation | anchor _ => cases hstore
  · exact fun haccess => ⟨_, haccess, rfl⟩

theorem store_createAccesses {store : Store ConfigCell Nat} (h : .config store ∈ createAccesses) :
    store = (.magic, fun _ => 0) ∨ store = copy initDefaults store.1 := by
  simp only [createAccesses, List.mem_append, List.mem_cons, List.mem_map,
    List.not_mem_nil, or_false, Access.config.injEq, reduceCtorEq, and_false, exists_false] at h
  obtain ((rfl | rfl | rfl | rfl) | ⟨cell, -, rfl⟩) | rfl := h
  · exact Or.inl rfl
  · exact Or.inl rfl
  · exact Or.inr rfl
  · exact Or.inr rfl
  · exact Or.inr rfl
  · exact Or.inr rfl

theorem store_writeStores {state : Config} {store : Store ConfigCell Nat}
    (h : store ∈ writeStores state) :
    store.1 = .flags ∨ store = copy state store.1 := by
  simp only [writeStores, List.mem_append, List.mem_cons, List.not_mem_nil,
    or_false, List.mem_map] at h
  obtain (rfl | rfl | rfl | rfl) | ⟨cell, -, rfl⟩ := h
  · exact Or.inr rfl
  · exact Or.inr rfl
  · exact Or.inr rfl
  · exact Or.inl rfl
  · exact Or.inr rfl

/-- A writer of the configuration stores its fields. -/
theorem agreeOn_accesses (call : Call) (config : Config) :
    AgreeOn Claimed (applyStores (call.accesses.filterMap Access.configStore) config)
    call.fields := by
  intro cell hcell
  apply applyStores_of_mem
  · rintro store hstore rfl memory
    rw [mem_configStores] at hstore
    cases call with
    | create =>
        rcases store_createAccesses hstore with rfl | heq
        · exact hcell.elim
        · rw [heq]
          rfl
    | write state =>
        obtain ⟨store', hmem, heq⟩ := List.mem_map.mp hstore
        obtain rfl := Access.config.inj heq
        rcases store_writeStores hmem with hflags | heq
        · rw [hflags] at hcell
          exact hcell.elim
        · rw [heq]
          rfl
  · right
    cases call with
    | create =>
        refine ⟨copy initDefaults cell, mem_configStores.mpr ?_, rfl⟩
        have hcopied : Access.config (copy initDefaults cell) ∈
            (readCells.drop 3).map fun cell => .config (copy initDefaults cell) :=
          List.mem_map_of_mem (mem_readCells_drop hcell)
        exact List.mem_append_left _ (List.mem_append_left _ (List.mem_append_left _
          (List.mem_append_right _ hcopied)))
    | write state =>
        refine ⟨copy state cell, mem_configStores.mpr (List.mem_map_of_mem ?_), rfl⟩
        exact List.mem_append_right _ (List.mem_map_of_mem (mem_copiedCells hcell))

theorem mem_anchorCells {cell : AnchorCell} (h : AnchorClaimed cell) : cell ∈ anchorCells := by
  rw [anchorCells]
  cases cell with
  | currentSyllable i => simpa [AnchorClaimed] using h
  | _ => simp

theorem agreeOn_anchorCells (anchor memory : Anchor) :
    AgreeOn AnchorClaimed (applyStores (anchorCells.map (copy anchor)) memory) anchor := by
  intro cell hcell
  apply applyStores_of_mem
  · rintro store hstore rfl memory
    obtain ⟨cell, -, rfl⟩ := List.mem_map.mp hstore
    rfl
  · exact Or.inr ⟨copy anchor cell, List.mem_map_of_mem (mem_anchorCells hcell), rfl⟩

/-! ## The fields that have been loaded -/

/-- The cells that are not yet to be loaded have been loaded. -/
def Covers {Cell : Type} (all : List Cell) (loaded : List (Cell × Nat))
    (cells : List Cell) : Prop :=
  ∀ cell ∈ all, cell ∈ cells ∨ ∃ value, (cell, value) ∈ loaded

theorem Covers.load {Cell : Type} {all cells : List Cell} {cell : Cell} {loaded : List (Cell × Nat)}
    (h : Covers all loaded (cell :: cells)) (value : Nat) :
    Covers all ((cell, value) :: loaded) cells := by
  intro other hother
  rcases h other hother with hmem | ⟨v, hv⟩
  · rcases List.mem_cons.mp hmem with rfl | hmem
    · exact Or.inr ⟨value, List.mem_cons_self⟩
    · exact Or.inl hmem
  · exact Or.inr ⟨v, List.mem_cons_of_mem _ hv⟩

theorem mem_loadedState {Cell : Type} [DecidableEq Cell] {loaded : List (Cell × Nat)} {cell : Cell}
    (h : ∃ value, (cell, value) ∈ loaded) : (cell, loadedState loaded cell) ∈ loaded := by
  obtain ⟨value, hvalue⟩ := h
  rw [loadedState]
  induction loaded with
  | nil => exact absurd hvalue List.not_mem_nil
  | cons entry rest ih =>
      rw [List.lookup_cons]
      by_cases heq : cell = entry.1
      · subst heq
        rw [beq_self_eq_true]
        exact List.mem_cons_self
      · rw [beq_false_of_ne heq]
        refine List.mem_cons_of_mem _ (ih ?_)
        rcases List.mem_cons.mp hvalue with rfl | hmem
        · exact absurd rfl heq
        · exact hmem

/-! ## The invariant -/

/-- What a process knows of the counts. -/
def Doing.Fits (config : Lock ConfigCell Nat) : Doing → Prop
  | .locking call seq =>
      seq = call.seq config.word ∧ ((∃ state, call = .write state) → config.increments % 2 = 0)
  | .storing call seq accesses =>
      seq = config.word ∧ (call = .create ∨ ∀ access ∈ accesses, ∃ store, access = .config store)
  | .copying _ before reading cells =>
      before = BitVec.ofNat 32 reading.begun ∧ Covers readCells reading.loaded cells
  | .anchorCopying _ g1 reading cells =>
      g1 = BitVec.ofNat 32 reading.begun ∧ reading.begun % 2 = 0 ∧
      Covers anchorCells reading.loaded cells
  | _ => True

/-- Both locks are sound, and nobody uses the anchor while `Create` lays it out. -/
structure Safe (s : State ι) : Prop where
  config : Sound Claimed (fun config => config .magic = 0) s.config fun i => (s.doing i).configPhase
  anchor : Sound AnchorClaimed (fun _ => True) s.anchor fun i => (s.doing i).anchorPhase
  fits : ∀ i, (s.doing i).Fits s.config
  creates : (∃ i, (s.doing i).Creates) → s.anchor.completed = [] ∧
    ∀ i, (s.doing i).anchorPhase = .outside

theorem Doing.Fits.congr {config config' : Lock ConfigCell Nat} {doing : Doing}
    (h : doing.Fits config)
    (hoff : ¬doing.configPhase.Writes) : doing.Fits config' := by
  cases doing with
  | locking | storing => exact absurd trivial hoff
  | _ => exact h

theorem Doing.Creates.writes {doing : Doing} (h : doing.Creates) : doing.configPhase.Writes := by
  cases doing with
  | locking | storing => trivial
  | _ => exact h.elim

theorem Safe.initial : Safe (State.initial : State ι) := by
  refine ⟨⟨rfl, nofun, nofun, fun _ => Or.inl ⟨rfl, rfl⟩, nofun⟩,
    ⟨rfl, nofun, nofun, fun _ => Or.inl ⟨rfl, trivial⟩, nofun⟩, fun _ => trivial, ?_⟩
  rintro ⟨i, hi⟩
  exact hi.elim

variable [DecidableEq ι] {s s' : State ι} {i : ι} {doing : Doing}

theorem phase_update {α : Type} (phase : Doing → α) (doings : ι → Doing) (i : ι) (doing : Doing) :
    (fun j => phase (Function.update doings i doing j)) =
      Function.update (fun j => phase (doings j)) i (phase doing) :=
  funext fun j => Function.apply_update (fun _ => phase) doings i doing j

/-- One process moves. -/
theorem Safe.of_moveTo {config : Lock ConfigCell Nat} {anchor : Lock AnchorCell Nat}
    (h : Safe s)
    (hconfig : Sound Claimed (fun config => config .magic = 0) config
      (Function.update (fun j => (s.doing j).configPhase) i doing.configPhase))
    (hanchor : Sound AnchorClaimed (fun _ => True) anchor
      (Function.update (fun j => (s.doing j).anchorPhase) i doing.anchorPhase))
    (hfits : doing.Fits config)
    (hothers : config.word = s.config.word ∧ config.increments = s.config.increments ∨
      ∀ j, j ≠ i → ¬(s.doing j).configPhase.Writes)
    (hcreates : doing.Creates ∨ (∃ j, j ≠ i ∧ (s.doing j).Creates) →
      anchor.completed = [] ∧ doing.anchorPhase = .outside ∧ ∀ j, j ≠ i →
      (s.doing j).anchorPhase = .outside) :
    Safe (State.moveTo { s with config := config, anchor := anchor } i doing) := by
  refine ⟨?_, ?_, fun j => ?_, ?_⟩
  · rw [State.moveTo, phase_update Doing.configPhase]
    exact hconfig
  · rw [State.moveTo, phase_update Doing.anchorPhase]
    exact hanchor
  · by_cases hj : j = i
    · subst hj
      simp only [State.moveTo, Function.update_self]
      exact hfits
    · simp only [State.moveTo, Function.update_of_ne hj]
      have hfit := h.fits j
      rcases hothers with ⟨hword, hincrements⟩ | hoff
      · cases hdoing : s.doing j with
        | locking | storing =>
            rw [hdoing, Doing.Fits] at hfit
            rw [Doing.Fits, hword]
            first
              | exact hfit
              | exact hincrements ▸ hfit
        | _ =>
            rw [hdoing] at hfit
            exact hfit
      · exact hfit.congr (hoff j hj)
  · rintro ⟨j, hj⟩
    have hsome : doing.Creates ∨ ∃ j, j ≠ i ∧ (s.doing j).Creates := by
      by_cases hne : j = i
      · subst hne
        simp only [State.moveTo, Function.update_self] at hj
        exact Or.inl hj
      · simp only [State.moveTo, Function.update_of_ne hne] at hj
        exact Or.inr ⟨j, hne, hj⟩
    obtain ⟨hcompleted, hself, hrest⟩ := hcreates hsome
    refine ⟨hcompleted, fun k => ?_⟩
    by_cases hk : k = i
    · subst hk
      simp only [State.moveTo, Function.update_self]
      exact hself
    · simp only [State.moveTo, Function.update_of_ne hk]
      exact hrest k hk

theorem Safe.moveTo_outside (h : Safe s) (hconfig : doing.configPhase = .outside)
    (hanchor : doing.anchorPhase = .outside) (hfits : doing.Fits s.config)
    (hcreates : ¬doing.Creates) :
    Safe (s.moveTo i doing) := by
  refine h.of_moveTo ?_ ?_ hfits (Or.inl ⟨rfl, rfl⟩) ?_
  · rw [hconfig]
    exact h.config.outside i
  · rw [hanchor]
    exact h.anchor.outside i
  · rintro (hself | ⟨j, -, hj⟩)
    · exact absurd hself hcreates
    · obtain ⟨hcompleted, hall⟩ := h.creates ⟨j, hj⟩
      exact ⟨hcompleted, hanchor, fun k _ => hall k⟩

omit [DecidableEq ι] in
/-- What `Create` and `Write` store first is odd. -/
theorem Safe.setWord_seq {call : Call} {seq : BitVec 32} (h : Safe s)
    (hi : s.doing i = .locking call seq) :
    ∃ increments, increments % 2 = 1 ∧
      (increments = s.config.increments ∨ increments = s.config.increments + 1) ∧
      s.config.setWord seq =
        { s.config with word := BitVec.ofNat 32 increments, increments := increments } := by
  have hfit := h.fits i
  rw [hi] at hfit
  obtain ⟨rfl, heven⟩ := hfit
  have hparity := word_and_one_eq_zero_iff s.config.increments
  rw [← h.config.word] at hparity
  have hsucc : s.config.increments % 2 = 0 → call.seq s.config.word = s.config.word + 1 →
      ∃ increments, increments % 2 = 1 ∧
        (increments = s.config.increments ∨ increments = s.config.increments + 1) ∧
        s.config.setWord (call.seq s.config.word) =
          { s.config with word := BitVec.ofNat 32 increments, increments := increments } := by
    intro hzero heq
    refine ⟨s.config.increments + 1, by omega, Or.inr rfl, ?_⟩
    rw [heq]
    exact Lock.setWord_succ h.config.word
  cases call with
  | write state => exact hsucc (heven ⟨state, rfl⟩) rfl
  | create =>
      by_cases hzero : s.config.increments % 2 = 0
      · exact hsucc hzero (BitVec.add_eq_or_of_and_eq_zero _ _ (hparity.mpr hzero)).symm
      · have hodd : s.config.increments % 2 = 1 := by omega
        have hor : Call.create.seq s.config.word = s.config.word := by
          rw [Call.seq, h.config.word]
          exact or_one_of_odd hodd
        refine ⟨s.config.increments, hodd, Or.inl rfl, ?_⟩
        rw [hor, Lock.setWord_self, ← h.config.word]

theorem Safe.access {call : Call} {seq : BitVec 32} {access : Access}
    {accesses : List Access} (h : Safe s)
    (hi : s.doing i = .storing call seq (access :: accesses)) :
    Safe ((s.access seq access).moveTo i (.storing call seq accesses)) := by
  have hfit := h.fits i
  rw [hi] at hfit
  obtain ⟨hseq, hcalls⟩ := hfit
  have hfits : (Doing.storing call seq accesses).Fits s.config :=
    ⟨hseq, hcalls.imp_right fun hall other hother => hall other (List.mem_cons_of_mem _ hother)⟩
  have hphase : (s.doing i).configPhase =
      .holding ((access :: accesses).filterMap Access.configStore) call.fields := by rw [hi]; rfl
  have hcreates : (Doing.storing call seq accesses).Creates ∨ (∃ j, j ≠ i ∧ (s.doing j).Creates) →
      s.anchor.completed = [] ∧ (Doing.storing call seq accesses).anchorPhase = .outside ∧
        ∀ j, j ≠ i → (s.doing j).anchorPhase = .outside := by
    intro hsome
    have hex : ∃ j, (s.doing j).Creates := by
      rcases hsome with hself | ⟨j, -, hj⟩
      · refine ⟨i, ?_⟩
        rw [hi]
        cases call with
        | create => trivial
        | write state => exact hself
      · exact ⟨j, hj⟩
    obtain ⟨hcompleted, hall⟩ := h.creates hex
    exact ⟨hcompleted, rfl, fun j _ => hall j⟩
  have hanchor : Sound AnchorClaimed (fun _ => True) s.anchor
      (Function.update (fun j => (s.doing j).anchorPhase) i .outside) := h.anchor.outside i
  have hcreate : (∀ store, access ≠ .config store) → s.anchor.completed = [] ∧
      ∀ j, Function.update (fun j => (s.doing j).anchorPhase) i .outside j = .outside := by
    intro hnot
    obtain rfl : call = .create := by
      refine hcalls.resolve_right fun hall => ?_
      obtain ⟨store, rfl⟩ := hall access List.mem_cons_self
      exact hnot store rfl
    obtain ⟨hcompleted, hall⟩ := h.creates ⟨i, hi ▸ trivial⟩
    refine ⟨hcompleted, fun j => ?_⟩
    rw [Function.update_apply]
    split_ifs
    · rfl
    · exact hall j
  cases access with
  | config store =>
      refine h.of_moveTo ?_ hanchor hfits (Or.inl ⟨rfl, rfl⟩) hcreates
      exact h.config.store hphase
  | epoch =>
      have hself : s.config.setWord seq = s.config := by rw [hseq, Lock.setWord_self]
      refine h.of_moveTo ?_ hanchor ?_ (Or.inl ?_) hcreates
      · rw [hself]
        have hsame : Function.update (fun j => (s.doing j).configPhase) i
            (Doing.storing call seq accesses).configPhase = fun j => (s.doing j).configPhase :=
          Function.update_eq_self_iff.mpr hphase.symm
        rw [hsame]
        exact h.config
      · rwa [hself]
      · rw [hself]
        exact ⟨rfl, rfl⟩
  | generation =>
      obtain ⟨hcompleted, hall⟩ := hcreate nofun
      refine h.of_moveTo ?_ (h.anchor.outside i |>.reset hall rfl hcompleted trivial)
        hfits (Or.inl ⟨rfl, rfl⟩)
        hcreates
      have hsame : Function.update (fun j => (s.doing j).configPhase) i
          (Doing.storing call seq accesses).configPhase = fun j => (s.doing j).configPhase :=
        Function.update_eq_self_iff.mpr hphase.symm
      rw [hsame]
      exact h.config
  | anchor store =>
      obtain ⟨hcompleted, hall⟩ := hcreate nofun
      refine h.of_moveTo ?_
        (h.anchor.outside i |>.reset hall h.anchor.word hcompleted trivial) hfits
        (Or.inl ⟨rfl, rfl⟩) hcreates
      have hsame : Function.update (fun j => (s.doing j).configPhase) i
          (Doing.storing call seq accesses).configPhase = fun j => (s.doing j).configPhase :=
        Function.update_eq_self_iff.mpr hphase.symm
      rw [hsame]
      exact h.config

omit [DecidableEq ι] in
theorem Safe.not_creates (h : Safe s) (hi : (s.doing i).anchorPhase ≠ .outside) :
    ∀ j, ¬(s.doing j).Creates :=
  fun j hj => hi ((h.creates ⟨j, hj⟩).2 i)

theorem Safe.of_anchor {anchor : Lock AnchorCell Nat} (h : Safe s)
    (hnone : ∀ j, ¬(s.doing j).Creates) (hconfig : doing.configPhase = .outside)
    (hanchor : Sound AnchorClaimed (fun _ => True) anchor
      (Function.update (fun j => (s.doing j).anchorPhase) i doing.anchorPhase))
    (hfits : doing.Fits s.config) : Safe (State.moveTo { s with anchor := anchor } i doing) := by
  refine h.of_moveTo ?_ hanchor hfits (Or.inl ⟨rfl, rfl⟩) ?_
  · rw [hconfig]
    exact h.config.outside i
  · rintro (hself | ⟨j, -, hj⟩)
    · have hwrites := hself.writes
      rw [hconfig] at hwrites
      exact hwrites.elim
    · exact absurd hj (hnone j)

/-- The configuration changes. -/
theorem Safe.of_config {config : Lock ConfigCell Nat} (h : Safe s)
    (hconfig : Sound Claimed (fun config => config .magic = 0) config
      (Function.update (fun j => (s.doing j).configPhase) i doing.configPhase))
    (hanchor : doing.anchorPhase = .outside) (hfits : doing.Fits config)
    (hothers : config.word = s.config.word ∧ config.increments = s.config.increments ∨
      ∀ j, j ≠ i → ¬(s.doing j).configPhase.Writes)
    (hcreates : doing.Creates → (s.doing i).Creates) :
    Safe (State.moveTo { s with config := config } i doing) := by
  refine h.of_moveTo hconfig ?_ hfits hothers ?_
  · rw [hanchor]
    exact h.anchor.outside i
  · intro hsome
    have hex : ∃ j, (s.doing j).Creates := by
      rcases hsome with hself | ⟨j, -, hj⟩
      · exact ⟨i, hcreates hself⟩
      · exact ⟨j, hj⟩
    obtain ⟨hcompleted, hall⟩ := h.creates hex
    exact ⟨hcompleted, hanchor, fun j _ => hall j⟩

/-- A writer of the configuration. -/
theorem Safe.lock {call : Call} {seq : BitVec 32} (h : Safe s)
    (hi : s.doing i = .locking call seq) :
    Safe (State.moveTo { s with config := s.config.setWord seq }
      i (.storing call seq call.accesses)) := by
  have halone : ∀ j, j ≠ i → ¬(s.doing j).configPhase.Writes :=
    h.config.not_writes (by simp only [hi]; trivial)
  obtain ⟨increments, hodd, hle, heq⟩ := h.setWord_seq hi
  have hword : (s.config.setWord seq).word = seq := rfl
  refine h.of_config ?_ rfl ⟨hword.symm, ?_⟩ (Or.inr halone) ?_
  · rw [heq]
    exact h.config.begin halone hodd hle (agreeOn_accesses call s.config.memory)
  · cases call with
    | create => exact Or.inl rfl
    | write state =>
        refine Or.inr fun access haccess => ?_
        obtain ⟨store, -, rfl⟩ := List.mem_map.mp haccess
        exact ⟨store, rfl⟩
  · intro hcreates
    rw [hi]
    cases call with
    | create => trivial
    | write state => exact hcreates

theorem Safe.finish {call : Call} {seq : BitVec 32} (h : Safe s)
    (hi : s.doing i = .storing call seq []) :
    Safe (State.moveTo { s with config := (s.config.setWord (seq + 1)).complete call.fields }
      i .idle) := by
  have hfit := h.fits i
  rw [hi] at hfit
  obtain ⟨rfl, -⟩ := hfit
  refine h.of_config ?_ rfl trivial
    (Or.inr (h.config.not_writes (by simp only [hi]; trivial))) nofun
  rw [Lock.setWord_succ h.config.word]
  exact h.config.finish (by simp only [hi]; rfl)

/-- A step that meets the conditions keeps both locks sound. -/
theorem Safe.step {event : Event ι} (h : Safe s) (horderly : Orderly s event)
    (hstep : Step s event s') :
    Safe s' := by
  cases hstep with
  | @beginCreate i hi =>
      have hfree : ∀ j, ¬(s.doing j).configPhase.Writes := fun j => (horderly j).1
      have hall : ∀ j, (s.doing j).anchorPhase = .outside := fun j => (horderly j).2
      have hidle :
        ∀ j, Function.update (fun j => (s.doing j).anchorPhase) i .outside j = .outside := by
        intro j
        rw [Function.update_apply]
        split_ifs
        · rfl
        · exact hall j
      exact h.of_moveTo (h.config.enter hfree)
        ((h.anchor.outside i).reset hidle h.anchor.word rfl trivial)
        ⟨rfl, nofun⟩ (Or.inl ⟨rfl, rfl⟩) fun _ => ⟨rfl, rfl, fun j _ => hall j⟩
  | @beginWrite i state hi =>
      obtain ⟨hfree, heven⟩ := horderly
      have hparity := word_and_one_eq_zero_iff s.config.increments
      rw [← h.config.word] at hparity
      exact h.of_config (h.config.enter hfree) rfl ⟨rfl, fun _ => hparity.mp heven⟩
        (Or.inl ⟨rfl, rfl⟩) nofun
  | lock hi => exact h.lock hi
  | access hi => exact h.access hi
  | finish hi => exact h.finish hi
  | read hi hmagic => exact h.moveTo_outside rfl rfl trivial id
  | noMagic hi hmagic => exact h
  | @loadEpoch i retry hi hretry =>
      refine h.of_config (h.config.startRead i) rfl ⟨h.config.word, ?_⟩ (Or.inl ⟨rfl, rfl⟩) nofun
      exact fun cell hcell => Or.inl hcell
  | @load i retry before reading cell cells hi =>
      have hfit := h.fits i
      rw [hi] at hfit
      have hphase : (s.doing i).configPhase = .reading reading := by rw [hi]; rfl
      exact h.of_config (h.config.load hphase cell) rfl ⟨hfit.1, hfit.2.load _⟩
        (Or.inl ⟨rfl, rfl⟩) nofun
  | accept hi hsame heven => exact h.moveTo_outside rfl rfl trivial id
  | retry hi hchanged => exact h.moveTo_outside rfl rfl trivial id
  | fail hi => exact h.moveTo_outside rfl rfl trivial id
  | @beginAnchor i anchor hi =>
      obtain ⟨hfree, heven⟩ := horderly
      have hparity := word_and_one_eq_zero_iff s.anchor.increments
      rw [← h.anchor.word] at hparity
      have hzero := hparity.mp heven
      refine h.of_anchor (fun j => (hfree j).2) rfl ?_ trivial
      rw [State.generation, Lock.setWord_succ h.anchor.word]
      exact h.anchor.begin (fun j _ => (hfree j).1) (by omega) (Or.inr rfl)
        (agreeOn_anchorCells anchor s.anchor.memory)
  | @storeAnchor i anchor store stores hi =>
      have hphase : (s.doing i).anchorPhase = .holding (store :: stores) anchor := by rw [hi]; rfl
      refine h.of_anchor (h.not_creates (i := i) ?_) rfl (h.anchor.store hphase) trivial
      rw [hphase]
      nofun
  | @finishAnchor i anchor hi =>
      have hphase : (s.doing i).anchorPhase = .holding [] anchor := by rw [hi]; rfl
      refine h.of_anchor (h.not_creates (i := i) ?_) rfl ?_ trivial
      · rw [hphase]
        nofun
      · rw [State.generation, Lock.setWord_succ h.anchor.word]
        exact h.anchor.finish hphase
  | readAnchor hi => exact h.moveTo_outside rfl rfl trivial id
  | @loadGeneration i retry hi hretry heven =>
      have hparity := word_and_one_eq_zero_iff s.anchor.increments
      rw [← h.anchor.word] at hparity
      refine h.of_anchor horderly rfl (h.anchor.startRead i) ⟨h.anchor.word, hparity.mp heven, ?_⟩
      exact fun cell hcell => Or.inl hcell
  | anchorOdd hi hretry hodd => exact h.moveTo_outside rfl rfl trivial id
  | @loadAnchor i retry g1 reading cell cells hi =>
      have hfit := h.fits i
      rw [hi] at hfit
      have hphase : (s.doing i).anchorPhase = .reading reading := by rw [hi]; rfl
      refine h.of_anchor (h.not_creates (i := i) ?_) rfl (h.anchor.load hphase cell)
        ⟨hfit.1, hfit.2.1, hfit.2.2.load _⟩
      rw [hphase]
      nofun
  | acceptAnchor hi hsame => exact h.moveTo_outside rfl rfl trivial id
  | anchorChanged hi hchanged => exact h.moveTo_outside rfl rfl trivial id
  | failAnchor hi => exact h.moveTo_outside rfl rfl trivial id
  | die => exact h.moveTo_outside rfl rfl trivial id

omit [DecidableEq ι] in
theorem Safe.read {retry : Nat} {reading : Reading ConfigCell Nat} (h : Safe s)
    (hi : s.doing i = .copying retry s.epoch reading []) (heven : s.epoch &&& 1 = 0)
    (hlt : s.config.increments < reading.begun + 2 ^ 32)
    (hvalid : IsValid (loadedState reading.loaded)) :
    ∃ fields ∈ s.config.completed, AgreeOn Claimed (loadedState reading.loaded) fields := by
  have hfit := h.fits i
  rw [hi] at hfit
  obtain ⟨hbefore, hcovers⟩ := hfit
  have hparity := word_and_one_eq_zero_iff reading.begun
  rw [← hbefore] at hparity
  have hphase : (s.doing i).configPhase = .reading reading := by rw [hi]; rfl
  have hmem : ∀ cell ∈ readCells, (cell, loadedState reading.loaded cell) ∈ reading.loaded :=
    fun cell hcell => mem_loadedState ((hcovers cell hcell).resolve_left List.not_mem_nil)
  obtain ⟨-, config, hzero, hloaded⟩ | ⟨fields, hcompleted, hloaded⟩ :=
    h.config.read hphase (hparity.mp heven) hbefore hlt
  · have hmagic : loadedState reading.loaded .magic = config .magic :=
      hloaded _ (hmem .magic List.mem_cons_self)
    rw [IsValid, hmagic, hzero] at hvalid
    exact absurd hvalid.1 (by decide)
  · exact ⟨fields, hcompleted, fun cell hcell =>
      hloaded _ (hmem cell (List.mem_of_mem_drop (mem_readCells_drop hcell))) hcell⟩

omit [DecidableEq ι] in
theorem Safe.readAnchor {retry : Nat} {reading : Reading AnchorCell Nat} (h : Safe s)
    (hi : s.doing i = .anchorCopying retry s.generation reading [])
    (hwritten : s.anchor.completed ≠ []) (hlt : s.anchor.increments < reading.begun + 2 ^ 32) :
    ∃ fields ∈ s.anchor.completed, AgreeOn AnchorClaimed (loadedState reading.loaded) fields := by
  have hfit := h.fits i
  rw [hi] at hfit
  obtain ⟨hg1, heven, hcovers⟩ := hfit
  have hphase : (s.doing i).anchorPhase = .reading reading := by rw [hi]; rfl
  obtain ⟨hnone, -⟩ | ⟨fields, hcompleted, hloaded⟩ := h.anchor.read hphase heven hg1 hlt
  · exact absurd hnone hwritten
  · refine ⟨fields, hcompleted, fun cell hcell => hloaded (cell, _) (mem_loadedState ?_) hcell⟩
    exact (hcovers cell (mem_anchorCells hcell)).resolve_left List.not_mem_nil

/-- The reads that return a valid state, or an anchor, return what one completed writer has
stored. -/
def NotTorn (s : State ι) : Event ι → Prop
  | .readReturns _ state => IsValid state →
      ∃ fields ∈ s.config.completed, AgreeOn Claimed state fields
  | .anchorReturns _ (some anchor) => ∃ fields ∈ s.anchor.completed,
      AgreeOn AnchorClaimed anchor fields
  | _ => True

/-- After every run whose steps meet the conditions the reads are not torn. -/
theorem notTorn_of_run {events : List (Event ι)} {event : Event ι}
    (h : Run (Meeting Orderly Step) (State.initial : State ι) events s) (horderly : Orderly s event)
    (hstep : Step s event s') : NotTorn s event := by
  have hsafe : Safe s := by
    apply h.invariant Safe.initial
    exact fun _ _ _ hbefore hstep => hbefore.step hstep.1 hstep.2
  have hzero : ¬IsValid fun _ => 0 := fun hvalid => absurd hvalid.1 (by decide)
  cases hstep with
  | noMagic | fail => exact fun hvalid => absurd hvalid hzero
  | @accept i retry before reading hi hsame heven =>
      subst hsame
      intro hvalid
      exact hsafe.read hi heven (horderly reading (by rw [hi]; rfl)) hvalid
  | @acceptAnchor i retry g1 reading hi hsame =>
      subst hsame
      obtain ⟨hwritten, hlt⟩ := horderly reading (by rw [hi]; rfl)
      exact hsafe.readAnchor hi hwritten hlt
  | _ => trivial

/-! ## Processes that nobody disturbs -/

/-- A writer that nobody disturbs makes its stores. -/
theorem run_accesses {call : Call} {seq : BitVec 32} {rest accesses : List Access}
    (hi : s.doing i = .storing call seq (accesses ++ rest)) (hseq : s.config.word = seq) :
    ∃ events s', Run (Meeting Orderly Step) s events s' ∧
      s'.doing = Function.update s.doing i (.storing call seq rest) ∧
      s'.config = { s.config with
        memory := applyStores (accesses.filterMap Access.configStore) s.config.memory } := by
  induction accesses generalizing s with
  | nil => exact ⟨[], s, .nil, (Function.update_eq_self_iff.mpr hi.symm).symm, rfl⟩
  | cons access accesses ih =>
      have hconfig : (s.access seq access).config = { s.config with
          memory := applyStores ([access].filterMap Access.configStore) s.config.memory } := by
        cases access with
        | epoch => exact hseq ▸ Lock.setWord_self s.config
        | config | generation | anchor => rfl
      have hword : ((s.access seq access).moveTo i
        (.storing call seq (accesses ++ rest))).config.word = seq := by
        rw [State.moveTo, hconfig]
        exact hseq
      obtain ⟨events, s', hrun, hdoing, hmemory⟩ := ih (Function.update_self ..) hword
      refine ⟨.step i :: events, s', .cons ⟨trivial, .access hi⟩ hrun, ?_, ?_⟩
      · have hstate : (s.access seq access).doing = s.doing := by cases access <;> rfl
        rw [hdoing, State.moveTo, hstate]
        exact Function.update_idem ..
      · rw [hmemory, State.moveTo, hconfig, ← applyStores_append, ← List.filterMap_append]
        rfl

/-- A reader that nobody disturbs loads the memory. -/
theorem run_loads {retry : Nat} {before : BitVec 32} {reading : Reading ConfigCell Nat}
    {cells : List ConfigCell} (hi : s.doing i = .copying retry before reading cells) :
    ∃ events s' loaded, Run (Meeting Orderly Step) s events s' ∧
      s'.config = s.config ∧ s'.doing i = .copying retry before { reading with loaded } [] ∧
      (∀ entry ∈ loaded, entry ∈ reading.loaded ∨ entry.2 = s.config.memory entry.1) ∧
      ∀ cell, cell ∈ cells ∨ (∃ value, (cell, value) ∈ reading.loaded) → ∃ value,
      (cell, value) ∈ loaded := by
  induction cells generalizing s reading with
  | nil =>
      refine ⟨[], s, reading.loaded, .nil, rfl, hi, fun _ => Or.inl, fun cell hcell => ?_⟩
      exact hcell.resolve_left List.not_mem_nil
  | cons cell cells ih =>
      have hnext : (s.moveTo i (.copying retry before
          { reading with loaded := (cell, s.config.memory cell) :: reading.loaded }
            cells)).doing i = _ :=
        Function.update_self ..
      obtain ⟨events, s', loaded, hrun, hconfig, hdoing, hentries, hcovers⟩ := ih hnext
      refine ⟨.step i :: events, s', loaded, .cons ⟨trivial, .load hi⟩ hrun, hconfig, hdoing,
        fun entry hentry => ?_, ?_⟩
      · rcases hentries entry hentry with hmem | heq
        · rcases List.mem_cons.mp hmem with rfl | hmem
          · exact Or.inr rfl
          · exact Or.inl hmem
        · exact Or.inr heq
      · rintro other (hmem | ⟨value, hvalue⟩)
        · rcases List.mem_cons.mp hmem with rfl | hmem
          · exact hcovers other (Or.inr ⟨_, List.mem_cons_self⟩)
          · exact hcovers other (Or.inl hmem)
        · exact hcovers other (Or.inr ⟨value, List.mem_cons_of_mem _ hvalue⟩)

/-- A read that nobody disturbs returns the memory. -/
theorem run_read (hi : s.doing i = .idle)
    (hmagic : s.config.memory .magic = SharedStateManager.Header.magicValue.toNat)
    (heven : s.epoch &&& 1 = 0) :
    ∃ events s' s'' state, Run (Meeting Orderly Step) s events s' ∧ s'.config = s.config ∧
      Step s' (.readReturns i state) s'' ∧ Orderly s' (.readReturns i state) ∧
      ∀ cell ∈ readCells, state cell = s.config.memory cell := by
  have hattempting : (s.moveTo i (.attempting 0)).doing i = _ := Function.update_self ..
  have hcopying : ((s.moveTo i (.attempting 0)).moveTo i
      (.copying 0 s.epoch ⟨s.config.increments, []⟩
        readCells)).doing i = _ := Function.update_self ..
  obtain ⟨events, s', loaded, hrun, hconfig, hdoing, hentries, hcovers⟩ := run_loads hcopying
  have hepoch : s.epoch = s'.epoch := by
    rw [State.epoch, State.epoch, hconfig]
    rfl
  refine ⟨.read i :: .loadEpoch i :: events, s', _, _,
    .cons ⟨trivial, .read hi hmagic⟩ (.cons ⟨trivial, .loadEpoch hattempting (by decide)⟩ hrun),
      hconfig, .accept hdoing hepoch heven, ?_, fun cell hcell => ?_⟩
  · intro reading hreading
    rw [hdoing] at hreading
    obtain rfl := Phase.reading.inj hreading
    rw [hconfig]
    show s.config.increments < s.config.increments + 2 ^ 32
    omega
  · rcases hentries _ (mem_loadedState (hcovers cell (Or.inl hcell))) with hnil | heq
    · exact absurd hnil List.not_mem_nil
    · exact heq

/-- The header that `Create` leaves. -/
theorem applyStores_create {cell : ConfigCell} (config : Config)
    (h : Claimed cell ∨ cell = .magic ∨ cell = .structVersion ∨ cell = .structSize) :
    applyStores (Call.create.accesses.filterMap Access.configStore) config cell =
      initDefaults cell := by
  have hcopied : ∀ cell ≠ .magic, .config (copy initDefaults cell) ∈ createAccesses →
      applyStores (Call.create.accesses.filterMap Access.configStore) config cell =
        initDefaults cell := by
    intro cell hcell hmem
    apply applyStores_of_mem
    · rintro store hstore rfl memory
      rcases store_createAccesses (mem_configStores.mp hstore) with rfl | heq
      · exact absurd rfl hcell
      · rw [heq]
        rfl
    · exact Or.inr ⟨_, mem_configStores.mpr hmem, rfl⟩
  rcases h with hclaimed | rfl | rfl | rfl
  · exact agreeOn_accesses .create config cell hclaimed
  · rw [Call.accesses, createAccesses, List.filterMap_append, applyStores_append]
    generalize applyStores _ config = before
    exact Function.update_self ConfigCell.magic _ before
  · exact hcopied _ nofun (by simp [createAccesses])
  · exact hcopied _ nofun (by simp [createAccesses])

/-- The block that `Create` leaves. -/
theorem run_create : ∃ events, ∃ s : State Nat, Run (Meeting Orderly Step) State.initial events s ∧
    (∀ i, s.doing i = .idle) ∧ s.epoch = 2 ∧ s.config.completed = [initDefaults] ∧
    ∀ cell, Claimed cell ∨ cell = .magic ∨ cell = .structVersion ∨ cell = .structSize →
      s.config.memory cell = initDefaults cell := by
  obtain ⟨s₁, hbegin, hdoing₁, hconfig₁⟩ : ∃ s₁ : State Nat,
      Meeting Orderly Step State.initial (.beginCreate 0) s₁ ∧
      s₁.doing = Function.update (fun _ => .idle) 0 (.locking .create 1) ∧ s₁.config =
        ⟨0, fun _ => 0, 0, []⟩ :=
    ⟨_, ⟨fun _ => ⟨id, rfl⟩, .beginCreate rfl⟩, rfl, rfl⟩
  have hlocking : s₁.doing 0 = .locking .create 1 := by rw [hdoing₁, Function.update_self]
  obtain ⟨s₂, hlock, hdoing₂, hconfig₂⟩ : ∃ s₂ : State Nat, Meeting Orderly Step s₁ (.step 0) s₂ ∧
      s₂.doing = Function.update (fun _ => .idle) 0 (.storing .create 1 Call.create.accesses) ∧
      s₂.config = ⟨1, fun _ => 0, 1, []⟩ := by
    refine ⟨_, ⟨trivial, .lock hlocking⟩, ?_, ?_⟩
    · rw [State.moveTo, hdoing₁]
      exact Function.update_idem ..
    · rw [State.moveTo, hconfig₁]
      rfl
  have hstoring : s₂.doing 0 = .storing .create 1 (Call.create.accesses ++ []) := by
    rw [hdoing₂, Function.update_self, List.append_nil]
  obtain ⟨events, s₃, hrun, hdoing₃, hconfig₃⟩ :=
    run_accesses hstoring (congrArg Lock.word hconfig₂)
  have hstored : s₃.doing 0 = .storing .create 1 [] := by rw [hdoing₃, Function.update_self]
  have hfinish : Meeting Orderly Step s₃ (.finish 0) _ := ⟨trivial, .finish hstored⟩
  refine ⟨.beginCreate 0 :: .step 0 :: (events ++ [.finish 0]), _,
    .cons hbegin (.cons hlock (hrun.snoc hfinish)), fun i => ?_, rfl, ?_, fun cell hcell => ?_⟩
  · rw [State.moveTo, hdoing₃, hdoing₂]
    simp only [Function.update_idem, Function.update_apply]
    split_ifs <;> rfl
  · rw [State.moveTo, hconfig₃, hconfig₂]
    rfl
  · have hmemory : s₃.config.memory =
        applyStores (Call.create.accesses.filterMap Access.configStore) fun _ =>
          0 := by rw [hconfig₃, hconfig₂]
    exact (congrFun hmemory cell).trans (applyStores_create _ hcell)

theorem isValid_of_header {state : Config} (hmagic : state .magic = initDefaults .magic)
    (hversion : state .structVersion = initDefaults .structVersion)
    (hsize : state .structSize = initDefaults .structSize) : IsValid state := by
  rw [IsValid, hmagic, hversion, hsize]
  decide

/-- The first read after `Create` has the defaults. -/
theorem notTorn_after_create : ∃ events, ∃ s : State Nat, Run Step State.initial events s ∧
    ∃ state s', Step s (.readReturns 0 state) s' ∧ IsValid state ∧
    NotTorn s (.readReturns 0 state) := by
  obtain ⟨events, s, hrun, hidle, hepoch, -, hmemory⟩ := run_create
  have heven : s.epoch &&& 1 = 0 := by
    rw [hepoch]
    decide
  obtain ⟨events', s', s'', state, hread, hconfig, hstep, horderly, hstate⟩ :=
    run_read (hidle 0) (hmemory .magic (Or.inr (Or.inl rfl))) heven
  refine ⟨events ++ events', s', (hrun.append hread).mono fun _ _ _ hmeet =>
    hmeet.2, state, s'', hstep,
    isValid_of_header ?_ ?_ ?_, notTorn_of_run (hrun.append hread) horderly hstep⟩
  · rw [hstate _ (by simp [readCells]), hmemory _ (by simp)]
  · rw [hstate _ (by simp [readCells]), hmemory _ (by simp)]
  · rw [hstate _ (by simp [readCells]), hmemory _ (by simp)]

/-- A setting that differs from the defaults. -/
def otherInputMethod : Config
  | .inputMethod => 1
  | .spellCheck => 1
  | cell => initDefaults cell

/-- A writer stops after it has made the epoch odd, and the next one makes it even: a read in
between has the input method of the second writer with the spell check of `Create`. -/
theorem not_notTorn_of_run : ¬∀ (events : List (Event Nat)) (event : Event Nat) (s s' : State Nat),
    Run Step State.initial events s → Step s event s' → NotTorn s event := by
  intro h
  obtain ⟨events, s, hrun, hidle, hepoch, hcompleted, hmemory⟩ := run_create
  have hstart : Run Step State.initial events s := hrun.mono fun _ _ _ hmeet => hmeet.2
  have hne : (0 : Nat) ≠ 2 := by decide
  -- the first writer makes the epoch odd
  obtain ⟨s₁, hbegin, hlocking, hconfig₁, hothers₁⟩ :
    ∃ s₁, Step s (.beginWrite 1 otherInputMethod) s₁ ∧
      s₁.doing 1 = .locking (.write otherInputMethod) (s.epoch + 1) ∧ s₁.config = s.config ∧
      ∀ j, j ≠ 1 → s₁.doing j = .idle :=
    ⟨_, .beginWrite (hidle 1), s.doing_moveTo_self .., rfl, fun j hj =>
      (s.doing_moveTo_of_ne hj ..).trans (hidle j)⟩
  obtain ⟨s₂, hlock, hconfig₂, hothers₂⟩ : ∃ s₂, Step s₁ (.step 1) s₂ ∧
      s₂.config = s.config.setWord (s.epoch + 1) ∧ ∀ j, j ≠ 1 → s₂.doing j = .idle :=
    ⟨_, .lock hlocking, congrArg (fun config => config.setWord (s.epoch + 1)) hconfig₁,
      fun j hj => (State.doing_moveTo_of_ne _ hj ..).trans (hothers₁ j hj)⟩
  -- the second one makes it even, and stores the header and the input method
  have hwriter : s₂.doing 2 = .idle := hothers₂ 2 (by decide)
  obtain ⟨s₃, hbegin', hlocking', hconfig₃, hreader₃⟩ :
    ∃ s₃, Step s₂ (.beginWrite 2 otherInputMethod) s₃ ∧
      s₃.doing 2 = .locking (.write otherInputMethod) (s₂.epoch + 1) ∧ s₃.config = s₂.config ∧
      s₃.doing 0 = .idle :=
    ⟨_, .beginWrite hwriter, s₂.doing_moveTo_self .., rfl,
      (s₂.doing_moveTo_of_ne hne ..).trans (hothers₂ 0 (by decide))⟩
  obtain ⟨s₄, hlock', hstoring, hconfig₄, hreader₄⟩ : ∃ s₄, Step s₃ (.step 2) s₄ ∧
      s₄.doing 2 = .storing (.write otherInputMethod) (s₂.epoch + 1)
        (Call.write otherInputMethod).accesses ∧
      s₄.config = s₂.config.setWord (s₂.epoch + 1) ∧ s₄.doing 0 = .idle :=
    ⟨_, .lock hlocking', State.doing_moveTo_self ..,
      congrArg (fun config => config.setWord (s₂.epoch + 1)) hconfig₃,
      (State.doing_moveTo_of_ne _ hne ..).trans hreader₃⟩
  have hsplit : (Call.write otherInputMethod).accesses =
      (((writeStores otherInputMethod).take 5).map .config : List Access) ++
        ((writeStores otherInputMethod).drop 5).map .config := by
    rw [← List.map_append, List.take_append_drop]
    rfl
  rw [hsplit] at hstoring
  obtain ⟨events', s₅, hstores, hdoing₅, hconfig₅⟩ :=
    run_accesses hstoring (congrArg Lock.word hconfig₄)
  have hmemory₅ :
    s₅.config.memory = applyStores ((writeStores otherInputMethod).take 5) s.config.memory := by
    rw [hconfig₅, hconfig₄, hconfig₂]
    rfl
  have hepoch₅ : s₅.epoch = 4 := by
    rw [State.epoch, hconfig₅, hconfig₄]
    show s₂.epoch + 1 = 4
    rw [State.epoch, hconfig₂]
    show s.epoch + 1 + 1 = 4
    rw [hepoch]
    rfl
  have hreader₅ : s₅.doing 0 = .idle := by rw [hdoing₅, Function.update_of_ne hne, hreader₄]
  have hcompleted₅ : s₅.config.completed = [initDefaults] := by
    rw [hconfig₅, hconfig₄, hconfig₂]
    exact hcompleted
  have heven : s₅.epoch &&& 1 = 0 := by
    rw [hepoch₅]
    decide
  have hmagic₅ : s₅.config.memory .magic = initDefaults .magic := by
    rw [hmemory₅]
    rfl
  obtain ⟨events'', s₆, s₇, state, hread, hconfig₆, hstep, -, hstate⟩ :=
    run_read hreader₅ hmagic₅ heven
  have hrun₄ : Run Step State.initial (events ++ [.beginWrite 1 otherInputMethod, .step 1,
      .beginWrite 2 otherInputMethod, .step 2]) s₄ :=
    hstart.append (.cons hbegin (.cons hlock (.cons hbegin' (.cons hlock' .nil))))
  have hrun₆ : Run Step s₄ (events' ++ events'') s₆ :=
    (hstores.append hread).mono fun _ _ _ hmeet => hmeet.2
  obtain ⟨fields, hmem, hagree⟩ := h _ _ _ _ (hrun₄.append hrun₆) hstep (isValid_of_header
    (by rw [hstate _ (by simp [readCells]), hmemory₅]; rfl)
      (by rw [hstate _ (by simp [readCells]), hmemory₅]; rfl)
    (by rw [hstate _ (by simp [readCells]), hmemory₅]; rfl))
  rw [hconfig₆, hcompleted₅, List.mem_singleton] at hmem
  have hinput := hagree .inputMethod trivial
  rw [hmem, hstate _ (by simp [readCells]), hmemory₅] at hinput
  exact absurd (show (1 : Nat) = 0 from hinput) Nat.one_ne_zero

end StateBlock

end VKey
