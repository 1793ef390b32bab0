import VKey.Ipc.BrowserContext

/-!
# The lock and the fields of the browser context

While the generation is even the block has the fields that the last completed writer has left, as
long as nobody mends the block of a `Publish` that died in its write but another `Publish`.
-/

namespace VKey

namespace BrowserContext

open Seqlock

variable {ι : Type}

/-- A mode event or a clear does not begin on the fields of a `Publish` that has not completed; the
creator initialises the block before the first write; a read begins after the first completed
`Publish`, and fewer than `2 ^ 32` increments come before its end. -/
def Orderly (s : State ι) : Event ι → Prop
  | .begin _ (.publish _) => True
  | .begin _ _ => ¬s.dirty
  | .step i => (s.doing i = .constructing ∨ ∃ stores, s.doing i = .initialising stores) →
      s.increments = 0
  | .beginRead _ => s.left ≠ []
  | .readReturns i _ => ∀ attempt before reading cells,
      s.doing i = .reading attempt before reading cells → s.increments < reading.begun + 2 ^ 32
  | _ => True

/-! ## The stores of the writers -/

section Stores

variable {block : Block}

theorem mem_memset {cell : Nat → Cell} {size : Nat} {store : Store Cell Nat} :
    store ∈ memset cell size ↔ ∃ i < size, put (cell i) 0 = store := by
  simp [memset]

theorem mem_memcpy {cell : Nat → Cell} {bytes : List Nat} {store : Store Cell Nat} :
    store ∈ memcpy cell bytes ↔ ∃ i, ∃ h : i < bytes.length, put (cell i) bytes[i] = store := by
  rw [memcpy, List.mem_mapIdx]

/-- A string is cleared and then copied. -/
theorem applyStores_string {cell : Nat → Cell} (hcell : Function.Injective cell) {size : Nat}
    {bytes : List Nat} {i : Nat} (hi : i < size) (block : Block) :
    applyStores (storeString cell size bytes) block (cell i) = (bytes[i]?).getD 0 := by
  rw [storeString, applyStores_append]
  have hzero : applyStores (memset cell size) block (cell i) = 0 := by
    apply applyStores_of_mem
    · intro store hstore _ _
      obtain ⟨j, -, rfl⟩ := mem_memset.mp hstore
      rfl
    · exact Or.inr ⟨put (cell i) 0, mem_memset.mpr ⟨i, hi, rfl⟩, rfl⟩
  by_cases hlt : i < bytes.length
  · rw [List.getElem?_eq_getElem hlt, Option.getD_some]
    apply applyStores_of_mem
    · intro store hstore heq _
      obtain ⟨j, hj, rfl⟩ := mem_memcpy.mp hstore
      obtain rfl := hcell heq
      rfl
    · exact Or.inr ⟨_, mem_memcpy.mpr ⟨i, hlt, rfl⟩, rfl⟩
  · rw [List.getElem?_eq_none (Nat.le_of_not_lt hlt), Option.getD_none, ← hzero]
    apply applyStores_of_notMem
    intro store hstore heq
    obtain ⟨j, hj, rfl⟩ := mem_memcpy.mp hstore
    obtain rfl := hcell heq
    exact hlt hj

theorem applyStores_otherString {cell : Nat → Cell} {other : Cell} (hcell : ∀ i, cell i ≠ other)
    {size : Nat} {bytes : List Nat} (block : Block) :
    applyStores (storeString cell size bytes) block other = block other := by
  apply applyStores_of_notMem
  intro store hstore
  rcases List.mem_append.mp hstore with hstore | hstore
  · obtain ⟨i, -, rfl⟩ := mem_memset.mp hstore
    exact hcell i
  · obtain ⟨i, -, rfl⟩ := mem_memcpy.mp hstore
    exact hcell i

/-- A `Publish` stores what its request says. -/
theorem agree_publish (request : PublishRequest) (block : Block) :
    Agree (applyStores (Writer.publish request).stores block) request.fields := by
  intro cell hcell
  rw [Writer.stores, applyStores_append, applyStores_append]
  cases cell with
  | browserExe i =>
      rw [applyStores_otherString (by nofun),
        applyStores_string (fun _ _ => Cell.browserExe.inj) hcell]
      rfl
  | hostname i =>
      rw [applyStores_string (fun _ _ => Cell.hostname.inj) hcell]
      rfl
  | ownerProcessId | ownerNonce | updatedTickMs | focused | route | mode =>
      rw [applyStores_otherString (by nofun), applyStores_otherString (by nofun)]
      rfl
  | _ => exact hcell.elim

theorem hasValidHeader_publish (request : PublishRequest) (block : Block) :
    HasValidHeader (applyStores (Writer.publish request).stores block) := by
  rw [HasValidHeader, Writer.stores, applyStores_append, applyStores_append]
  refine ⟨?_, ?_, ?_⟩ <;>
  · rw [applyStores_otherString (by nofun), applyStores_otherString (by nofun)]
    rfl

/-- The cells that a mode event stores. -/
def ModeEventCell (cell : Cell) : Prop :=
  cell = .modeEventSequence ∨ cell = .modeEventOwnerProcessId ∨ cell = .modeEventOwnerNonce ∨
    cell = .modeEventMode ∨ ∃ i, cell = .modeEventHostname i

theorem modeEventCell_publishModeEvent {vietnamese : Bool} {store : Store Cell Nat}
    (h : store ∈ (Writer.publishModeEvent vietnamese).stores) : ModeEventCell store.1 := by
  simp only [Writer.stores, List.mem_append, List.mem_cons, List.not_mem_nil, or_false, mem_memset,
    List.mem_map] at h
  rcases h with ((rfl | rfl | rfl | rfl | rfl) | ⟨i, -, rfl⟩) | ⟨i, -, rfl⟩
  · exact Or.inl rfl
  · exact Or.inl rfl
  · exact Or.inr (Or.inl rfl)
  · exact Or.inr (Or.inr (Or.inl rfl))
  · exact Or.inr (Or.inr (Or.inr (Or.inl rfl)))
  · exact Or.inr (Or.inr (Or.inr (Or.inr ⟨i, rfl⟩)))
  · exact Or.inr (Or.inr (Or.inr (Or.inr ⟨i, rfl⟩)))

theorem ModeEventCell.not_claimed {cell : Cell} (h : ModeEventCell cell) : ¬Claimed cell := by
  rcases h with rfl | rfl | rfl | rfl | ⟨i, rfl⟩ <;> exact id

theorem applyStores_publishModeEvent (vietnamese : Bool) (block : Block) {cell : Cell}
    (h : ¬ModeEventCell cell) :
    applyStores (Writer.publishModeEvent vietnamese).stores block cell = block cell := by
  apply applyStores_of_notMem
  rintro store hstore rfl
  exact h (modeEventCell_publishModeEvent hstore)

/-- The cells that `ClearIfOwned` stores. -/
def ClearedCell (cell : Cell) : Prop :=
  cell = .focused ∨ cell = .route ∨ cell = .mode ∨ cell = .updatedTickMs

/-- The fields of a block in which at most a `ClearIfOwned` has begun. -/
structure HalfCleared (block fields : Block) : Prop where
  kept : ∀ cell, Claimed cell → ¬ClearedCell cell → block cell = fields cell
  focused : block .focused ≠ 0 → Agree block fields

theorem Agree.halfCleared {fields : Block} (h : Agree block fields) : HalfCleared block fields :=
  ⟨fun cell hcell _ => h cell hcell, fun _ => h⟩

theorem cleared_of_not {cell : Cell} (hcell : ¬ClearedCell cell) (updatedTickMs : Nat)
    (fields : Block) : cleared updatedTickMs fields cell = fields cell := by
  cases cell with
  | focused => exact absurd (Or.inl rfl) hcell
  | route => exact absurd (Or.inr (Or.inl rfl)) hcell
  | mode => exact absurd (Or.inr (Or.inr (Or.inl rfl))) hcell
  | updatedTickMs => exact absurd (Or.inr (Or.inr (Or.inr rfl))) hcell
  | _ => rfl

theorem clearedCell_clearIfOwned {pid nonce tick : Nat} {store : Store Cell Nat}
    (h : store ∈ (Writer.clearIfOwned pid nonce tick).stores) : ClearedCell store.1 := by
  simp only [Writer.stores, List.mem_cons, List.not_mem_nil, or_false] at h
  rcases h with rfl | rfl | rfl | rfl
  · exact Or.inl rfl
  · exact Or.inr (Or.inl rfl)
  · exact Or.inr (Or.inr (Or.inl rfl))
  · exact Or.inr (Or.inr (Or.inr rfl))

theorem agree_clearIfOwned {fields : Block} (h : HalfCleared block fields) (pid nonce tick : Nat) :
    Agree (applyStores (Writer.clearIfOwned pid nonce tick).stores block)
    (cleared tick fields) := by
  intro cell hcell
  by_cases hcleared : ClearedCell cell
  · rcases hcleared with rfl | rfl | rfl | rfl <;> rfl
  · rw [cleared_of_not hcleared, ← h.kept cell hcell hcleared]
    apply applyStores_of_notMem
    rintro store hstore rfl
    exact hcleared (clearedCell_clearIfOwned hstore)

end Stores

/-! ## The lock -/

/-- The process holds the mutex. -/
def Doing.Holds : Doing → Prop
  | .checking _ => True
  | .writing _ _ => True
  | .leaving => True
  | _ => False

/-- The generation counts the increments, and is odd while a writer stores. -/
structure Locked (s : State ι) : Prop where
  generation : s.generation = BitVec.ofNat 32 s.increments
  holder : ∀ i, (s.doing i).Holds → s.holder = some i
  odd : ∀ i writer stores, s.doing i = .writing writer stores → s.increments % 2 = 1
  unmapped : s.mapped = false → ∀ i, s.doing i = .away
  left : s.left ≠ [] → s.increments ≠ 0

theorem Locked.mapped {s : State ι} (h : Locked s) {i : ι} (hi : s.doing i ≠ .away) :
    s.mapped ≠ false := fun hunmapped => hi (h.unmapped hunmapped i)

theorem Locked.eq_of_holds {s : State ι} (h : Locked s) {i j : ι} (hi : (s.doing i).Holds)
    (hj : (s.doing j).Holds) : j = i :=
  Option.some.inj ((h.holder j hj).symm.trans (h.holder i hi))

theorem Locked.initial : Locked (State.initial : State ι) where
  generation := rfl
  holder _ h := h.elim
  odd _ _ _ h := nomatch h
  unmapped _ _ := rfl
  left h := absurd rfl h

theorem beginSeqlockWrite_odd {s : State ι} (h : s.generation = BitVec.ofNat 32 s.increments) :
    s.beginSeqlockWrite.generation = BitVec.ofNat 32 s.beginSeqlockWrite.increments ∧
      s.beginSeqlockWrite.increments % 2 = 1 := by
  have hword := word_and_one_eq_zero_iff s.increments
  rw [← h] at hword
  rw [State.beginSeqlockWrite]
  split_ifs with heven
  · have hincrements := hword.mp heven
    refine ⟨?_, by dsimp only; omega⟩
    dsimp only
    rw [h, BitVec.ofNat_add]
    rfl
  · have hincrements : ¬s.increments % 2 = 0 := fun hzero => heven (hword.mpr hzero)
    exact ⟨h, by omega⟩

theorem holder_beginSeqlockWrite (s : State ι) : s.beginSeqlockWrite.holder = s.holder := by
  rw [State.beginSeqlockWrite]
  split_ifs <;> rfl

theorem doing_beginSeqlockWrite (s : State ι) : s.beginSeqlockWrite.doing = s.doing := by
  rw [State.beginSeqlockWrite]
  split_ifs <;> rfl

theorem mapped_beginSeqlockWrite (s : State ι) : s.beginSeqlockWrite.mapped = s.mapped := by
  rw [State.beginSeqlockWrite]
  split_ifs <;> rfl

theorem block_beginSeqlockWrite (s : State ι) : s.beginSeqlockWrite.block = s.block := by
  rw [State.beginSeqlockWrite]
  split_ifs <;> rfl

theorem left_beginSeqlockWrite (s : State ι) : s.beginSeqlockWrite.left = s.left := by
  rw [State.beginSeqlockWrite]
  split_ifs <;> rfl

theorem dirty_beginSeqlockWrite (s : State ι) : s.beginSeqlockWrite.dirty = s.dirty := by
  rw [State.beginSeqlockWrite]
  split_ifs <;> rfl

variable [DecidableEq ι]

theorem doing_moveTo_self (s : State ι) (i : ι) (doing : Doing) :
    (s.moveTo i doing).doing i = doing := Function.update_self ..

theorem doing_moveTo_of_ne (s : State ι) {i j : ι} (h : j ≠ i) (doing : Doing) :
    (s.moveTo i doing).doing j = s.doing j := Function.update_of_ne h ..

/-- One process moves, and the others are as they were. -/
theorem Locked.of_moveTo {s : State ι} {i : ι} {doing : Doing}
    (generation : s.generation = BitVec.ofNat 32 s.increments)
    (holder : doing.Holds → s.holder = some i)
    (others : ∀ j, j ≠ i → (s.doing j).Holds → s.holder = some j)
    (odd : ∀ writer stores, doing = .writing writer stores → s.increments % 2 = 1)
    (odds : ∀ j, j ≠ i → ∀ writer stores, s.doing j = .writing writer stores → s.increments % 2 = 1)
    (unmapped : s.mapped = false → doing = .away ∧ ∀ j, j ≠ i → s.doing j = .away)
    (left : s.left ≠ [] → s.increments ≠ 0) : Locked (s.moveTo i doing) where
  generation := generation
  holder j hj := by
    rcases eq_or_ne j i with rfl | hne
    · rw [doing_moveTo_self] at hj
      exact holder hj
    · rw [doing_moveTo_of_ne s hne] at hj
      exact others j hne hj
  odd j writer stores hj := by
    rcases eq_or_ne j i with rfl | hne
    · rw [doing_moveTo_self] at hj
      exact odd writer stores hj
    · rw [doing_moveTo_of_ne s hne] at hj
      exact odds j hne writer stores hj
  unmapped hunmapped j := by
    rcases eq_or_ne j i with rfl | hne
    · rw [doing_moveTo_self]
      exact (unmapped hunmapped).1
    · rw [doing_moveTo_of_ne s hne]
      exact (unmapped hunmapped).2 j hne
  left := left

theorem Locked.moveTo {s : State ι} (h : Locked s) {i : ι} {doing : Doing} (hi : s.doing i ≠ .away)
    (hholds : doing.Holds → (s.doing i).Holds)
    (hwriting : ∀ writer stores, doing = .writing writer stores → s.increments % 2 = 1) :
    Locked (s.moveTo i doing) :=
  .of_moveTo h.generation (fun hdoing => h.holder i (hholds hdoing))
    (fun j _ => h.holder j) hwriting
    (fun j _ => h.odd j) (fun hunmapped => absurd hunmapped (h.mapped hi)) h.left

theorem Locked.moveTo_outside {s : State ι} (h : Locked s) {i : ι} {doing : Doing}
    (hi : s.doing i ≠ .away) (hholds : ¬doing.Holds) : Locked (s.moveTo i doing) := by
  apply h.moveTo hi (fun hdoing => absurd hdoing hholds)
  rintro writer stores rfl
  exact absurd trivial hholds

theorem Locked.step {s s' : State ι} {event : Event ι} (h : Locked s) (horderly : Orderly s event)
    (hstep : Step s event s') : Locked s' := by
  cases hstep with
  | @create i hi hmapped =>
      have haway := h.unmapped hmapped
      refine .of_moveTo rfl (fun hholds => hholds.elim) (fun j _ hj => ?_) (by nofun)
        (fun j _ writer stores hj => ?_) (by nofun) fun hleft => absurd rfl hleft
      · rw [show s.fresh.doing j = .away from haway j] at hj
        exact hj.elim
      · rw [show s.fresh.doing j = .away from haway j] at hj
        cases hj
  | reopen hi hmapped =>
      refine .of_moveTo h.generation (fun hholds => hholds.elim) (fun j _ => h.holder j) (by nofun)
        (fun j _ => h.odd j) (fun hunmapped => ?_) h.left
      rw [hmapped] at hunmapped
      cases hunmapped
  | construct hi =>
      have hzero : s.increments = 0 := horderly (Or.inl hi)
      refine .of_moveTo ?_ (fun hholds => hholds.elim) (fun j _ => h.holder j) (by nofun)
        (fun j _ => h.odd j)
        (fun hunmapped => absurd hunmapped (h.mapped (by rw [hi]; nofun))) h.left
      rw [hzero]
      rfl
  | initialise hi =>
      exact .of_moveTo h.generation (fun hholds => hholds.elim) (fun j _ => h.holder j) (by nofun)
        (fun j _ => h.odd j)
        (fun hunmapped => absurd hunmapped (h.mapped (by rw [hi]; nofun))) h.left
  | initialised hi => exact h.moveTo_outside (by rw [hi]; nofun) id
  | call writer hi => exact h.moveTo_outside (by rw [hi]; nofun) id
  | timeOut hi => exact h.moveTo_outside (by rw [hi]; nofun) id
  | obtain hi hfree =>
      refine .of_moveTo h.generation (fun _ => rfl) (fun j _ hj => ?_) (by nofun)
        (fun j _ => h.odd j)
        (fun hunmapped => absurd hunmapped (h.mapped (by rw [hi]; nofun))) h.left
      have hholder := h.holder j hj
      rw [hfree] at hholder
      cases hholder
  | @begin i writer hi hadmits =>
      have hholds : (s.doing i).Holds := by rw [hi]; trivial
      obtain ⟨hgeneration, hodd⟩ := beginSeqlockWrite_odd h.generation
      refine .of_moveTo hgeneration (fun _ => ?_) (fun j _ hj => ?_) (fun _ _ _ => hodd)
        (fun _ _ _ _ _ => hodd) (fun hunmapped => ?_) fun _ hzero => ?_
      · rw [holder_beginSeqlockWrite]
        exact h.holder _ hholds
      · rw [doing_beginSeqlockWrite] at hj
        rw [holder_beginSeqlockWrite]
        exact h.holder j hj
      · rw [mapped_beginSeqlockWrite] at hunmapped
        exact absurd hunmapped (h.mapped (by rw [hi]; nofun))
      · rw [hzero] at hodd
        cases hodd
  | refuse hi hadmits =>
      exact h.moveTo (by rw [hi]; nofun) (fun _ => by rw [hi]; trivial) (by nofun)
  | store hi =>
      have hodd := h.odd _ _ _ hi
      exact .of_moveTo h.generation (fun _ => h.holder _ (by rw [hi]; trivial))
        (fun j _ => h.holder j)
        (fun _ _ _ => hodd) (fun j _ => h.odd j)
        (fun hunmapped => absurd hunmapped (h.mapped (by rw [hi]; nofun))) h.left
  | @finish i writer hi =>
      have hholds : (s.doing i).Holds := by rw [hi]; trivial
      refine .of_moveTo ?_ (fun _ => h.holder _ hholds) (fun j _ => h.holder j) (by nofun)
        (fun j hne other stores hj => ?_)
        (fun hunmapped => absurd hunmapped (h.mapped (by rw [hi]; nofun)))
        fun _ => Nat.succ_ne_zero _
      · rw [State.endSeqlockWrite, h.generation, BitVec.ofNat_add]
        rfl
      · have hj' : s.doing j = .writing other stores := hj
        exact absurd (h.eq_of_holds hholds (by rw [hj']; trivial)) hne
  | @release i hi =>
      have hholds : (s.doing i).Holds := by rw [hi]; trivial
      exact .of_moveTo h.generation (fun hholds => hholds.elim)
        (fun j hne hj => absurd (h.eq_of_holds hholds hj) hne) (by nofun) (fun j _ => h.odd j)
        (fun hunmapped => absurd hunmapped (h.mapped (by rw [hi]; nofun))) h.left
  | read hi => exact h.moveTo_outside (by rw [hi]; nofun) id
  | beginRead hi hlt heven => exact h.moveTo_outside (by rw [hi]; nofun) id
  | locked hi hlt hodd => exact h.moveTo_outside (by rw [hi]; nofun) id
  | load hi => exact h.moveTo_outside (by rw [hi]; nofun) id
  | validate hi hsame => exact h.moveTo_outside (by rw [hi]; nofun) id
  | changed hi hsame => exact h.moveTo_outside (by rw [hi]; nofun) id
  | giveUp hi => exact h.moveTo_outside (by rw [hi]; nofun) id
  | @die i =>
      refine .of_moveTo h.generation (fun hholds => hholds.elim) (fun j hne hj => ?_) (by nofun)
        (fun j _ => h.odd j) (fun hunmapped => ⟨rfl, fun j _ => h.unmapped hunmapped j⟩) h.left
      have hother : s.holder ≠ some i := by
        rw [h.holder j hj]
        exact fun heq => hne (Option.some.inj heq)
      exact (if_neg hother).trans (h.holder j hj)
  | unmap haway => exact ⟨h.generation, h.holder, h.odd, fun _ => haway, h.left⟩

/-! ## The fields -/

/-- What is left of a write completes the fields. -/
def Writes (s : State ι) : Writer → List (Store Cell Nat) → Prop
  | .publish request, stores => Agree (applyStores stores s.block) request.fields
  | .publishModeEvent _, stores =>
      ¬s.dirty ∧ (∀ fields ∈ s.left.head?, Agree s.block fields) ∧
      ∀ store ∈ stores, ¬Claimed store.1
  | .clearIfOwned pid nonce tick, stores =>
      ¬s.dirty ∧ (∀ fields ∈ s.left.head?, Agree (applyStores stores s.block)
        (cleared tick fields)) ∧
        (∀ store ∈ stores, ClearedCell store.1) ∧
          (stores = (Writer.clearIfOwned pid nonce tick).stores ∨
            s.block .focused = 0 ∧ ∀ store ∈ stores, store.1 ≠ .focused)

/-- The block has the fields that the last completed writer left, while the generation is even; and
without a `Publish` in its write they are changed by a clear at most. -/
structure Fields (s : State ι) : Prop where
  terminated : ∀ fields ∈ s.left, fields (.browserExe 31) = 0 ∧ fields (.hostname 255) = 0
  even : s.increments % 2 = 0 → ∀ fields ∈ s.left.head?, Agree s.block fields
  clean : ¬s.dirty → ∀ fields ∈ s.left.head?, HalfCleared s.block fields
  writing : ∀ i writer stores, s.doing i = .writing writer stores → Writes s writer stores

theorem Fields.moveTo {s : State ι} (h : Fields s) {i : ι} {doing : Doing}
    (hwriting : ∀ writer stores, doing = .writing writer stores → Writes s writer stores) :
    Fields (s.moveTo i doing) where
  terminated := h.terminated
  even := h.even
  clean := h.clean
  writing j writer stores hj := by
    rcases eq_or_ne j i with rfl | hne
    · rw [doing_moveTo_self] at hj
      exact hwriting writer stores hj
    · rw [doing_moveTo_of_ne s hne] at hj
      exact h.writing j writer stores hj

omit [DecidableEq ι] in
theorem Fields.initial : Fields (State.initial : State ι) where
  terminated _ hmem := absurd hmem List.not_mem_nil
  even _ _ hmem := nomatch hmem
  clean _ _ hmem := nomatch hmem
  writing _ _ _ h := nomatch h

omit [DecidableEq ι] in
theorem Fields.writes_stores {s : State ι} (h : Fields s) {i : ι} {writer : Writer}
    (horderly : Orderly s (.begin i writer)) (hadmits : writer.Admits s.block) :
    Writes s writer writer.stores := by
  cases writer with
  | publish request => exact agree_publish request s.block
  | publishModeEvent vietnamese =>
      exact ⟨horderly, fun fields hfields => (h.clean horderly fields hfields).focused hadmits.2.1,
        fun store hstore => (modeEventCell_publishModeEvent hstore).not_claimed⟩
  | clearIfOwned pid nonce tick =>
      exact ⟨horderly,
        fun fields hfields => agree_clearIfOwned (h.clean horderly fields hfields) pid nonce tick,
        fun store => clearedCell_clearIfOwned, Or.inl rfl⟩

omit [DecidableEq ι] in
theorem Writes.focused {s : State ι} {pid nonce tick : Nat} {store : Store Cell Nat}
    {stores : List (Store Cell Nat)}
    (h : Writes s (.clearIfOwned pid nonce tick) (store :: stores)) :
    applyStore s.block store .focused = 0 ∧ ∀ other ∈ stores, other.1 ≠ .focused := by
  rcases h.2.2.2 with hall | ⟨hzero, hothers⟩
  · obtain ⟨rfl, rfl⟩ := List.cons_eq_cons.mp hall
    constructor
    · rfl
    · simp [put]
  · obtain ⟨hother, hrest⟩ := List.forall_mem_cons.mp hothers
    exact ⟨(Function.update_of_ne hother.symm ..).trans hzero, hrest⟩

omit [DecidableEq ι] in
theorem Writes.beginSeqlockWrite {s : State ι} {writer : Writer} {stores : List (Store Cell Nat)}
    (h : Writes s writer stores) : Writes s.beginSeqlockWrite writer stores := by
  cases writer <;>
    simpa only [Writes, left_beginSeqlockWrite, dirty_beginSeqlockWrite, block_beginSeqlockWrite]
      using h

omit [DecidableEq ι] in
/-- One store of a writer leaves the rest of the write to complete the fields. -/
theorem Writes.store {s : State ι} {writer : Writer} {store : Store Cell Nat}
    {stores : List (Store Cell Nat)} (h : Writes s writer (store :: stores)) :
    Writes { s with
      block := applyStore s.block store
      dirty := s.dirty ∨ writer.dirties s.block store } writer stores := by
  cases writer with
  | publish request => exact h
  | publishModeEvent vietnamese =>
      obtain ⟨hclean, hagree, hstores⟩ := h
      obtain ⟨hstore, hrest⟩ := List.forall_mem_cons.mp hstores
      refine ⟨fun hdirty => hclean (hdirty.resolve_right id),
        fun fields hfields cell hcell => ?_, hrest⟩
      rw [← hagree fields hfields cell hcell]
      refine Function.update_of_ne ?_ ..
      rintro rfl
      exact hstore hcell
  | clearIfOwned pid nonce tick =>
      exact ⟨fun hdirty => h.1 (hdirty.resolve_right id), h.2.1,
        (List.forall_mem_cons.mp h.2.2.1).2, Or.inr h.focused⟩

omit [DecidableEq ι] in
/-- During a write that is not a `Publish` the fields are changed by a clear at most. -/
theorem Writes.halfCleared {s : State ι} {writer : Writer} {store : Store Cell Nat}
    {stores : List (Store Cell Nat)} (h : Writes s writer (store :: stores)) {fields : Block}
    (hfields : fields ∈ s.left.head?) (hhalf : HalfCleared s.block fields)
    (hclean : ¬writer.dirties s.block store) : HalfCleared (applyStore s.block store) fields := by
  have hafter := h.store
  cases writer with
  | publish request =>
      rw [not_not.mp hclean]
      exact hhalf
  | publishModeEvent vietnamese => exact (hafter.2.1 fields hfields).halfCleared
  | clearIfOwned pid nonce tick =>
      constructor
      · intro cell hcell hnot
        rw [← hhalf.kept cell hcell hnot]
        refine Function.update_of_ne ?_ ..
        rintro rfl
        exact hnot (h.2.2.1 store List.mem_cons_self)
      · exact fun hfocused => absurd h.focused.1 hfocused

/-- One store of a writer. -/
theorem Fields.store {s : State ι} (h : Fields s) (hlocked : Locked s) {i : ι} {writer : Writer}
    {store : Store Cell Nat} {stores : List (Store Cell Nat)}
    (hi : s.doing i = .writing writer (store :: stores)) :
    Fields ({ s with
      block := applyStore s.block store
      dirty := s.dirty ∨ writer.dirties s.block store }.moveTo i (.writing writer stores)) where
  terminated := h.terminated
  even heven := by
    have hodd := hlocked.odd i writer _ hi
    rw [show s.increments % 2 = 0 from heven] at hodd
    cases hodd
  clean hclean fields hfields := by
    obtain ⟨hclean, hsame⟩ := not_or.mp hclean
    exact (h.writing i writer _ hi).halfCleared hfields (h.clean hclean fields hfields) hsame
  writing j other others hj := by
    rcases eq_or_ne j i with rfl | hne
    · rw [doing_moveTo_self] at hj
      obtain ⟨rfl, rfl⟩ := Doing.writing.inj hj
      exact (h.writing j writer _ hi).store
    · rw [doing_moveTo_of_ne _ hne] at hj
      have hj' : s.doing j = .writing other others := hj
      exact absurd (hlocked.eq_of_holds (by rw [hi]; trivial) (by rw [hj']; trivial)) hne

/-- A completed writer leaves the fields of the block. -/
theorem Fields.finish {s : State ι} (h : Fields s) (hlocked : Locked s) {i : ι} {writer : Writer}
    (hi : s.doing i = .writing writer []) :
    Fields ({ s.endSeqlockWrite with
      left := writer.leave s.left
      dirty := writer.leaveDirty s.dirty }.moveTo i .leaving) := by
  have hwrites := h.writing i writer [] hi
  have hagree : ∀ fields ∈ (writer.leave s.left).head?, Agree s.block fields := by
    intro fields hfields
    cases writer with
    | publish request =>
        obtain rfl := Option.some.inj hfields
        exact hwrites
    | publishModeEvent vietnamese => exact hwrites.2.1 fields hfields
    | clearIfOwned pid nonce tick =>
        cases hleft : s.left with
        | nil =>
            rw [hleft] at hfields
            cases hfields
        | cons last rest =>
            rw [hleft] at hfields
            obtain rfl := Option.some.inj hfields
            exact hwrites.2.1 last (by rw [hleft]; rfl)
  refine ⟨?_, fun _ => hagree, fun _ fields hfields => (hagree fields hfields).halfCleared, ?_⟩
  · have hleft := h.terminated
    cases writer with
    | publish request =>
        have hexe := List.getElem?_eq_none (Nat.le_of_lt_succ request.browserExe_lt)
        have hhost := List.getElem?_eq_none (Nat.le_of_lt_succ request.hostname_lt)
        refine List.forall_mem_cons.mpr ⟨⟨?_, ?_⟩, hleft⟩
        · rw [PublishRequest.fields, hexe]
          rfl
        · rw [PublishRequest.fields, hhost]
          rfl
    | publishModeEvent vietnamese => exact hleft
    | clearIfOwned pid nonce tick =>
        intro fields hfields
        rcases List.mem_append.mp hfields with hnew | hold
        · obtain ⟨last, hlast, rfl⟩ := Option.map_eq_some_iff.mp (Option.mem_toList.mp hnew)
          exact hleft last (List.mem_of_mem_head? hlast)
        · exact hleft fields hold
  · intro j other stores hj
    rcases eq_or_ne j i with rfl | hne
    · rw [doing_moveTo_self] at hj
      cases hj
    · rw [doing_moveTo_of_ne _ hne] at hj
      have hj' : s.doing j = .writing other stores := hj
      exact absurd (hlocked.eq_of_holds (by rw [hi]; trivial) (by rw [hj']; trivial)) hne

omit [DecidableEq ι] in
/-- The first increment changes no field. -/
theorem Fields.beginSeqlockWrite {s : State ι} (h : Fields s) (hlocked : Locked s) :
    Fields s.beginSeqlockWrite where
  terminated := by
    rw [left_beginSeqlockWrite]
    exact h.terminated
  even heven := by
    rw [(beginSeqlockWrite_odd hlocked.generation).2] at heven
    cases heven
  clean := by
    rw [left_beginSeqlockWrite, dirty_beginSeqlockWrite, block_beginSeqlockWrite]
    exact h.clean
  writing i writer stores hi := by
    rw [doing_beginSeqlockWrite] at hi
    exact (h.writing i writer stores hi).beginSeqlockWrite

theorem Fields.step {s s' : State ι} {event : Event ι} (h : Fields s) (hlocked : Locked s)
    (horderly : Orderly s event) (hstep : Step s event s') : Fields s' := by
  cases hstep with
  | @create i hi hmapped =>
      have hfresh : Fields s.fresh := by
        refine ⟨fun _ hmem => absurd hmem List.not_mem_nil, fun _ => by nofun, fun _ => by nofun,
          fun j writer stores hj => ?_⟩
        rw [show s.fresh.doing j = .away from hlocked.unmapped hmapped j] at hj
        cases hj
      exact hfresh.moveTo (by nofun)
  | reopen hi hmapped => exact h.moveTo (by nofun)
  | construct hi =>
      have hsame : Fields { s with generation := 0 } := ⟨h.terminated, h.even, h.clean, h.writing⟩
      exact hsame.moveTo (by nofun)
  | @initialise i store stores hi =>
      have hzero : s.increments = 0 := horderly (Or.inr ⟨_, hi⟩)
      have hnone : s.left.head? = none := by
        rw [not_not.mp fun hne => hlocked.left hne hzero]
        rfl
      have hsame : Fields { s with block := applyStore s.block store } := by
        refine ⟨h.terminated, fun _ fields hfields => ?_, fun _ fields hfields => ?_,
          fun j writer stores hj => ?_⟩
        · cases hnone.symm.trans hfields
        · cases hnone.symm.trans hfields
        · have hodd := hlocked.odd j writer stores hj
          rw [hzero] at hodd
          cases hodd
      exact hsame.moveTo (by nofun)
  | initialised hi => exact h.moveTo (by nofun)
  | call writer hi => exact h.moveTo (by nofun)
  | timeOut hi => exact h.moveTo (by nofun)
  | @obtain i writer hi hfree =>
      have hsame : Fields { s with holder := some i } := ⟨h.terminated, h.even, h.clean, h.writing⟩
      exact hsame.moveTo (by nofun)
  | @begin i writer hi hadmits =>
      apply (h.beginSeqlockWrite hlocked).moveTo
      rintro _ _ ⟨⟩
      exact (h.writes_stores horderly hadmits).beginSeqlockWrite
  | refuse hi hadmits => exact h.moveTo (by nofun)
  | store hi => exact h.store hlocked hi
  | finish hi => exact h.finish hlocked hi
  | release hi =>
      have hsame : Fields { s with holder := none } := ⟨h.terminated, h.even, h.clean, h.writing⟩
      exact hsame.moveTo (by nofun)
  | read hi => exact h.moveTo (by nofun)
  | beginRead hi hlt heven => exact h.moveTo (by nofun)
  | locked hi hlt hodd => exact h.moveTo (by nofun)
  | load hi => exact h.moveTo (by nofun)
  | validate hi hsame => exact h.moveTo (by nofun)
  | changed hi hsame => exact h.moveTo (by nofun)
  | giveUp hi => exact h.moveTo (by nofun)
  | @die i =>
      have hsame : Fields { s with holder := if s.holder = some i then none else s.holder } :=
        ⟨h.terminated, h.even, h.clean, h.writing⟩
      exact hsame.moveTo (by nofun)
  | unmap haway => exact ⟨h.terminated, h.even, h.clean, h.writing⟩

end BrowserContext

end VKey
