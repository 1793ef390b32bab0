import VKey.Ipc.BrowserContextFields

/-!
# Reads of the browser context

A read that succeeds returns what a completed writer has left, if every step is orderly.  A mode
event that mends the block of a `Publish` that died in its write makes a mixture of two owners
readable.
-/

namespace VKey

namespace BrowserContext

open Seqlock

variable {ι : Type} [DecidableEq ι]

/-! ## The reads -/

/-- What is known of a read under way: it began after a completed writer, and what it has loaded and
not yet loaded is the block. -/
structure Reads (s : State ι) (before : BitVec 32) (reading : Reading Cell Nat)
    (cells : List Cell) :
    Prop where
  before_eq : before = BitVec.ofNat 32 reading.begun
  valid : reading.Valid s.increments s.block
  left : s.left ≠ []
  all : ∀ cell ∈ readCells, cell ∈ cells ∨ ∃ value, (cell, value) ∈ reading.loaded

def AllRead (s : State ι) : Prop :=
  ∀ i attempt before reading cells, s.doing i = .reading attempt before reading cells →
    Reads s before reading cells

theorem AllRead.moveTo {s t : State ι} (h : AllRead s) {i : ι} {doing : Doing}
    (hdoing : t.doing = s.doing)
    (hothers : ∀ before reading cells, Reads s before reading cells → Reads t before reading cells)
    (hnew : ∀ attempt before reading cells, doing = .reading attempt before reading cells →
      Reads t before reading cells) : AllRead (t.moveTo i doing) := by
  intro j attempt before reading cells hj
  have hreads : Reads t before reading cells := by
    rcases eq_or_ne j i with rfl | hne
    · rw [doing_moveTo_self] at hj
      exact hnew attempt before reading cells hj
    · rw [doing_moveTo_of_ne t hne, hdoing] at hj
      exact hothers before reading cells (h j attempt before reading cells hj)
  exact ⟨hreads.before_eq, hreads.valid, hreads.left, hreads.all⟩

theorem AllRead.moveTo_away {s : State ι} (h : AllRead s) {i : ι} {doing : Doing}
    (hnew : ∀ attempt before reading cells, doing ≠ .reading attempt before reading cells) :
    AllRead (s.moveTo i doing) :=
  h.moveTo rfl (fun _ _ _ hreads => hreads) fun attempt before reading cells heq =>
    absurd heq (hnew attempt before reading cells)

theorem AllRead.step {s s' : State ι} {event : Event ι} (h : AllRead s) (hlocked : Locked s)
    (horderly : Orderly s event) (hstep : Step s event s') : AllRead s' := by
  cases hstep with
  | @create i hi hmapped =>
      intro j attempt before reading cells hj
      rcases eq_or_ne j i with rfl | hne
      · rw [doing_moveTo_self] at hj
        cases hj
      · rw [doing_moveTo_of_ne _ hne, show s.fresh.doing j =
          .away from hlocked.unmapped hmapped j] at hj
        cases hj
  | reopen hi hmapped => exact h.moveTo_away (by simp)
  | construct hi =>
      exact h.moveTo rfl
        (fun _ _ _ hreads => ⟨hreads.before_eq, hreads.valid, hreads.left, hreads.all⟩)
        (by simp)
  | initialise hi =>
      have hzero : s.increments = 0 := horderly (Or.inr ⟨_, hi⟩)
      exact h.moveTo rfl (fun _ _ _ hreads => absurd hzero (hlocked.left hreads.left)) (by simp)
  | initialised hi => exact h.moveTo_away (by simp)
  | call writer hi => exact h.moveTo_away (by simp)
  | timeOut hi => exact h.moveTo_away (by simp)
  | obtain hi hfree =>
      exact h.moveTo rfl
        (fun _ _ _ hreads => ⟨hreads.before_eq, hreads.valid, hreads.left, hreads.all⟩)
        (by simp)
  | begin hi hadmits =>
      refine h.moveTo (doing_beginSeqlockWrite s) (fun _ _ _ hreads => ?_) (by simp)
      rw [State.beginSeqlockWrite]
      split_ifs
      · exact ⟨hreads.before_eq, hreads.valid.increment s.block, hreads.left, hreads.all⟩
      · exact hreads
  | refuse hi hadmits => exact h.moveTo_away (by simp)
  | store hi =>
      have hodd := hlocked.odd _ _ _ hi
      exact h.moveTo rfl
        (fun _ _ _ hreads => ⟨hreads.before_eq, hreads.valid.store hodd _, hreads.left, hreads.all⟩)
        (by simp)
  | @finish i writer hi =>
      refine h.moveTo rfl (fun _ _ _ hreads => ?_) (by simp)
      have hleft : writer.leave s.left ≠ [] := by
        cases writer with
        | publish request => exact List.cons_ne_nil _ _
        | publishModeEvent vietnamese => exact hreads.left
        | clearIfOwned pid nonce tick => exact List.append_ne_nil_of_right_ne_nil _ hreads.left
      exact ⟨hreads.before_eq, hreads.valid.increment s.block, hleft, hreads.all⟩
  | release hi =>
      exact h.moveTo rfl
        (fun _ _ _ hreads => ⟨hreads.before_eq, hreads.valid, hreads.left, hreads.all⟩)
        (by simp)
  | read hi => exact h.moveTo_away (by simp)
  | beginRead hi hlt heven =>
      refine h.moveTo rfl (fun _ _ _ hreads => hreads) ?_
      rintro _ _ _ _ ⟨⟩
      rw [hlocked.generation] at heven
      have hincrements := (word_and_one_eq_zero_iff s.increments).mp heven
      exact ⟨hlocked.generation, .begin hincrements s.block, horderly, fun cell => Or.inl⟩
  | locked hi hlt hodd => exact h.moveTo_away (by simp)
  | @load i attempt before reading cell cells hi =>
      refine h.moveTo rfl (fun _ _ _ hreads => hreads) ?_
      rintro _ _ _ _ ⟨⟩
      have hreads := h i attempt before reading _ hi
      refine ⟨hreads.before_eq, hreads.valid.load cell, hreads.left, fun other hother => ?_⟩
      rcases hreads.all other hother with hmem | ⟨value, hmem⟩
      · rcases List.mem_cons.mp hmem with rfl | hmem
        · exact Or.inr ⟨_, List.mem_cons_self⟩
        · exact Or.inl hmem
      · exact Or.inr ⟨value, List.mem_cons_of_mem _ hmem⟩
  | validate hi hsame => exact h.moveTo_away (by simp)
  | changed hi hsame => exact h.moveTo_away (by simp)
  | giveUp hi => exact h.moveTo_away (by simp)
  | die =>
      exact h.moveTo rfl
        (fun _ _ _ hreads => ⟨hreads.before_eq, hreads.valid, hreads.left, hreads.all⟩)
        (by simp)
  | unmap haway =>
      intro i attempt before reading cells hi
      rw [show s.doing i = .away from haway i] at hi
      cases hi

/-! ## What a read returns -/

theorem mem_readCells_of_claimed {cell : Cell} (h : Claimed cell) : cell ∈ readCells := by
  cases cell with
  | browserExe i => simp [readCells, show i < 32 from h]
  | hostname i => simp [readCells, show i < 256 from h]
  | ownerProcessId | ownerNonce | updatedTickMs | focused | route | mode => simp [readCells]
  | _ => exact h.elim

theorem lookup_of_loaded {loaded : List (Cell × Nat)} {block : Block}
    (hloaded : ∀ entry ∈ loaded, block entry.1 = entry.2) {cell : Cell}
    (h : ∃ value, (cell, value) ∈ loaded) : loaded.lookup cell = some (block cell) := by
  cases hlookup : loaded.lookup cell with
  | none =>
      obtain ⟨value, hmem⟩ := h
      have hne := List.lookup_eq_none_iff.mp hlookup _ hmem
      simp at hne
  | some value =>
      obtain ⟨before, after, rfl, -⟩ := List.lookup_eq_some_iff.mp hlookup
      rw [hloaded (cell, value) (List.mem_append_right _ List.mem_cons_self)]

omit [DecidableEq ι] in
/-- A read whose count has not moved gives the block. -/
theorem Reads.agree {s : State ι} {before : BitVec 32} {reading : Reading Cell Nat}
    (h : Reads s before reading []) (hsame : s.increments = reading.begun) {fields : Block}
    (hagree : Agree s.block fields)
    (hterminated : fields (.browserExe 31) = 0 ∧ fields (.hostname 255) = 0) :
    Agree (readBlock reading.loaded) fields := by
  intro cell hcell
  rw [readBlock]
  split_ifs with hlast
  · rcases hlast with rfl | rfl | rfl
    · exact hterminated.1.symm
    · exact hterminated.2.symm
    · exact hcell.elim
  · have hloaded := (h.all cell (mem_readCells_of_claimed hcell)).resolve_left List.not_mem_nil
    rw [lookup_of_loaded (h.valid.loaded hsame) hloaded, Option.getD_some, hagree cell hcell]

/-! ## Whole calls -/

section WholeCalls

/-- One state leads to the other, with orderly steps if that is asked for. -/
def Reaches (asked : Prop) (s t : State ι) : Prop :=
  ∃ events, Run (Meeting (fun s event => asked → Orderly s event) Step) s events t

variable {asked : Prop} {s s' t : State ι} {i j : ι} {writer : Writer}

theorem Reaches.refl (asked : Prop) (s : State ι) : Reaches asked s s := ⟨[], .nil⟩

theorem Reaches.head {event : Event ι} (h : Reaches asked s' t) (hstep : Step s event s')
    (horderly : asked → Orderly s event) : Reaches asked s t := by
  obtain ⟨events, hrun⟩ := h
  exact ⟨event :: events, hrun.cons ⟨horderly, hstep⟩⟩

theorem Reaches.trans (h₁ : Reaches asked s s') (h₂ : Reaches asked s' t) : Reaches asked s t := by
  obtain ⟨events₁, hrun₁⟩ := h₁
  obtain ⟨events₂, hrun₂⟩ := h₂
  exact ⟨events₁ ++ events₂, hrun₁.append hrun₂⟩

theorem Reaches.orderly (h : Reaches True s t) :
    ∃ events, Run (Meeting Orderly Step) s events t := by
  obtain ⟨events, hrun⟩ := h
  exact ⟨events, hrun.mono fun _ _ _ hstep => ⟨hstep.1 trivial, hstep.2⟩⟩

theorem Reaches.run (h : Reaches asked s t) : ∃ events, Run Step s events t := by
  obtain ⟨events, hrun⟩ := h
  exact ⟨events, hrun.mono fun _ _ _ hstep => hstep.2⟩

omit [DecidableEq ι] in
theorem orderly_step (hconstructing : s.doing i ≠ .constructing)
    (hinitialising : ∀ stores, s.doing i ≠ .initialising stores) : Orderly s (.step i) := by
  rintro (hi | ⟨stores, hi⟩)
  · exact absurd hi hconstructing
  · exact absurd hi (hinitialising stores)

/-- One process has changed at most the block. -/
structure Alone (i : ι) (s t : State ι) : Prop where
  mapped : t.mapped = s.mapped
  generation : t.generation = s.generation
  holder : t.holder = s.holder
  increments : t.increments = s.increments
  left : t.left = s.left
  others : ∀ j, j ≠ i → t.doing j = s.doing j

omit [DecidableEq ι] in
theorem Alone.refl (i : ι) (s : State ι) : Alone i s s := ⟨rfl, rfl, rfl, rfl, rfl, fun _ _ => rfl⟩

omit [DecidableEq ι] in
theorem Alone.trans (h₁ : Alone i s s') (h₂ : Alone i s' t) : Alone i s t where
  mapped := h₂.mapped.trans h₁.mapped
  generation := h₂.generation.trans h₁.generation
  holder := h₂.holder.trans h₁.holder
  increments := h₂.increments.trans h₁.increments
  left := h₂.left.trans h₁.left
  others j hne := (h₂.others j hne).trans (h₁.others j hne)

theorem Alone.moveTo (s : State ι) (i : ι) (doing : Doing) (block : Block) (dirty : Prop) :
    Alone i s ({ s with block := block, dirty := dirty }.moveTo i doing) where
  mapped := rfl
  generation := rfl
  holder := rfl
  increments := rfl
  left := rfl
  others _ hne := doing_moveTo_of_ne _ hne _

variable (asked) in
theorem exists_initialised {stores : List (Store Cell Nat)} (hi : s.doing i = .initialising stores)
    (hzero : s.increments = 0) : ∃ t, Reaches asked s t ∧ Alone i s t ∧
      t.doing i = .initialising [] ∧ t.block = applyStores stores s.block := by
  induction stores generalizing s with
  | nil => exact ⟨s, .refl asked s, .refl i s, hi, rfl⟩
  | cons store stores ih =>
      obtain ⟨t, hreaches, halone, hdoing, hblock⟩ := ih
        (s := { s with block := applyStore s.block store }.moveTo i (.initialising stores))
        (doing_moveTo_self ..) hzero
      have horderly : Orderly s (.step i) := fun _ => hzero
      exact ⟨t, hreaches.head (.initialise hi) fun _ => horderly,
        (Alone.moveTo s i _ _ s.dirty).trans halone, hdoing, hblock⟩

variable (asked) in
theorem exists_stored {stores rest : List (Store Cell Nat)}
    (hi : s.doing i = .writing writer (stores ++ rest)) : ∃ t, Reaches asked s t ∧ Alone i s t ∧
      t.doing i = .writing writer rest ∧ t.block = applyStores stores s.block := by
  induction stores generalizing s with
  | nil => exact ⟨s, .refl asked s, .refl i s, hi, rfl⟩
  | cons store stores ih =>
      have horderly : Orderly s (.step i) := orderly_step (by rw [hi]; nofun) (by rw [hi]; nofun)
      obtain ⟨t, hreaches, halone, hdoing, hblock⟩ := ih (doing_moveTo_self ..)
      exact ⟨t, hreaches.head (.store hi) fun _ => horderly, (Alone.moveTo s i _ _ _).trans halone,
        hdoing, hblock⟩

variable (asked) in
/-- All the loads of a read. -/
theorem exists_loaded {attempt : Nat} {before : BitVec 32} {reading : Reading Cell Nat}
    {cells : List Cell} (hi : s.doing i = .reading attempt before reading cells) :
    ∃ t, Reaches asked s t ∧ Alone i s t ∧ t.block = s.block ∧
      t.doing i = .reading attempt before
        { reading with
            loaded := (cells.map fun cell => (cell, s.block cell)).reverse ++ reading.loaded }
        [] := by
  induction cells generalizing s reading with
  | nil => exact ⟨s, .refl asked s, .refl i s, rfl, hi⟩
  | cons cell cells ih =>
      have horderly : Orderly s (.step i) := orderly_step (by rw [hi]; nofun) (by rw [hi]; nofun)
      obtain ⟨t, hreaches, halone, hblock, hdoing⟩ := ih (doing_moveTo_self ..)
      refine ⟨t, hreaches.head (.load hi) fun _ => horderly,
        (Alone.moveTo s i _ s.block s.dirty).trans halone, hblock, hdoing.trans ?_⟩
      rw [List.map_cons, List.reverse_cons, List.append_assoc]
      rfl

/-- A process is idle, and nobody holds the mutex. -/
structure Quiet (s : State ι) (i : ι) (block : Block) (left : List Block) : Prop where
  idle : s.doing i = .idle
  free : s.holder = none
  generation : s.generation = BitVec.ofNat 32 s.increments
  block : s.block = block
  left : s.left = left

/-- A writer obtains the mutex and stores. -/
theorem Quiet.exists_stored {block : Block} {left : List Block} (h : Quiet s i block left)
    (hj : s.doing j = .idle) {stores rest : List (Store Cell Nat)}
    (hstores : writer.stores = stores ++ rest) (hadmits : writer.Admits block)
    (horderly : asked → ∀ t : State ι, Orderly t (.begin j writer)) :
    ∃ t, Reaches asked s t ∧ t.doing j = .writing writer rest ∧ t.holder = some j ∧
      t.generation = BitVec.ofNat 32 t.increments ∧ t.increments % 2 = 1 ∧
      t.block = applyStores stores block ∧ t.left = left ∧ ∀ k, k ≠ j → t.doing k = s.doing k := by
  let waiting := s.moveTo j (.waiting writer)
  let checking := { waiting with holder := some j }.moveTo j (.checking writer)
  let writing := checking.beginSeqlockWrite.moveTo j (.writing writer writer.stores)
  have hwriting : writing.doing j = .writing writer (stores ++ rest) := by
    rw [← hstores]
    exact doing_moveTo_self ..
  obtain ⟨t, hreaches, halone, hdoing, hblock⟩ := BrowserContext.exists_stored asked hwriting
  obtain ⟨hgeneration, hodd⟩ :=
    beginSeqlockWrite_odd
      (show checking.generation = BitVec.ofNat 32 checking.increments from h.generation)
  have hcall : Step s (.call j writer) waiting := .call writer hj
  have hobtain : Step waiting (.obtain j) checking := .obtain (doing_moveTo_self ..) h.free
  have hbegin : Step checking (.begin j writer) writing := by
    apply Step.begin (doing_moveTo_self ..)
    rw [show checking.block = block from h.block]
    exact hadmits
  have hfrom : Reaches asked s t :=
    ((hreaches.head hbegin fun hasked => horderly hasked _).head hobtain fun _ =>
      trivial).head hcall
      fun _ => trivial
  refine ⟨t, hfrom, hdoing, ?_, ?_, ?_, ?_, ?_, fun k hne => ?_⟩
  · rw [halone.holder]
    exact holder_beginSeqlockWrite checking
  · rw [halone.generation, halone.increments]
    exact hgeneration
  · rw [halone.increments]
    exact hodd
  · rw [hblock, ← h.block]
    exact congrArg _ (block_beginSeqlockWrite checking)
  · rw [halone.left]
    exact (left_beginSeqlockWrite checking).trans h.left
  · rw [halone.others k hne, doing_moveTo_of_ne _ hne, doing_beginSeqlockWrite,
      doing_moveTo_of_ne _ hne]
    exact doing_moveTo_of_ne s hne _

variable (asked writer) in
/-- A whole write. -/
theorem Quiet.exists_written {block : Block} {left : List Block} (h : Quiet s i block left)
    (hadmits : writer.Admits block)
    (horderly : asked → ∀ t : State ι, Orderly t (.begin i writer)) :
    ∃ t, Reaches asked s t ∧ Quiet t i (applyStores writer.stores block) (writer.leave left) ∧
      t.increments % 2 = 0 ∧ ∀ k, k ≠ i → t.doing k = s.doing k := by
  obtain ⟨t, hreaches, hdoing, hholder, hgeneration, hodd, hblock, hleft, hothers⟩ :=
    h.exists_stored h.idle (List.append_nil writer.stores).symm hadmits horderly
  let leaving := State.moveTo { t.endSeqlockWrite with
    left := writer.leave t.left
    dirty := writer.leaveDirty t.dirty } i .leaving
  let idle := { leaving with holder := none }.moveTo i .idle
  have hfinish : Step t (.finish i writer) leaving := .finish hdoing
  have hrelease : Step leaving (.release i) idle := .release (doing_moveTo_self ..)
  have hrest : Reaches asked t idle :=
    ((Reaches.refl asked idle).head hrelease fun _ => trivial).head hfinish fun _ => trivial
  refine ⟨idle, hreaches.trans hrest,
    ⟨doing_moveTo_self .., rfl, ?_, hblock, ?_⟩, ?_, fun k hne => ?_⟩
  · change t.generation + 1 = BitVec.ofNat 32 (t.increments + 1)
    rw [hgeneration, BitVec.ofNat_add]
    rfl
  · exact congrArg writer.leave hleft
  · change (t.increments + 1) % 2 = 0
    omega
  · rw [doing_moveTo_of_ne _ hne, ← hothers k hne]
    exact doing_moveTo_of_ne _ hne _

variable (asked writer) in
theorem Quiet.exists_interrupted {block : Block} {left : List Block} (h : Quiet s i block left)
    (hne : i ≠ j) (hj : s.doing j = .idle) {stores rest : List (Store Cell Nat)}
    (hstores : writer.stores = stores ++ rest) (hadmits : writer.Admits block)
    (horderly : asked → ∀ t : State ι, Orderly t (.begin j writer)) :
    ∃ t, Reaches asked s t ∧ Quiet t i (applyStores stores block) left := by
  obtain ⟨t, hreaches, hdoing, hholder, hgeneration, hodd, hblock, hleft, hothers⟩ :=
    h.exists_stored hj hstores hadmits horderly
  refine ⟨_, hreaches.trans ((Reaches.refl asked _).head (.die (i := j)) fun _ => trivial), ?_⟩
  refine ⟨?_, if_pos hholder, hgeneration, hblock, hleft⟩
  rw [doing_moveTo_of_ne _ hne]
  exact (hothers i hne).trans h.idle

variable (asked) in
/-- A whole read. -/
theorem Quiet.exists_read {block : Block} {left : List Block} (h : Quiet s i block left)
    (heven : s.increments % 2 = 0) (hleft : left ≠ []) (hheader : HasValidHeader block) :
    ∃ t out t', Reaches asked s t ∧
      Meeting (fun s event => asked → Orderly s event) Step t (.readReturns i (some out)) t' ∧
      t.left = left ∧ ∀ cell ∈ readCells, cell ≠ .browserExe 31 → cell ≠ .hostname 255 →
        cell ≠ .modeEventHostname 255 → out cell = block cell := by
  let attempting := s.moveTo i (.attempting 0)
  let reading := attempting.moveTo i (.reading 0 s.generation ⟨s.increments, []⟩ readCells)
  obtain ⟨t, hreaches, halone, hblock, hdoing⟩ := exists_loaded asked (s := reading)
    (doing_moveTo_self ..)
  have hword : attempting.generation &&& 1 = 0 := by
    rw [show attempting.generation = BitVec.ofNat 32 s.increments from h.generation]
    exact (word_and_one_eq_zero_iff s.increments).mpr heven
  have hread : Step s (.read i) attempting := .read h.idle
  have hbegin : Step attempting (.beginRead i) reading :=
    .beginRead (doing_moveTo_self ..) (Nat.zero_lt_succ 2) hword
  have hleft' : s.left ≠ [] := by
    rw [h.left]
    exact hleft
  have hfrom : Reaches asked s t :=
    (hreaches.head hbegin fun _ => hleft').head hread fun _ => trivial
  generalize hloaded : (readCells.map fun cell => (cell, reading.block cell)).reverse ++ [] = loaded
    at hdoing
  have hentries : ∀ entry ∈ loaded, block entry.1 = entry.2 := by
    rw [← hloaded, List.append_nil]
    intro entry hentry
    obtain ⟨cell, -, rfl⟩ := List.mem_map.mp (List.mem_reverse.mp hentry)
    exact congrFun h.block.symm cell
  have hcells : ∀ cell ∈ readCells, cell ≠ .browserExe 31 → cell ≠ .hostname 255 →
      cell ≠ .modeEventHostname 255 → readBlock loaded cell = block cell := by
    intro cell hcell hexe hhost hmode
    have hmem : ∃ value, (cell, value) ∈ loaded := by
      refine ⟨reading.block cell, ?_⟩
      rw [← hloaded, List.append_nil]
      exact List.mem_reverse.mpr (List.mem_map.mpr ⟨cell, hcell, rfl⟩)
    rw [readBlock, if_neg (not_or.mpr ⟨hexe, not_or.mpr ⟨hhost, hmode⟩⟩),
      lookup_of_loaded hentries hmem, Option.getD_some]
  have hvalid : HasValidHeader (readBlock loaded) := by
    obtain ⟨hmagic, hversion, hsize⟩ := hheader
    refine ⟨?_, ?_, ?_⟩
    · rw [hcells .magic (by simp [readCells]) (by nofun) (by nofun) (by nofun), hmagic]
    · rw [hcells .version (by simp [readCells]) (by nofun) (by nofun) (by nofun), hversion]
    · rw [hcells .structSize (by simp [readCells]) (by nofun) (by nofun) (by nofun), hsize]
  refine ⟨t, readBlock loaded, t.moveTo i .idle, hfrom, ⟨fun _ => ?_, ?_⟩, ?_, hcells⟩
  · intro attempt before reading cells hi
    obtain ⟨-, -, hread, -⟩ := Doing.reading.inj (hdoing.symm.trans hi)
    rw [← hread, halone.increments]
    exact Nat.lt_add_of_pos_right (Nat.two_pow_pos 32)
  · have hvalidate := Step.validate hdoing halone.generation
    rwa [if_pos hvalid] at hvalidate
  · rw [halone.left]
    exact h.left

/-- A process has created and initialised the block, and another one has attached to it. -/
theorem exists_quiet (asked : Prop) (hne : i ≠ j) : ∃ s : State ι, Reaches asked State.initial s ∧
    Quiet s i (applyStores initialStores fun _ => 0) [] ∧ s.doing j = .idle := by
  let constructing := (State.initial : State ι).fresh.moveTo i .constructing
  let initialising := { constructing with generation := 0 }.moveTo i (.initialising initialStores)
  obtain ⟨t, hreaches, halone, hdoing, hblock⟩ := exists_initialised asked (s := initialising)
    (doing_moveTo_self ..) rfl
  let idle := t.moveTo i .idle
  have hzero : constructing.increments = 0 := rfl
  have hcreate : Step State.initial (.create i) constructing := .create rfl rfl
  have hconstruct : Step constructing (.step i) initialising := .construct (doing_moveTo_self ..)
  have hinitialised : Step t (.step i) idle := .initialised hdoing
  have haway : idle.doing j = .away := by
    rw [doing_moveTo_of_ne _ hne.symm, halone.others j hne.symm]
    exact (doing_moveTo_of_ne _ hne.symm _).trans (doing_moveTo_of_ne _ hne.symm _)
  have hattach : Step idle (.create j) (idle.moveTo j .idle) := .reopen haway halone.mapped
  have hrest : Reaches asked t (idle.moveTo j .idle) :=
    ((Reaches.refl asked _).head hattach fun _ => trivial).head hinitialised fun _ _ =>
      halone.increments
  refine ⟨_, ((hreaches.trans hrest).head hconstruct fun _ _ => hzero).head
    hcreate fun _ => trivial, ⟨?_, halone.holder, ?_, hblock, halone.left⟩, doing_moveTo_self ..⟩
  · exact (doing_moveTo_of_ne _ hne _).trans (doing_moveTo_self ..)
  · change t.generation = BitVec.ofNat 32 t.increments
    rw [halone.generation, halone.increments]
    rfl

end WholeCalls

structure Coherent (s : State ι) : Prop where
  locked : Locked s
  fields : Fields s
  reads : AllRead s

theorem coherent_of_run {s : State ι} {events : List (Event ι)}
    (h : Run (Meeting Orderly Step) State.initial events s) : Coherent s := by
  apply h.invariant
  · exact ⟨Locked.initial, Fields.initial, fun _ _ _ _ _ hi => nomatch hi⟩
  · rintro s event s' ⟨hlocked, hfields, hreads⟩ ⟨horderly, hstep⟩
    exact ⟨hlocked.step horderly hstep, hfields.step hlocked horderly hstep,
      hreads.step hlocked horderly hstep⟩

/-- In an orderly run a read that succeeds returns the fields that a completed writer has left. -/
theorem readReturns_agrees_left {s s' : State ι} {events : List (Event ι)} {i : ι} {out : Block}
    (hrun : Run (Meeting Orderly Step) State.initial events s)
    (hstep : Meeting Orderly Step s (.readReturns i (some out)) s') :
    ∃ fields ∈ s.left, Agree out fields := by
  obtain ⟨hlocked, hfields, hreads⟩ := coherent_of_run hrun
  obtain ⟨horderly, hstep⟩ := hstep
  generalize hout : some out = result at hstep
  generalize hevent : Event.readReturns i result = event at hstep
  cases hstep with
  | @validate j attempt before reading hi hsame =>
      obtain ⟨rfl, hresult⟩ := Event.readReturns.inj hevent
      have hread := hreads i attempt before reading [] hi
      have hincrements : s.increments = reading.begun := by
        have hlt := horderly attempt before reading [] hi
        have hle := hread.valid.le
        apply eq_of_word_eq hle (by omega)
        rw [← hlocked.generation, hsame, hread.before_eq]
      obtain ⟨fields, rest, hleft⟩ := List.exists_cons_of_ne_nil hread.left
      have hmem : fields ∈ s.left := by
        rw [hleft]
        exact List.mem_cons_self
      have heven : s.increments % 2 = 0 := by
        rw [hincrements]
        exact hread.valid.even
      have hagree := hfields.even heven fields (by rw [hleft]; rfl)
      rw [← hout] at hresult
      split_ifs at hresult
      · obtain rfl := Option.some.inj hresult
        exact ⟨fields, hmem, hread.agree hincrements hagree (hfields.terminated fields hmem)⟩
  | giveUp hi =>
      obtain ⟨-, hresult⟩ := Event.readReturns.inj hevent
      cases hout.trans hresult
  | _ => cases hevent

/-- A page of a browser. -/
def examplePage (ownerProcessId : Nat) (h : ownerProcessId ≠ 0) : PublishRequest where
  ownerProcessId := ownerProcessId
  ownerNonce := ownerProcessId
  updatedTickMs := 0
  focused := true
  route := .forceTsf
  mode := .vietnamese
  browserExe := [99]
  hostname := [97]
  ownerProcessId_ne := h
  ownerNonce_ne := h
  browserExe_ne := by simp
  browserExe_lt := by simp
  hostname_lt := by simp

/-- A page is published and read. -/
theorem readReturns_agrees_left_page :
    ∃ (events : List (Event Bool)) (s s' : State Bool) (out : Block),
    Run (Meeting Orderly Step) State.initial events s ∧
      Meeting Orderly Step s (.readReturns false (some out)) s' ∧
        ∃ fields ∈ s.left, Agree out fields := by
  obtain ⟨s₁, hreaches₁, hquiet₁, -⟩ := exists_quiet True (Bool.false_ne_true)
  obtain ⟨s₂, hreaches₂, hquiet₂, heven, -⟩ := hquiet₁.exists_written True
    (.publish (examplePage 1 (by decide))) trivial fun _ _ => trivial
  obtain ⟨s₃, out, s₄, hreaches₃, hstep, -, -⟩ := hquiet₂.exists_read True heven
    (List.cons_ne_nil _ _) (hasValidHeader_publish _ _)
  obtain ⟨events, hrun⟩ := ((hreaches₁.trans hreaches₂).trans hreaches₃).orderly
  have hreturns : Meeting Orderly Step s₃ (.readReturns false (some out)) s₄ :=
    ⟨hstep.1 trivial, hstep.2⟩
  exact ⟨events, s₃, s₄, out, hrun, hreturns, readReturns_agrees_left hrun hreturns⟩

/-- A `Publish` dies when it has stored the process identifier, and a mode event mends the block:
the read returns that identifier with the nonce of the last completed `Publish`. -/
theorem not_readReturns_agrees_left : ¬∀ (events : List (Event Bool)) (s s' : State Bool) (i : Bool)
    (out : Block), Run Step State.initial events s → Step s (.readReturns i (some out)) s' →
      ∃ fields ∈ s.left, Agree out fields := by
  intro h
  let first := examplePage 1 (by decide)
  let second := examplePage 2 (by decide)
  obtain ⟨s₁, hreaches₁, hquiet₁, hother₁⟩ := exists_quiet False Bool.false_ne_true
  obtain ⟨s₂, hreaches₂, hquiet₂, -, hothers₂⟩ := hquiet₁.exists_written False
    (.publish first) trivial False.elim
  have hother₂ : s₂.doing true = .idle := (hothers₂ true (by decide)).trans hother₁
  obtain ⟨s₃, hreaches₃, hquiet₃⟩ := hquiet₂.exists_interrupted False
    (.publish second) Bool.false_ne_true hother₂
    (List.take_append_drop 4 _).symm trivial False.elim
  have hfirst := agree_publish first (applyStores initialStores fun _ => 0)
  generalize applyStores (Writer.publish first).stores
    (applyStores initialStores fun _ => 0) = block
    at hfirst hquiet₃
  have hadmits : (Writer.publishModeEvent true).Admits
      (applyStores ((Writer.publish second).stores.take 4) block) := by
    refine ⟨⟨rfl, rfl, rfl⟩, ?_, Nat.succ_ne_zero 1, ?_, ?_⟩
    · exact ne_of_eq_of_ne (hfirst .focused trivial) Nat.one_ne_zero
    · exact ne_of_eq_of_ne (hfirst .ownerNonce trivial) Nat.one_ne_zero
    · exact ne_of_eq_of_ne (hfirst (.hostname 0) (Nat.zero_lt_succ 255)) (Nat.succ_ne_zero 96)
  obtain ⟨s₄, hreaches₄, hquiet₄, heven, -⟩ := hquiet₃.exists_written False _ hadmits False.elim
  have hheader : HasValidHeader (applyStores (Writer.publishModeEvent true).stores
      (applyStores ((Writer.publish second).stores.take 4) block)) := by
    refine ⟨?_, ?_, ?_⟩ <;>
    · rw [applyStores_publishModeEvent true _ (by simp [ModeEventCell])]
      rfl
  obtain ⟨s₅, out, s₆, hreaches₅, hstep, hleft, hout⟩ := hquiet₄.exists_read False heven
    (List.cons_ne_nil _ _) hheader
  obtain ⟨events, hrun⟩ :=
    ((((hreaches₁.trans hreaches₂).trans hreaches₃).trans hreaches₄).trans hreaches₅).run
  obtain ⟨fields, hfields, hagree⟩ := h events s₅ s₆ false out hrun hstep.2
  rw [hleft] at hfields
  obtain rfl := List.mem_singleton.mp hfields
  have hpid := hout .ownerProcessId (by simp [readCells]) (by nofun) (by nofun) (by nofun)
  rw [applyStores_publishModeEvent true _ (by simp [ModeEventCell]),
    hagree .ownerProcessId trivial] at hpid
  exact absurd (show (1 : Nat) = 2 from hpid) (by decide)

end BrowserContext

end VKey
