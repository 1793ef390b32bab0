import VKey.Support.Seqlock

/-!
# Sequence locks whose writers do not overlap

Any number of processes write and read the cells behind one count.  As long as a writer begins only
when no other one is under way, the count is odd from the first store of a writer to its last one,
and a read that finds the same even count twice has the cells of one completed writer.
-/

namespace VKey

namespace Seqlock

variable {ι Cell Value : Type}

/-- Where a process stands towards the lock. -/
inductive Phase (Cell Value : Type) where
  | outside
  /-- A writer that has not counted up. -/
  | entered
  /-- A writer with some stores to come, after which the cells are the given ones. -/
  | holding (stores : List (Store Cell Value)) (fields : Memory Cell Value)
  | reading (r : Reading Cell Value)

/-- The process is between the begin of a write and its end. -/
def Phase.Writes : Phase Cell Value → Prop
  | .entered => True
  | .holding _ _ => True
  | _ => False

/-- The count, the cells, and what the completed writers have stored, newest first. -/
structure Lock (Cell Value : Type) where
  word : BitVec 32
  memory : Memory Cell Value
  increments : Nat
  completed : List (Memory Cell Value)

/-- Store the count; the increments are as far as the word moves. -/
def Lock.setWord (lock : Lock Cell Value) (word : BitVec 32) : Lock Cell Value :=
  { lock with word := word, increments := lock.increments + (word - lock.word).toNat }

def Lock.store [DecidableEq Cell] (lock : Lock Cell Value) (store : Store Cell Value) :
    Lock Cell Value :=
  { lock with memory := applyStore lock.memory store }

def Lock.complete (lock : Lock Cell Value) (fields : Memory Cell Value) : Lock Cell Value :=
  { lock with completed := fields :: lock.completed }

theorem Lock.setWord_succ {lock : Lock Cell Value}
    (h : lock.word = BitVec.ofNat 32 lock.increments) :
    lock.setWord (lock.word + 1) =
      { lock with
          word := BitVec.ofNat 32 (lock.increments + 1), increments := lock.increments + 1 } := by
  have hword : lock.word + 1 = BitVec.ofNat 32 (lock.increments + 1) := by
    rw [h, BitVec.ofNat_add]
    rfl
  have hmove : (lock.word + 1 - lock.word).toNat = 1 := by
    rw [BitVec.add_comm, BitVec.add_sub_cancel]
    rfl
  rw [setWord, hmove, hword]

theorem Lock.setWord_self (lock : Lock Cell Value) : lock.setWord lock.word = lock := by
  rw [setWord, BitVec.sub_self]
  rfl

/-- An odd count stays as it is when it is forced odd. -/
theorem or_one_of_odd {increments : Nat} (h : increments % 2 = 1) :
    BitVec.ofNat 32 increments ||| 1 = BitVec.ofNat 32 increments := by
  ext i hi
  by_cases hzero : i = 0
  · subst hzero
    simp [← BitVec.getLsbD_eq_getElem, BitVec.getLsbD_ofNat, Nat.testBit_zero, h]
  · simp [hzero]

/-- Two memories have the same values in some cells. -/
def AgreeOn (claimed : Cell → Prop) (memory memory' : Memory Cell Value) : Prop :=
  ∀ cell, claimed cell → memory cell = memory' cell

/-- The lock while no two writers overlap; `fresh` holds of the memory before the first writer has
completed. -/
structure Sound (claimed : Cell → Prop) (fresh : Memory Cell Value → Prop) [DecidableEq Cell]
    (lock : Lock Cell Value) (phase : ι → Phase Cell Value) : Prop where
  word : lock.word = BitVec.ofNat 32 lock.increments
  exclusive : ∀ i j, (phase i).Writes → (phase j).Writes → i = j
  holding : ∀ i stores fields, phase i = .holding stores fields →
    lock.increments % 2 = 1 ∧ AgreeOn claimed (applyStores stores lock.memory) fields
  stable : lock.increments % 2 = 0 →
    (lock.completed = [] ∧ fresh lock.memory) ∨
      ∃ fields ∈ lock.completed, AgreeOn claimed lock.memory fields
  reading : ∀ i r, phase i = .reading r → r.begun % 2 = 0 → r.Valid lock.increments lock.memory

section Steps

variable [DecidableEq ι] [DecidableEq Cell] {claimed : Cell → Prop}
  {fresh : Memory Cell Value → Prop} {lock : Lock Cell Value} {phase : ι → Phase Cell Value} {i : ι}

omit [DecidableEq Cell] in
theorem writes_update {p : Phase Cell Value} {j : ι} (h : (Function.update phase i p j).Writes) :
    (j = i ∧ p.Writes) ∨ (j ≠ i ∧ (phase j).Writes) := by
  by_cases hj : j = i
  · subst hj
    rw [Function.update_self] at h
    exact Or.inl ⟨rfl, h⟩
  · rw [Function.update_of_ne hj] at h
    exact Or.inr ⟨hj, h⟩

omit [DecidableEq Cell] in
theorem update_eq {p q : Phase Cell Value} {j : ι} (h : Function.update phase i p j = q) :
    (j = i ∧ p = q) ∨ (j ≠ i ∧ phase j = q) := by
  by_cases hj : j = i
  · subst hj
    rw [Function.update_self] at h
    exact Or.inl ⟨rfl, h⟩
  · rw [Function.update_of_ne hj] at h
    exact Or.inr ⟨hj, h⟩

namespace Sound

omit [DecidableEq ι] in
/-- A process that writes is alone. -/
theorem not_writes (h : Sound claimed fresh lock phase) (hi : (phase i).Writes) :
    ∀ j, j ≠ i → ¬(phase j).Writes := fun j hne hj => hne (h.exclusive j i hj hi)

/-- The writers stay apart when the one process that moves is alone. -/
theorem exclusive_update {p : Phase Cell Value} (h : Sound claimed fresh lock phase)
    (halone : p.Writes → ∀ j, j ≠ i → ¬(phase j).Writes) :
    ∀ j k, (Function.update phase i p j).Writes → (Function.update phase i p k).Writes → j = k := by
  intro j k hj hk
  rcases writes_update hj with ⟨rfl, hp⟩ | ⟨hji, hj'⟩ <;>
    rcases writes_update hk with ⟨rfl, hp'⟩ | ⟨hki, hk'⟩
  · rfl
  · exact absurd hk' (halone hp k hki)
  · exact absurd hj' (halone hp' j hji)
  · exact h.exclusive j k hj' hk'

/-- A process moves, and the lock is as it was. -/
theorem moveTo {p : Phase Cell Value} (h : Sound claimed fresh lock phase)
    (halone : p.Writes → ∀ j, j ≠ i → ¬(phase j).Writes)
    (hholding : ∀ stores fields, p ≠ .holding stores fields)
    (hreading : ∀ r, p = .reading r → r.begun % 2 = 0 → r.Valid lock.increments lock.memory) :
    Sound claimed fresh lock (Function.update phase i p) where
  word := h.word
  exclusive := h.exclusive_update halone
  holding j stores fields hj := by
    rcases update_eq hj with ⟨-, hp⟩ | ⟨-, hj⟩
    · exact absurd hp (hholding stores fields)
    · exact h.holding j stores fields hj
  stable := h.stable
  reading j r hj := by
    rcases update_eq hj with ⟨-, hp⟩ | ⟨-, hj⟩
    · exact hreading r hp
    · exact h.reading j r hj

theorem outside (h : Sound claimed fresh lock phase) (i : ι) :
    Sound claimed fresh lock (Function.update phase i .outside) :=
  h.moveTo (fun hwrites => hwrites.elim) nofun nofun

theorem enter (h : Sound claimed fresh lock phase) (hfree : ∀ j, ¬(phase j).Writes) :
    Sound claimed fresh lock (Function.update phase i .entered) :=
  h.moveTo (fun _ j _ => hfree j) nofun nofun

/-- A writer makes the count odd, if it is not. -/
theorem begin {stores : List (Store Cell Value)} {fields : Memory Cell Value} {increments : Nat}
    (h : Sound claimed fresh lock phase) (halone : ∀ j, j ≠ i → ¬(phase j).Writes)
    (hodd : increments % 2 = 1)
    (hle : increments = lock.increments ∨ increments = lock.increments + 1)
    (hstores : AgreeOn claimed (applyStores stores lock.memory) fields) :
    Sound claimed fresh { lock with word := BitVec.ofNat 32 increments, increments := increments }
      (Function.update phase i (.holding stores fields)) where
  word := rfl
  exclusive := h.exclusive_update fun _ => halone
  holding j stores' fields' hj := by
    rcases update_eq hj with ⟨-, hp⟩ | ⟨hne, hj⟩
    · obtain ⟨rfl, rfl⟩ := Phase.holding.inj hp
      exact ⟨hodd, hstores⟩
    · refine absurd ?_ (halone j hne)
      rw [hj]
      trivial
  stable heven := by
    dsimp only at heven
    omega
  reading j r hj heven := by
    rcases update_eq hj with ⟨-, hp⟩ | ⟨-, hj⟩
    · cases hp
    · have hvalid := h.reading j r hj heven
      rcases hle with rfl | rfl
      · exact hvalid
      · exact hvalid.increment lock.memory

theorem store {store : Store Cell Value} {stores : List (Store Cell Value)}
    {fields : Memory Cell Value}
    (h : Sound claimed fresh lock phase) (hi : phase i = .holding (store :: stores) fields) :
    Sound claimed fresh { lock with memory := applyStore lock.memory store }
      (Function.update phase i (.holding stores fields)) where
  word := h.word
  exclusive := h.exclusive_update fun _ => h.not_writes (hi ▸ trivial)
  holding j stores' fields' hj := by
    obtain ⟨hodd, hstores⟩ := h.holding i (store :: stores) fields hi
    rcases update_eq hj with ⟨-, hp⟩ | ⟨hne, hj⟩
    · obtain ⟨rfl, rfl⟩ := Phase.holding.inj hp
      exact ⟨hodd, hstores⟩
    · refine absurd ?_ (h.not_writes (hi ▸ trivial) j hne)
      rw [hj]
      trivial
  stable heven := by
    have hodd := (h.holding i (store :: stores) fields hi).1
    dsimp only at heven
    omega
  reading j r hj heven := by
    rcases update_eq hj with ⟨-, hp⟩ | ⟨-, hj⟩
    · cases hp
    · exact (h.reading j r hj heven).store (h.holding i (store :: stores) fields hi).1 _

/-- A writer completes. -/
theorem finish {fields : Memory Cell Value} (h : Sound claimed fresh lock phase)
    (hi : phase i = .holding [] fields) :
    Sound claimed fresh
      { lock with
        word := BitVec.ofNat 32 (lock.increments + 1)
        increments := lock.increments + 1
        completed := fields :: lock.completed }
      (Function.update phase i .outside) where
  word := rfl
  exclusive := h.exclusive_update fun hwrites => hwrites.elim
  holding j stores fields' hj := by
    rcases update_eq hj with ⟨-, hp⟩ | ⟨hne, hj⟩
    · cases hp
    · refine absurd ?_ (h.not_writes (hi ▸ trivial) j hne)
      rw [hj]
      trivial
  stable _ := Or.inr ⟨fields, List.mem_cons_self, (h.holding i [] fields hi).2⟩
  reading j r hj heven := by
    rcases update_eq hj with ⟨-, hp⟩ | ⟨-, hj⟩
    · cases hp
    · exact (h.reading j r hj heven).increment lock.memory

theorem startRead (h : Sound claimed fresh lock phase) (i : ι) :
    Sound claimed fresh lock (Function.update phase i (.reading ⟨lock.increments, []⟩)) := by
  refine h.moveTo (fun hwrites => hwrites.elim) nofun ?_
  rintro r hr heven
  obtain rfl := Phase.reading.inj hr
  exact Reading.Valid.begin heven lock.memory

theorem load {r : Reading Cell Value} (h : Sound claimed fresh lock phase)
    (hi : phase i = .reading r) (cell : Cell) :
    Sound claimed fresh lock
      (Function.update phase i
        (.reading { r with loaded := (cell, lock.memory cell) :: r.loaded })) := by
  refine h.moveTo (fun hwrites => hwrites.elim) nofun ?_
  rintro r' hr heven
  obtain rfl := Phase.reading.inj hr
  exact (h.reading i r hi heven).load cell

omit [DecidableEq ι] in
/-- Nobody stores or reads the cells while a process lays out the lock anew. -/
theorem reset (h : Sound claimed fresh lock phase) (hidle : ∀ j, phase j = .outside)
    {lock' : Lock Cell Value}
    (hword : lock'.word = BitVec.ofNat 32 lock'.increments) (hcompleted : lock'.completed = [])
    (hfresh : fresh lock'.memory) : Sound claimed fresh lock' phase where
  word := hword
  exclusive := h.exclusive
  holding j stores fields hj := by
    rw [hidle j] at hj
    cases hj
  stable _ := Or.inl ⟨hcompleted, hfresh⟩
  reading j r hj := by
    rw [hidle j] at hj
    cases hj

omit [DecidableEq ι] in
/-- A read that finds the same even word twice has the cells of the memory now. -/
theorem eq_of_read {r : Reading Cell Value} (h : Sound claimed fresh lock phase)
    (hi : phase i = .reading r)
    (heven : r.begun % 2 = 0) (hword : lock.word = BitVec.ofNat 32 r.begun)
    (hlt : lock.increments < r.begun + 2 ^ 32) :
    lock.increments = r.begun ∧ ∀ entry ∈ r.loaded, lock.memory entry.1 = entry.2 := by
  have hvalid := h.reading i r hi heven
  have heq : lock.increments = r.begun := by
    apply eq_of_word_eq hvalid.le
    · have hle := hvalid.le
      omega
    · rw [← h.word, hword]
  exact ⟨heq, hvalid.loaded heq⟩

omit [DecidableEq ι] in
/-- The cells of such a read are those of one completed writer, or of a memory that none has
written. -/
theorem read {r : Reading Cell Value} (h : Sound claimed fresh lock phase)
    (hi : phase i = .reading r)
    (heven : r.begun % 2 = 0) (hword : lock.word = BitVec.ofNat 32 r.begun)
    (hlt : lock.increments < r.begun + 2 ^ 32) :
    (lock.completed = [] ∧ ∃ memory, fresh memory ∧ ∀ entry ∈ r.loaded, entry.2 = memory entry.1) ∨
      ∃ fields ∈ lock.completed, ∀ entry ∈ r.loaded, claimed entry.1 →
      entry.2 = fields entry.1 := by
  obtain ⟨heq, hloaded⟩ := h.eq_of_read hi heven hword hlt
  rcases h.stable (heq ▸ heven) with ⟨hnone, hfresh⟩ | ⟨fields, hmem, hagree⟩
  · exact Or.inl ⟨hnone, lock.memory, hfresh, fun entry hentry => (hloaded entry hentry).symm⟩
  · refine Or.inr ⟨fields, hmem, fun entry hentry hclaimed => ?_⟩
    rw [← hloaded entry hentry]
    exact hagree entry.1 hclaimed

end Sound

end Steps

end Seqlock

end VKey
