import Mathlib.Data.List.Range
import Mathlib.Data.Nat.ModEq
import Mathlib.Tactic.SplitIfs

/-!
# Byte memory

A memory gives a byte at every address.  This module develops reading and writing blocks of bytes,
the little-endian numbers stored in them, and spans of addresses: what is written is read back,
other addresses keep their bytes, and writes to disjoint blocks commute.
-/

namespace VKey

/-! ## Little-endian numbers -/

/-- The `w` bytes of a number, the low byte first. -/
def encodeLE : Nat → Nat → List UInt8
  | 0, _ => []
  | w + 1, n => UInt8.ofNat n :: encodeLE w (n / 256)

/-- The number with the given bytes, the low byte first. -/
def decodeLE : List UInt8 → Nat
  | [] => 0
  | b :: bytes => b.toNat + 256 * decodeLE bytes

@[simp] theorem length_encodeLE (w n : Nat) : (encodeLE w n).length = w := by
  induction w generalizing n with
  | zero => rfl
  | succ w ih => simp [encodeLE, ih]

theorem decodeLE_encodeLE (w n : Nat) : decodeLE (encodeLE w n) = n % 256 ^ w := by
  induction w generalizing n with
  | zero => simp [encodeLE, decodeLE, Nat.mod_one]
  | succ w ih =>
      rw [encodeLE, decodeLE, ih, Nat.pow_succ', Nat.mod_mul, UInt8.toNat_ofNat']

/-! ## Blocks of one length -/

section Blocks

variable {α β : Type*} {f : α → List β} {w : Nat}

/-- Behind `k` blocks stand the blocks of the other elements. -/
theorem drop_flatMap (hlength : ∀ a, (f a).length = w) (l : List α) (k : Nat) :
    (l.flatMap f).drop (w * k) = (l.drop k).flatMap f := by
  induction k generalizing l with
  | zero => simp
  | succ k ih =>
      cases l with
      | nil => simp
      | cons a l =>
          rw [List.flatMap_cons, List.drop_succ_cons, Nat.mul_succ, Nat.add_comm, ← List.drop_drop,
            List.drop_left' (hlength a), ih]

theorem take_flatMap (hlength : ∀ a, (f a).length = w) (l : List α) (k : Nat) :
    (l.flatMap f).take (w * k) = (l.take k).flatMap f := by
  induction k generalizing l with
  | zero => simp
  | succ k ih =>
      cases l with
      | nil => simp
      | cons a l =>
          rw [List.flatMap_cons, List.take_succ_cons, List.flatMap_cons, Nat.mul_succ, Nat.add_comm,
            ← hlength a, List.take_length_add_append, hlength a, ih]

end Blocks

/-! ## Memory -/

/-- A byte for every address. -/
abbrev Memory := Nat → UInt8

namespace Memory

/-- The `n` bytes from an address on. -/
def read (mem : Memory) (addr n : Nat) : List UInt8 := (List.range n).map fun i => mem (addr + i)

/-- Write bytes from an address on. -/
def write (mem : Memory) (addr : Nat) (bytes : List UInt8) : Memory := fun a =>
  if addr ≤ a then (bytes[a - addr]?).getD (mem a) else mem a

/-- Write one byte to `n` addresses. -/
def fill (mem : Memory) (addr n : Nat) (byte : UInt8) : Memory := fun a =>
  if addr ≤ a ∧ a < addr + n then byte else mem a

@[simp] theorem length_read (mem : Memory) (addr n : Nat) : (mem.read addr n).length = n := by
  simp [read]

@[simp] theorem write_nil (mem : Memory) (addr : Nat) : mem.write addr [] = mem := by
  funext a
  simp [write]

theorem read_congr {mem mem' : Memory} {addr n : Nat}
    (h : ∀ a, addr ≤ a → a < addr + n → mem a = mem' a) : mem.read addr n = mem'.read addr n := by
  refine List.map_congr_left fun i hi => h _ (by omega) ?_
  have := List.mem_range.mp hi
  omega

/-- What is read determines the bytes. -/
theorem of_read_eq {mem mem' : Memory} {addr n n' : Nat} (h : mem.read addr n = mem'.read addr n') :
    n = n' ∧ ∀ a, addr ≤ a → a < addr + n → mem a = mem' a := by
  have hlength := congrArg List.length h
  rw [length_read, length_read] at hlength
  subst hlength
  refine ⟨rfl, fun a hle hlt => ?_⟩
  have hbyte := List.map_inj_left.mp h (a - addr) (List.mem_range.mpr (by omega))
  rwa [Nat.add_sub_cancel' hle] at hbyte

theorem write_of_lt {mem : Memory} {addr a : Nat} {bytes : List UInt8} (h : a < addr) :
    mem.write addr bytes a = mem a :=
  if_neg (by omega)

theorem write_of_ge {mem : Memory} {addr a : Nat} {bytes : List UInt8}
    (h : addr + bytes.length ≤ a) : mem.write addr bytes a = mem a := by
  unfold write
  rw [if_pos (by omega), List.getElem?_eq_none (by omega), Option.getD_none]

/-- Reading inside a block that was written. -/
theorem read_write_inside (mem : Memory) (addr : Nat) (bytes : List UInt8) (k n : Nat)
    (h : k + n ≤ bytes.length) :
    (mem.write addr bytes).read (addr + k) n = (bytes.drop k).take n := by
  apply List.ext_getElem
  · simp
    omega
  · intro i hi _
    have hi' : i < n := by simpa using hi
    simp only [read, List.getElem_map, List.getElem_range, List.getElem_take, List.getElem_drop]
    unfold write
    rw [if_pos (by omega), show addr + k + i - addr = k + i by omega,
      List.getElem?_eq_getElem (by omega), Option.getD_some]

/-- Adjacent writes are one write. -/
theorem write_append (mem : Memory) (addr : Nat) (xs ys : List UInt8) :
    (mem.write addr xs).write (addr + xs.length) ys = mem.write addr (xs ++ ys) := by
  funext a
  unfold write
  by_cases hlow : addr ≤ a
  · by_cases hhigh : addr + xs.length ≤ a
    · have hnone : xs[a - addr]? = none := List.getElem?_eq_none (by omega)
      rw [if_pos hhigh, if_pos hlow, if_pos hlow, List.getElem?_append_right (by omega), hnone,
        Option.getD_none, show a - (addr + xs.length) = a - addr - xs.length by omega]
    · rw [if_neg hhigh, if_pos hlow, if_pos hlow, List.getElem?_append_left (by omega)]
  · rw [if_neg (by omega), if_neg hlow, if_neg hlow]

/-- Writes to disjoint blocks commute. -/
theorem write_comm {mem : Memory} {addr addr' : Nat} {xs ys : List UInt8}
    (h : addr + xs.length ≤ addr') :
    (mem.write addr xs).write addr' ys = (mem.write addr' ys).write addr xs := by
  funext a
  by_cases hlt : a < addr'
  · rw [write_of_lt hlt]
    unfold write
    split_ifs <;> first | rfl | omega
  · have hge : (mem.write addr' ys).write addr xs a = mem.write addr' ys a :=
      write_of_ge (by omega)
    rw [hge]
    have hnone : xs[a - addr]? = none := List.getElem?_eq_none (by omega)
    unfold write
    rw [if_pos (by omega), if_pos (by omega), hnone, Option.getD_none, if_pos (by omega)]

/-- The little-endian number in the `w` bytes from an address on. -/
def readLE (mem : Memory) (addr w : Nat) : Nat := decodeLE (mem.read addr w)

/-- A number inside a block that was written. -/
theorem readLE_write {mem : Memory} {addr k w v : Nat} {bytes : List UInt8}
    (hbytes : (bytes.drop k).take w = encodeLE w v) (hle : k + w ≤ bytes.length)
    (hv : v < 256 ^ w) :
    (mem.write addr bytes).readLE (addr + k) w = v := by
  rw [readLE, read_write_inside _ _ _ _ _ hle, hbytes, decodeLE_encodeLE, Nat.mod_eq_of_lt hv]

end Memory

/-! ## Spans -/

/-- A block of addresses. -/
structure Span where
  offset : Nat
  length : Nat
  deriving DecidableEq

/-- A block lies in another one. -/
def Span.Within (s t : Span) : Prop :=
  t.offset ≤ s.offset ∧ s.offset + s.length ≤ t.offset + t.length

instance (s t : Span) : Decidable (s.Within t) := inferInstanceAs (Decidable (_ ∧ _))

/-- A value with the blocks that were read for it. -/
structure Logged (α : Type) where
  value : α
  spans : List Span

namespace Logged

variable {α β : Type}

instance : Monad Logged where
  pure a := ⟨a, []⟩
  bind x f := ⟨(f x.value).value, x.spans ++ (f x.value).spans⟩

instance : LawfulMonad Logged := LawfulMonad.mk' Logged
  (fun x => by
    change Logged.mk x.value (x.spans ++ []) = x
    rw [List.append_nil])
  (fun _ _ => rfl)
  (fun x f g => by
    change Logged.mk _ (x.spans ++ (f x.value).spans ++ _) = Logged.mk _ (x.spans ++ (_ ++ _))
    rw [List.append_assoc]
    rfl)

@[simp] theorem value_pure (a : α) : (pure a : Logged α).value = a := rfl

@[simp] theorem spans_pure (a : α) : (pure a : Logged α).spans = [] := rfl

@[simp] theorem value_map (f : α → β) (x : Logged α) : (f <$> x).value = f x.value := rfl

@[simp] theorem spans_map (f : α → β) (x : Logged α) : (f <$> x).spans = x.spans :=
  List.append_nil x.spans

@[simp] theorem value_bind (x : Logged α) (f : α → Logged β) :
    (x >>= f).value = (f x.value).value := rfl

@[simp] theorem spans_bind (x : Logged α) (f : α → Logged β) :
    (x >>= f).spans = x.spans ++ (f x.value).spans := rfl

@[simp] theorem value_mapM (f : α → Logged β) (l : List α) :
    (l.mapM f).value = l.map fun a => (f a).value := by
  induction l with
  | nil => rfl
  | cons a l ih => simp [List.mapM_cons, ih]

@[simp] theorem spans_mapM (f : α → Logged β) (l : List α) :
    (l.mapM f).spans = l.flatMap fun a => (f a).spans := by
  induction l with
  | nil => rfl
  | cons a l ih => simp [List.mapM_cons, ih]

end Logged

/-- Load a little-endian number. -/
def Memory.loadLE (mem : Memory) (addr w : Nat) : Logged Nat := ⟨mem.readLE addr w, [⟨addr, w⟩]⟩

end VKey
