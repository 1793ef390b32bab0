import VKey.Text.Utf8Exact

/-!
# The order of scalars

UTF-8 keeps the order of scalars: comparing two encodings byte by byte is comparing the scalars.
The order of UTF-16 units is a different one, and the comparison of two UTF-16 strings decodes both
of them in step.
-/

namespace VKey

/-! ## Comparing in step -/

/-- Decode the first scalar of a string; what is left of the string. -/
def decodeNextScalar (c1 : Char16) (str : List Char16) : Nat × List Char16 :=
  match str with
  | [] => (c1.toNat, [])
  | c2 :: rest =>
      if isHighSurrogate c1.toNat && isLowSurrogate c2.toNat then
        (combineSurrogates c1.toNat c2.toNat, rest)
      else (c1.toNat, c2 :: rest)

theorem length_decodeNextScalar (c1 : Char16) (str : List Char16) :
    (decodeNextScalar c1 str).2.length ≤ str.length := by
  unfold decodeNextScalar
  split
  · exact Nat.le_refl _
  · split_ifs
    · exact Nat.le_succ _
    · exact Nat.le_refl _

/-- Decode a scalar of both strings at a time, up to the first two that differ. -/
def compareScalars : List Char16 → List Char16 → Ordering
  | [], [] => .eq
  | [], _ :: _ => .lt
  | _ :: _, [] => .gt
  | c :: a, d :: b =>
      let nextA := decodeNextScalar c a
      let nextB := decodeNextScalar d b
      if nextA.1 ≠ nextB.1 then if nextA.1 < nextB.1 then .lt else .gt
      else compareScalars nextA.2 nextB.2
termination_by a => a.length
decreasing_by exact Nat.lt_succ_of_le (length_decodeNextScalar c a)

theorem decodeScalars_cons (c : Char16) (str : List Char16) :
    decodeScalars (c :: str) =
      (decodeNextScalar c str).1 :: decodeScalars (decodeNextScalar c str).2 := by
  unfold decodeNextScalar
  cases str with
  | nil => rfl
  | cons c2 rest =>
      rw [decodeScalars]
      dsimp only
      split_ifs <;> rfl

/-- Comparing in step is comparing the scalars. -/
theorem compareScalars_eq (a b : List Char16) :
    compareScalars a b = compareUtf16ByUnicodeScalar a b := by
  unfold compareUtf16ByUnicodeScalar
  fun_induction compareScalars a b with
  | case1 => rfl
  | case2 d b =>
      rw [decodeScalars_cons]
      rfl
  | case3 c a =>
      rw [decodeScalars_cons]
      rfl
  | case4 c a d b nextA nextB hne hlt =>
      rw [decodeScalars_cons, decodeScalars_cons, List.compareLex_cons_cons,
        Nat.compare_eq_lt.mpr hlt]
      rfl
  | case5 c a d b nextA nextB hne hge =>
      rw [decodeScalars_cons, decodeScalars_cons, List.compareLex_cons_cons,
        Nat.compare_eq_gt.mpr (Nat.lt_of_le_of_ne (Nat.le_of_not_lt hge) (Ne.symm hne))]
      rfl
  | case6 c a d b nextA nextB heq ih =>
      rw [not_not] at heq
      rw [decodeScalars_cons, decodeScalars_cons, List.compareLex_cons_cons,
        Nat.compare_eq_eq.mpr heq, ih]
      rfl

/-! ## The order of encodings -/

theorem compare_byte {m n : Nat} (hm : m < 0x100) (hn : n < 0x100) :
    compare (UInt8.ofNat m) (UInt8.ofNat n) = compare m n := by
  simp only [compare, compareOfLessAndEq, UInt8.lt_iff_toNat_lt, ← UInt8.toNat_inj,
    toNat_ofNat_byte hm, toNat_ofNat_byte hn]

theorem compare_add_left (k m n : Nat) : compare (k + m) (k + n) = compare m n := by
  rcases Nat.lt_trichotomy m n with hlt | rfl | hgt
  · rw [Nat.compare_eq_lt.mpr hlt, Nat.compare_eq_lt.mpr (by omega)]
  · rw [Nat.compare_eq_eq.mpr rfl, Nat.compare_eq_eq.mpr rfl]
  · rw [Nat.compare_eq_gt.mpr hgt, Nat.compare_eq_gt.mpr (by omega)]

/-- Numbers are compared by their leading digits, and then by their last one. -/
theorem compare_div_mod (k m n : Nat) :
    compare m n = (compare (m / k) (n / k)).then (compare (m % k) (n % k)) := by
  rcases Nat.lt_trichotomy (m / k) (n / k) with hlt | heq | hgt
  · rw [Nat.compare_eq_lt.mpr hlt, Nat.compare_eq_lt.mpr (Nat.lt_of_div_lt_div hlt)]
    rfl
  · have hmod := compare_add_left (k * (n / k)) (m % k) (n % k)
    rw [Nat.div_add_mod, ← heq, Nat.div_add_mod] at hmod
    rw [Nat.compare_eq_eq.mpr heq, hmod]
    rfl
  · rw [Nat.compare_eq_gt.mpr hgt, Nat.compare_eq_gt.mpr (Nat.lt_of_div_lt_div hgt)]
    rfl

/-- The first character decides, unless it is the same. -/
theorem compareLex_encodeUtf8 {x y : Nat} (hx : isScalar x = true) (hy : isScalar y = true)
    (u v : List UInt8) :
    List.compareLex compare (encodeUtf8 x ++ u) (encodeUtf8 y ++ v) =
      (compare x y).then (List.compareLex compare u v) := by
  have hxmax := (isScalar_iff.mp hx).1
  have hymax := (isScalar_iff.mp hy).1
  -- encodings of different lengths differ in their first byte
  have hlt : ∀ {m n : Nat} (o : Ordering), m < n → n < 0x100 → x < y →
      (compare (UInt8.ofNat m) (UInt8.ofNat n)).then o =
        (compare x y).then (List.compareLex compare u v) := by
    intro m n o hmn hn hxy
    rw [compare_byte (by omega) hn, Nat.compare_eq_lt.mpr hmn, Nat.compare_eq_lt.mpr hxy]
    rfl
  have hgt : ∀ {m n : Nat} (o : Ordering), n < m → m < 0x100 → y < x →
      (compare (UInt8.ofNat m) (UInt8.ofNat n)).then o =
        (compare x y).then (List.compareLex compare u v) := by
    intro m n o hmn hm hxy
    rw [compare_byte hm (by omega), Nat.compare_eq_gt.mpr hmn, Nat.compare_eq_gt.mpr hxy]
    rfl
  have hthird : ∀ n, n / 0x1000 = n / 0x40 / 0x40 := fun n => by omega
  have hfourth : ∀ n, n / 0x40000 = n / 0x1000 / 0x40 := fun n => by omega
  unfold encodeUtf8
  split_ifs with hx1 hy1 hy2 hy3 hx2 hy1 hy2 hy3 hx3 hy1 hy2 hy3 hy1 hy2 hy3
  all_goals simp only [List.cons_append, List.nil_append, List.compareLex_cons_cons]
  · rw [compare_byte (by omega) (by omega)]
  · exact hlt _ (by omega) (by omega) (by omega)
  · exact hlt _ (by omega) (by omega) (by omega)
  · exact hlt _ (by omega) (by omega) (by omega)
  · exact hgt _ (by omega) (by omega) (by omega)
  · rw [compare_byte (by omega) (by omega), compare_byte (by omega) (by omega), compare_add_left,
      compare_add_left, ← Ordering.then_assoc, ← compare_div_mod]
  · exact hlt _ (by omega) (by omega) (by omega)
  · exact hlt _ (by omega) (by omega) (by omega)
  · exact hgt _ (by omega) (by omega) (by omega)
  · exact hgt _ (by omega) (by omega) (by omega)
  · rw [compare_byte (by omega) (by omega), compare_byte (by omega) (by omega),
      compare_byte (by omega) (by omega), compare_add_left, compare_add_left, compare_add_left,
      hthird, hthird, ← Ordering.then_assoc, ← compare_div_mod, ← Ordering.then_assoc,
      ← compare_div_mod]
  · exact hlt _ (by omega) (by omega) (by omega)
  · exact hgt _ (by omega) (by omega) (by omega)
  · exact hgt _ (by omega) (by omega) (by omega)
  · exact hgt _ (by omega) (by omega) (by omega)
  · rw [compare_byte (by omega) (by omega), compare_byte (by omega) (by omega),
      compare_byte (by omega) (by omega), compare_byte (by omega) (by omega), compare_add_left,
      compare_add_left, compare_add_left, compare_add_left, hfourth, hfourth,
      ← Ordering.then_assoc, ← compare_div_mod, hthird, hthird, ← Ordering.then_assoc,
      ← compare_div_mod, ← Ordering.then_assoc, ← compare_div_mod]

/-- UTF-8 keeps the order of scalars. -/
theorem compareLex_flatMap_encodeUtf8 {s t : List Nat} (hs : ∀ cp ∈ s, isScalar cp = true)
    (ht : ∀ cp ∈ t, isScalar cp = true) :
    List.compareLex compare (s.flatMap encodeUtf8) (t.flatMap encodeUtf8) =
      List.compareLex compare s t := by
  have hcons : ∀ cp, ∃ first rest, encodeUtf8 cp = first :: rest := by
    intro cp
    unfold encodeUtf8
    split_ifs <;> exact ⟨_, _, rfl⟩
  induction s generalizing t with
  | nil =>
      cases t with
      | nil => rfl
      | cons y t =>
          obtain ⟨first, rest, hy⟩ := hcons y
          rw [List.flatMap_cons, hy]
          rfl
  | cons x s ih =>
      obtain ⟨hx, hs⟩ := List.forall_mem_cons.mp hs
      cases t with
      | nil =>
          obtain ⟨first, rest, hx⟩ := hcons x
          rw [List.flatMap_cons, hx]
          rfl
      | cons y t =>
          obtain ⟨hy, ht⟩ := List.forall_mem_cons.mp ht
          rw [List.flatMap_cons, List.flatMap_cons, compareLex_encodeUtf8 hx hy, ih hs ht,
            List.compareLex_cons_cons]

end VKey
