import VKey.Text.Utf16

/-!
# UTF-8 and strict UTF-16

The conversions between UTF-16, scalars and UTF-8.  They stop at the first unit that is not well
formed; a conversion whose caller may ignore that returns what it has written so far.
-/

namespace VKey

/-- A Unicode scalar value. -/
def isScalar (cp : Nat) : Bool := decide (cp ≤ 0x10FFFF) && !isSurrogate cp

/-! ## UTF-16 -/

/-- Decode UTF-16 up to the first surrogate without its partner. -/
def utf16ToUtf32 : List Char16 → List Nat × Bool
  | [] => ([], true)
  | [c] => if isSurrogate c.toNat then ([], false) else ([c.toNat], true)
  | c1 :: c2 :: input =>
      if isHighSurrogate c1.toNat then
        if isLowSurrogate c2.toNat then
          let rest := utf16ToUtf32 input
          (combineSurrogates c1.toNat c2.toNat :: rest.1, rest.2)
        else ([], false)
      else if isLowSurrogate c1.toNat then ([], false)
      else
        let rest := utf16ToUtf32 (c2 :: input)
        (c1.toNat :: rest.1, rest.2)

/-- Encode scalars in UTF-16. -/
def utf32ToUtf16 (input : List Nat) : Option (List Char16) :=
  if input.all isScalar then some (input.flatMap encodeScalar) else none

/-! ## UTF-8 -/

/-- The bytes of a scalar. -/
def encodeUtf8 (cp : Nat) : List UInt8 :=
  if cp ≤ 0x7F then [UInt8.ofNat cp]
  else if cp ≤ 0x7FF then [UInt8.ofNat (0xC0 + cp / 0x40), UInt8.ofNat (0x80 + cp % 0x40)]
  else if cp ≤ 0xFFFF then
    [UInt8.ofNat (0xE0 + cp / 0x1000), UInt8.ofNat (0x80 + cp / 0x40 % 0x40),
      UInt8.ofNat (0x80 + cp % 0x40)]
  else
    [UInt8.ofNat (0xF0 + cp / 0x40000), UInt8.ofNat (0x80 + cp / 0x1000 % 0x40),
      UInt8.ofNat (0x80 + cp / 0x40 % 0x40), UInt8.ofNat (0x80 + cp % 0x40)]

/-- Encode scalars in UTF-8 up to the first one that is none. -/
def utf32ToUtf8 : List Nat → List UInt8 × Bool
  | [] => ([], true)
  | cp :: input =>
      if isScalar cp then
        let rest := utf32ToUtf8 input
        (encodeUtf8 cp ++ rest.1, rest.2)
      else ([], false)

/-- The first bits of a character and the number of bytes that follow its first byte. -/
def utf8Lead (first : Nat) : Option (Nat × Nat) :=
  if first ≤ 0x7F then some (first, 0)
  else if 0xC2 ≤ first ∧ first ≤ 0xDF then some (first % 0x20, 1)
  else if 0xE0 ≤ first ∧ first ≤ 0xEF then some (first % 0x10, 2)
  else if 0xF0 ≤ first ∧ first ≤ 0xF4 then some (first % 0x08, 3)
  else none

/-- Append the bits of a continuation byte. -/
def utf8Continue (scalar : Option Nat) (byte : UInt8) : Option Nat :=
  scalar.bind fun scalar =>
    if 0x80 ≤ byte.toNat ∧ byte.toNat ≤ 0xBF then some (scalar * 0x40 + byte.toNat % 0x40) else none

/-- The scalar of a character, unless a shorter encoding exists or it is no scalar. -/
def utf8Scalar (lead : Nat) (bytes : List UInt8) : Option Nat :=
  (bytes.foldl utf8Continue (some lead)).bind fun scalar =>
    let overlong :=
      bytes.length = 2 ∧ scalar < 0x800 ∨ bytes.length = 3 ∧ scalar < 0x10000
    if overlong ∨ !isScalar scalar then none else some scalar

/-- Decode UTF-8. -/
def utf8ToUtf32 : List UInt8 → Option (List Nat)
  | [] => some []
  | first :: input =>
      match utf8Lead first.toNat, input with
      | some (lead, 0), input =>
          (utf8Scalar lead []).bind fun scalar => (utf8ToUtf32 input).map (scalar :: ·)
      | some (lead, 1), b1 :: input =>
          (utf8Scalar lead [b1]).bind fun scalar => (utf8ToUtf32 input).map (scalar :: ·)
      | some (lead, 2), b1 :: b2 :: input =>
          (utf8Scalar lead [b1, b2]).bind fun scalar => (utf8ToUtf32 input).map (scalar :: ·)
      | some (lead, 3), b1 :: b2 :: b3 :: input =>
          (utf8Scalar lead [b1, b2, b3]).bind fun scalar => (utf8ToUtf32 input).map (scalar :: ·)
      | _, _ => none

/-! ## Scalars -/

theorem isScalar_iff {cp : Nat} :
    isScalar cp = true ↔ cp ≤ 0x10FFFF ∧ ¬ (0xD800 ≤ cp ∧ cp ≤ 0xDFFF) := by
  rw [isScalar, isSurrogate, Bool.and_eq_true, decide_eq_true_eq, Bool.not_eq_true',
    decide_eq_false_iff_not]

theorem isScalar_combineSurrogates {high low : Nat} (hhigh : isHighSurrogate high = true)
    (hlow : isLowSurrogate low = true) : isScalar (combineSurrogates high low) = true := by
  rw [isScalar_iff]
  simp only [isHighSurrogate, isLowSurrogate, decide_eq_true_eq] at hhigh hlow
  unfold combineSurrogates
  omega

theorem isScalar_unit {c : Char16} (h : isSurrogate c.toNat = false) : isScalar c.toNat = true := by
  have hlt : c.toNat < 0x10000 := c.toNat_lt
  simp only [isSurrogate, decide_eq_false_iff_not] at h
  rw [isScalar_iff]
  omega

theorem isSurrogate_eq (c : Nat) : isSurrogate c = (isHighSurrogate c || isLowSurrogate c) := by
  rw [Bool.eq_iff_iff, Bool.or_eq_true]
  simp only [isSurrogate, isHighSurrogate, isLowSurrogate, decide_eq_true_eq]
  omega

/-- What is decoded are scalars. -/
theorem isScalar_of_mem_utf16ToUtf32 {input : List Char16} :
    ∀ cp ∈ (utf16ToUtf32 input).1, isScalar cp = true := by
  induction input using utf16ToUtf32.induct with
  | case1 => simp [utf16ToUtf32]
  | case2 c hsurrogate => simp [utf16ToUtf32, hsurrogate]
  | case3 c hsurrogate =>
      rw [Bool.not_eq_true] at hsurrogate
      simp [utf16ToUtf32, hsurrogate, isScalar_unit hsurrogate]
  | case4 c1 c2 input hhigh hlow ih =>
      rw [utf16ToUtf32, if_pos hhigh, if_pos hlow]
      exact List.forall_mem_cons.mpr ⟨isScalar_combineSurrogates hhigh hlow, ih⟩
  | case5 c1 c2 input hhigh hlow => simp [utf16ToUtf32, hhigh, hlow]
  | case6 c1 c2 input hhigh hlow => simp [utf16ToUtf32, hhigh, hlow]
  | case7 c1 c2 input hhigh hlow ih =>
      rw [utf16ToUtf32, if_neg hhigh, if_neg hlow]
      refine List.forall_mem_cons.mpr ⟨isScalar_unit ?_, ih⟩
      rw [isSurrogate_eq, Bool.eq_false_iff.mpr hhigh, Bool.eq_false_iff.mpr hlow]
      rfl

/-- Strict decoding succeeds on the strings without a lone surrogate, and then agrees with lenient
decoding. -/
theorem utf16ToUtf32_snd {input : List Char16} :
    (utf16ToUtf32 input).2 = true →
      (utf16ToUtf32 input).1 = decodeScalars input := by
  induction input using utf16ToUtf32.induct with
  | case1 => exact fun _ => rfl
  | case2 c hsurrogate => simp [utf16ToUtf32, hsurrogate]
  | case3 c hsurrogate => simp [utf16ToUtf32, hsurrogate, decodeScalars]
  | case4 c1 c2 input hhigh hlow ih =>
      rw [utf16ToUtf32, if_pos hhigh, if_pos hlow, decodeScalars, hhigh, hlow, Bool.and_true,
        if_pos rfl]
      exact fun hok => congrArg _ (ih hok)
  | case5 c1 c2 input hhigh hlow => simp [utf16ToUtf32, hhigh, hlow]
  | case6 c1 c2 input hhigh hlow => simp [utf16ToUtf32, hhigh, hlow]
  | case7 c1 c2 input hhigh hlow ih =>
      rw [utf16ToUtf32, if_neg hhigh, if_neg hlow, decodeScalars, Bool.eq_false_iff.mpr hhigh,
        Bool.false_and, if_neg Bool.false_ne_true]
      exact fun hok => congrArg _ (ih hok)

theorem toNat_ofNat_unit {n : Nat} (h : n < 0x10000) : (UInt16.ofNat n).toNat = n :=
  UInt16.toNat_ofNat_of_lt' h

theorem toNat_ofNat_byte {n : Nat} (h : n < 0x100) : (UInt8.ofNat n).toNat = n :=
  UInt8.toNat_ofNat_of_lt' h

/-- The units of a scalar are decoded by themselves. -/
theorem utf16ToUtf32_encodeScalar_append {cp : Nat} (hcp : isScalar cp = true)
    (rest : List Char16) :
    utf16ToUtf32 (encodeScalar cp ++ rest) =
      (cp :: (utf16ToUtf32 rest).1, (utf16ToUtf32 rest).2) := by
  have hbounds := isScalar_iff.mp hcp
  unfold encodeScalar
  split_ifs with hsmall
  · have htoNat : (UInt16.ofNat cp).toNat = cp := toNat_ofNat_unit hsmall
    have hsurrogate : isSurrogate cp = false := decide_eq_false hbounds.2
    have hboth := isSurrogate_eq cp ▸ hsurrogate
    rw [Bool.or_eq_false_iff] at hboth
    cases rest with
    | nil =>
        rw [List.append_nil, utf16ToUtf32.eq_def]
        dsimp only
        rw [htoNat, hsurrogate, if_neg Bool.false_ne_true]
        rfl
    | cons c rest =>
        rw [List.cons_append, List.nil_append, utf16ToUtf32, htoNat, hboth.1, hboth.2]
        rfl
  · have hhigh : (UInt16.ofNat (0xD800 + (cp - 0x10000) / 0x400)).toNat =
        0xD800 + (cp - 0x10000) / 0x400 := toNat_ofNat_unit (by omega)
    have hlow : (UInt16.ofNat (0xDC00 + (cp - 0x10000) % 0x400)).toNat =
        0xDC00 + (cp - 0x10000) % 0x400 := toNat_ofNat_unit (by omega)
    have hisHigh : isHighSurrogate (0xD800 + (cp - 0x10000) / 0x400) = true :=
      decide_eq_true (by omega)
    have hisLow : isLowSurrogate (0xDC00 + (cp - 0x10000) % 0x400) = true :=
      decide_eq_true (by omega)
    have hcombine : combineSurrogates (0xD800 + (cp - 0x10000) / 0x400)
        (0xDC00 + (cp - 0x10000) % 0x400) = cp := by
      unfold combineSurrogates
      omega
    rw [List.cons_append, List.cons_append, List.nil_append, utf16ToUtf32, hhigh, hlow,
      if_pos hisHigh, if_pos hisLow, hcombine]

theorem utf16ToUtf32_flatMap_encodeScalar {scalars : List Nat}
    (h : ∀ cp ∈ scalars, isScalar cp = true) :
    utf16ToUtf32 (scalars.flatMap encodeScalar) = (scalars, true) := by
  induction scalars with
  | nil => rfl
  | cons cp scalars ih =>
      obtain ⟨hcp, hrest⟩ := List.forall_mem_cons.mp h
      rw [List.flatMap_cons, utf16ToUtf32_encodeScalar_append hcp, ih hrest]

/-! ## UTF-8 round trip -/

theorem utf32ToUtf8_eq {scalars : List Nat} (h : ∀ cp ∈ scalars, isScalar cp = true) :
    utf32ToUtf8 scalars = (scalars.flatMap encodeUtf8, true) := by
  induction scalars with
  | nil => rfl
  | cons cp scalars ih =>
      obtain ⟨hcp, hrest⟩ := List.forall_mem_cons.mp h
      rw [utf32ToUtf8, if_pos hcp, ih hrest]
      rfl

theorem utf8Continue_some (scalar : Nat) {bits : Nat} (h : bits < 0x40) :
    utf8Continue (some scalar) (UInt8.ofNat (0x80 + bits)) = some (scalar * 0x40 + bits) := by
  have htoNat : (UInt8.ofNat (0x80 + bits)).toNat = 0x80 + bits :=
    toNat_ofNat_byte (by omega)
  rw [utf8Continue, htoNat, Option.bind_some, if_pos (by omega)]
  congr 2
  omega

theorem utf8Scalar_of_foldl {cp lead : Nat} (hcp : isScalar cp = true) {bytes : List UInt8}
    (hfold : bytes.foldl utf8Continue (some lead) = some cp)
    (hshort : ¬ (bytes.length = 2 ∧ cp < 0x800 ∨ bytes.length = 3 ∧ cp < 0x10000)) :
    utf8Scalar lead bytes = some cp := by
  rw [utf8Scalar, hfold, Option.bind_some]
  dsimp only
  rw [if_neg]
  rw [hcp, not_or]
  exact ⟨hshort, Bool.false_ne_true⟩

/-- The first character of a text is decoded by itself. -/
theorem utf8ToUtf32_encodeUtf8_append {cp : Nat} (hcp : isScalar cp = true) (rest : List UInt8) :
    utf8ToUtf32 (encodeUtf8 cp ++ rest) = (utf8ToUtf32 rest).map (cp :: ·) := by
  have hbounds := (isScalar_iff.mp hcp).1
  unfold encodeUtf8
  split_ifs with h1 h2 h3
  · have hlead : utf8Lead (UInt8.ofNat cp).toNat = some (cp, 0) := by
      rw [toNat_ofNat_byte (by omega), utf8Lead, if_pos h1]
    have hscalar : utf8Scalar cp [] = some cp :=
      utf8Scalar_of_foldl hcp rfl (by simp)
    rw [List.cons_append, List.nil_append, utf8ToUtf32.eq_def]
    simp only [hlead, hscalar, Option.bind_some]
  · have hlead : utf8Lead (UInt8.ofNat (0xC0 + cp / 0x40)).toNat = some (cp / 0x40, 1) := by
      rw [toNat_ofNat_byte (by omega), utf8Lead, if_neg (by omega), if_pos (by omega)]
      congr 2
      omega
    have hscalar : utf8Scalar (cp / 0x40) [UInt8.ofNat (0x80 + cp % 0x40)] = some cp := by
      refine utf8Scalar_of_foldl hcp ?_ (by simp)
      rw [List.foldl_cons, utf8Continue_some _ (by omega), List.foldl_nil]
      congr 1
      omega
    rw [List.cons_append, List.cons_append, List.nil_append, utf8ToUtf32.eq_def]
    simp only [hlead, hscalar, Option.bind_some]
  · have hlead : utf8Lead (UInt8.ofNat (0xE0 + cp / 0x1000)).toNat = some (cp / 0x1000, 2) := by
      rw [toNat_ofNat_byte (by omega), utf8Lead, if_neg (by omega), if_neg (by omega),
        if_pos (by omega)]
      congr 2
      omega
    have hscalar : utf8Scalar (cp / 0x1000) [UInt8.ofNat (0x80 + cp / 0x40 % 0x40),
        UInt8.ofNat (0x80 + cp % 0x40)] = some cp := by
      refine utf8Scalar_of_foldl hcp ?_ (by simp; omega)
      rw [List.foldl_cons, utf8Continue_some _ (by omega), List.foldl_cons,
        utf8Continue_some _ (by omega), List.foldl_nil]
      congr 1
      omega
    simp only [List.cons_append, List.nil_append]
    rw [utf8ToUtf32.eq_def]
    simp only [hlead, hscalar, Option.bind_some]
  · have hlead : utf8Lead (UInt8.ofNat (0xF0 + cp / 0x40000)).toNat = some (cp / 0x40000, 3) := by
      rw [toNat_ofNat_byte (by omega), utf8Lead, if_neg (by omega), if_neg (by omega),
        if_neg (by omega), if_pos (by omega)]
      congr 2
      omega
    have hscalar : utf8Scalar (cp / 0x40000) [UInt8.ofNat (0x80 + cp / 0x1000 % 0x40),
        UInt8.ofNat (0x80 + cp / 0x40 % 0x40), UInt8.ofNat (0x80 + cp % 0x40)] = some cp := by
      refine utf8Scalar_of_foldl hcp ?_ (by simp; omega)
      rw [List.foldl_cons, utf8Continue_some _ (by omega), List.foldl_cons,
        utf8Continue_some _ (by omega), List.foldl_cons, utf8Continue_some _ (by omega),
        List.foldl_nil]
      congr 1
      omega
    simp only [List.cons_append, List.nil_append]
    rw [utf8ToUtf32.eq_def]
    simp only [hlead, hscalar, Option.bind_some]

theorem utf8ToUtf32_flatMap_encodeUtf8 {scalars : List Nat}
    (h : ∀ cp ∈ scalars, isScalar cp = true) :
    utf8ToUtf32 (scalars.flatMap encodeUtf8) = some scalars := by
  induction scalars with
  | nil => rfl
  | cons cp scalars ih =>
      obtain ⟨hcp, hrest⟩ := List.forall_mem_cons.mp h
      rw [List.flatMap_cons, utf8ToUtf32_encodeUtf8_append hcp, ih hrest, Option.map_some]

theorem eq_of_mem_encodeUtf8 {cp : Nat} {byte : UInt8} (hcp : isScalar cp = true)
    (hmem : byte ∈ encodeUtf8 cp) (hascii : byte.toNat < 0x80) : cp = byte.toNat := by
  have hbounds := (isScalar_iff.mp hcp).1
  unfold encodeUtf8 at hmem
  split_ifs at hmem with h1 h2 h3
  · rw [List.mem_singleton.mp hmem, toNat_ofNat_byte (by omega)]
  all_goals
    exfalso
    simp only [List.mem_cons, List.not_mem_nil, or_false] at hmem
    rcases hmem with rfl | rfl | rfl | rfl <;>
      (rw [toNat_ofNat_byte (by omega)] at hascii; omega)

end VKey
