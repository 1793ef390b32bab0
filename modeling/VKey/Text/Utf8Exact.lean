import Mathlib.Data.List.Forall2
import VKey.Text.Utf8

/-!
# Well-formed UTF-8 and UTF-16

The grammars of UTF-8 and UTF-16, and that the conversions accept exactly what the grammars derive
and invert each other there.
-/

namespace VKey

/-! ## The grammars -/

/-- The ranges of the bytes of a character, one row for each range of its scalar: U+0000, U+0080,
U+0800, U+1000, U+D000, U+E000, U+10000, U+40000 and U+100000 on. -/
def utf8Table : List (List (Nat × Nat)) :=
  [[(0x00, 0x7F)],
   [(0xC2, 0xDF), (0x80, 0xBF)],
   [(0xE0, 0xE0), (0xA0, 0xBF), (0x80, 0xBF)],
   [(0xE1, 0xEC), (0x80, 0xBF), (0x80, 0xBF)],
   [(0xED, 0xED), (0x80, 0x9F), (0x80, 0xBF)],
   [(0xEE, 0xEF), (0x80, 0xBF), (0x80, 0xBF)],
   [(0xF0, 0xF0), (0x90, 0xBF), (0x80, 0xBF), (0x80, 0xBF)],
   [(0xF1, 0xF3), (0x80, 0xBF), (0x80, 0xBF), (0x80, 0xBF)],
   [(0xF4, 0xF4), (0x80, 0x8F), (0x80, 0xBF), (0x80, 0xBF)]]

/-- The byte lies in a range. -/
def InRange (range : Nat × Nat) (byte : UInt8) : Prop :=
  range.1 ≤ byte.toNat ∧ byte.toNat ≤ range.2

theorem InRange.widen {lo hi lo' hi' : Nat} {byte : UInt8} (h : InRange (lo, hi) byte)
    (hlo : lo' ≤ lo) (hhi : hi ≤ hi') : InRange (lo', hi') byte :=
  ⟨Nat.le_trans hlo h.1, Nat.le_trans h.2 hhi⟩

/-- The bytes of one character. -/
def IsUtf8Char (bytes : List UInt8) : Prop := ∃ row ∈ utf8Table, List.Forall₂ InRange row bytes

/-- The bytes are characters one after another. -/
inductive WellFormedUtf8 : List UInt8 → Prop
  | nil : WellFormedUtf8 []
  | append {char bytes : List UInt8} (hchar : IsUtf8Char char) (hbytes : WellFormedUtf8 bytes) :
      WellFormedUtf8 (char ++ bytes)

/-- The units are surrogate pairs and units that are no surrogates. -/
inductive WellFormedUtf16 : List Char16 → Prop
  | nil : WellFormedUtf16 []
  | unit {c : Char16} {units : List Char16} (hc : isSurrogate c.toNat = false)
      (hunits : WellFormedUtf16 units) : WellFormedUtf16 (c :: units)
  | pair {high low : Char16} {units : List Char16} (hhigh : isHighSurrogate high.toNat = true)
      (hlow : isLowSurrogate low.toNat = true) (hunits : WellFormedUtf16 units) :
      WellFormedUtf16 (high :: low :: units)

/-! ## The bytes of a character -/

theorem encodeUtf8_one {a : UInt8} (ha : a.toNat ≤ 0x7F) : encodeUtf8 a.toNat = [a] := by
  rw [encodeUtf8, if_pos ha, UInt8.ofNat_toNat]

theorem ofNat_eq_byte {n : Nat} {b : UInt8} (h : n = b.toNat) : UInt8.ofNat n = b := by
  rw [h, UInt8.ofNat_toNat]

theorem encodeUtf8_two {a b : UInt8} (ha : InRange (0xC2, 0xDF) a) (hb : InRange (0x80, 0xBF) b) :
    encodeUtf8 (a.toNat % 0x20 * 0x40 + b.toNat % 0x40) = [a, b] := by
  unfold InRange at ha hb
  rw [encodeUtf8, if_neg (by omega), if_pos (by omega), ofNat_eq_byte (b := a) (by omega),
    ofNat_eq_byte (b := b) (by omega)]

theorem encodeUtf8_three {a b c : UInt8} (ha : InRange (0xE0, 0xEF) a) (hb : InRange (0x80, 0xBF) b)
    (hc : InRange (0x80, 0xBF) c)
    (hlong : 0x800 ≤ (a.toNat % 0x10 * 0x40 + b.toNat % 0x40) * 0x40 + c.toNat % 0x40) :
    encodeUtf8 ((a.toNat % 0x10 * 0x40 + b.toNat % 0x40) * 0x40 + c.toNat % 0x40) = [a, b, c] := by
  unfold InRange at ha hb hc
  rw [encodeUtf8, if_neg (by omega), if_neg (by omega), if_pos (by omega),
    ofNat_eq_byte (b := a) (by omega), ofNat_eq_byte (b := b) (by omega),
    ofNat_eq_byte (b := c) (by omega)]

theorem encodeUtf8_four {a b c d : UInt8} (ha : InRange (0xF0, 0xF4) a)
    (hb : InRange (0x80, 0xBF) b) (hc : InRange (0x80, 0xBF) c) (hd : InRange (0x80, 0xBF) d)
    (hlong : 0x10000 ≤
      ((a.toNat % 0x08 * 0x40 + b.toNat % 0x40) * 0x40 + c.toNat % 0x40) * 0x40 + d.toNat % 0x40) :
    encodeUtf8 (((a.toNat % 0x08 * 0x40 + b.toNat % 0x40) * 0x40 + c.toNat % 0x40) * 0x40 +
      d.toNat % 0x40) = [a, b, c, d] := by
  unfold InRange at ha hb hc hd
  rw [encodeUtf8, if_neg (by omega), if_neg (by omega), if_neg (by omega),
    ofNat_eq_byte (b := a) (by omega), ofNat_eq_byte (b := b) (by omega),
    ofNat_eq_byte (b := c) (by omega), ofNat_eq_byte (b := d) (by omega)]

theorem exists_scalar_three {a b c : UInt8} (ha : InRange (0xE0, 0xEF) a)
    (hb : InRange (0x80, 0xBF) b) (hc : InRange (0x80, 0xBF) c)
    (hlong : a.toNat = 0xE0 → 0xA0 ≤ b.toNat) (hsurrogate : a.toNat = 0xED → b.toNat ≤ 0x9F) :
    ∃ cp, isScalar cp = true ∧ encodeUtf8 cp = [a, b, c] := by
  have hcp := encodeUtf8_three ha hb hc
  unfold InRange at ha hb hc
  exact ⟨_, isScalar_iff.mpr (by omega), hcp (by omega)⟩

theorem exists_scalar_four {a b c d : UInt8} (ha : InRange (0xF0, 0xF4) a)
    (hb : InRange (0x80, 0xBF) b) (hc : InRange (0x80, 0xBF) c) (hd : InRange (0x80, 0xBF) d)
    (hlong : a.toNat = 0xF0 → 0x90 ≤ b.toNat) (hlast : a.toNat = 0xF4 → b.toNat ≤ 0x8F) :
    ∃ cp, isScalar cp = true ∧ encodeUtf8 cp = [a, b, c, d] := by
  have hcp := encodeUtf8_four ha hb hc hd
  unfold InRange at ha hb hc hd
  exact ⟨_, isScalar_iff.mpr (by omega), hcp (by omega)⟩

/-- The rows of the table derive encodings of scalars. -/
theorem IsUtf8Char.exists_scalar {bytes : List UInt8} (h : IsUtf8Char bytes) :
    ∃ cp, isScalar cp = true ∧ encodeUtf8 cp = bytes := by
  obtain ⟨row, hrow, hbytes⟩ := h
  simp only [utf8Table, List.mem_cons, List.not_mem_nil, or_false] at hrow
  rcases hrow with rfl | rfl | rfl | rfl | rfl | rfl | rfl | rfl | rfl
  all_goals simp only [List.forall₂_cons_left_iff, List.forall₂_nil_left_iff] at hbytes
  · obtain ⟨a, _, ha, rfl, rfl⟩ := hbytes
    unfold InRange at ha
    exact ⟨a.toNat, isScalar_iff.mpr (by omega), encodeUtf8_one ha.2⟩
  · obtain ⟨a, _, ha, ⟨b, _, hb, rfl, rfl⟩, rfl⟩ := hbytes
    have hcp := encodeUtf8_two ha hb
    unfold InRange at ha hb
    exact ⟨_, isScalar_iff.mpr (by omega), hcp⟩
  -- the first byte of a longer character says how the second one is restricted
  iterate 4
    · obtain ⟨a, _, ha, ⟨b, _, hb, ⟨c, _, hc, rfl, rfl⟩, rfl⟩, rfl⟩ := hbytes
      refine exists_scalar_three (ha.widen (by decide) (by decide))
        (hb.widen (by decide) (by decide)) hc ?_ ?_ <;> unfold InRange at ha hb <;> omega
  iterate 3
    · obtain ⟨a, _, ha, ⟨b, _, hb, ⟨c, _, hc, ⟨d, _, hd, rfl, rfl⟩, rfl⟩, rfl⟩, rfl⟩ := hbytes
      refine exists_scalar_four (ha.widen (by decide) (by decide))
        (hb.widen (by decide) (by decide)) hc hd ?_ ?_ <;> unfold InRange at ha hb <;> omega

theorem inRange_ofNat {lo hi n : Nat} (hlo : lo ≤ n) (hhi : n ≤ hi) (hbyte : hi < 0x100) :
    InRange (lo, hi) (UInt8.ofNat n) := by
  rw [InRange, toNat_ofNat_byte (by omega)]
  exact ⟨hlo, hhi⟩

/-- The encodings of scalars are derived by the rows of the table. -/
theorem isUtf8Char_encodeUtf8 {cp : Nat} (hcp : isScalar cp = true) :
    IsUtf8Char (encodeUtf8 cp) := by
  obtain ⟨hmax, hsurrogate⟩ := isScalar_iff.mp hcp
  have htail : ∀ n, InRange (0x80, 0xBF) (UInt8.ofNat (0x80 + n % 0x40)) := fun n =>
    inRange_ofNat (by omega) (by omega) (by decide)
  unfold encodeUtf8
  split_ifs with h1 h2 h3
  · exact ⟨[(0x00, 0x7F)], by decide, .cons (inRange_ofNat (by omega) h1 (by decide)) .nil⟩
  · exact ⟨[(0xC2, 0xDF), (0x80, 0xBF)], by decide,
      .cons (inRange_ofNat (by omega) (by omega) (by decide)) (.cons (htail _) .nil)⟩
  -- the leading bits of the scalar choose the row
  · have hrow : ∀ alo ahi blo bhi, [(alo, ahi), (blo, bhi), (0x80, 0xBF)] ∈ utf8Table →
        (alo ≤ 0xE0 + cp / 0x1000 ∧ 0xE0 + cp / 0x1000 ≤ ahi ∧ ahi < 0x100) →
        (blo ≤ 0x80 + cp / 0x40 % 0x40 ∧ 0x80 + cp / 0x40 % 0x40 ≤ bhi ∧ bhi < 0x100) →
        IsUtf8Char [UInt8.ofNat (0xE0 + cp / 0x1000), UInt8.ofNat (0x80 + cp / 0x40 % 0x40),
          UInt8.ofNat (0x80 + cp % 0x40)] :=
      fun alo ahi blo bhi hmem ha hb => ⟨_, hmem, .cons (inRange_ofNat ha.1 ha.2.1 ha.2.2)
        (.cons (inRange_ofNat hb.1 hb.2.1 hb.2.2) (.cons (htail _) .nil))⟩
    rcases Nat.lt_or_ge cp 0x1000 with hlt | hge
    · exact hrow 0xE0 0xE0 0xA0 0xBF (by decide) (by omega) (by omega)
    rcases Nat.lt_or_ge cp 0xD000 with hlt | hge
    · exact hrow 0xE1 0xEC 0x80 0xBF (by decide) (by omega) (by omega)
    rcases Nat.lt_or_ge cp 0xE000 with hlt | hge
    · exact hrow 0xED 0xED 0x80 0x9F (by decide) (by omega) (by omega)
    · exact hrow 0xEE 0xEF 0x80 0xBF (by decide) (by omega) (by omega)
  · have hrow : ∀ alo ahi blo bhi,
        [(alo, ahi), (blo, bhi), (0x80, 0xBF), (0x80, 0xBF)] ∈ utf8Table →
        (alo ≤ 0xF0 + cp / 0x40000 ∧ 0xF0 + cp / 0x40000 ≤ ahi ∧ ahi < 0x100) →
        (blo ≤ 0x80 + cp / 0x1000 % 0x40 ∧ 0x80 + cp / 0x1000 % 0x40 ≤ bhi ∧ bhi < 0x100) →
        IsUtf8Char [UInt8.ofNat (0xF0 + cp / 0x40000), UInt8.ofNat (0x80 + cp / 0x1000 % 0x40),
          UInt8.ofNat (0x80 + cp / 0x40 % 0x40), UInt8.ofNat (0x80 + cp % 0x40)] :=
      fun alo ahi blo bhi hmem ha hb => ⟨_, hmem, .cons (inRange_ofNat ha.1 ha.2.1 ha.2.2)
        (.cons (inRange_ofNat hb.1 hb.2.1 hb.2.2) (.cons (htail _) (.cons (htail _) .nil)))⟩
    rcases Nat.lt_or_ge cp 0x40000 with hlt | hge
    · exact hrow 0xF0 0xF0 0x90 0xBF (by decide) (by omega) (by omega)
    rcases Nat.lt_or_ge cp 0x100000 with hlt | hge
    · exact hrow 0xF1 0xF3 0x80 0xBF (by decide) (by omega) (by omega)
    · exact hrow 0xF4 0xF4 0x80 0x8F (by decide) (by omega) (by omega)

theorem isUtf8Char_iff {bytes : List UInt8} :
    IsUtf8Char bytes ↔ ∃ cp, isScalar cp = true ∧ encodeUtf8 cp = bytes := by
  constructor
  · exact IsUtf8Char.exists_scalar
  · rintro ⟨cp, hcp, rfl⟩
    exact isUtf8Char_encodeUtf8 hcp

/-! ## Decoding UTF-8 -/

theorem utf8Continue_eq_some {scalar : Option Nat} {byte : UInt8} {next : Nat} :
    utf8Continue scalar byte = some next ↔
      ∃ s, scalar = some s ∧ InRange (0x80, 0xBF) byte ∧ s * 0x40 + byte.toNat % 0x40 = next := by
  cases scalar with
  | none => simp [utf8Continue]
  | some s => simp [utf8Continue, InRange]

theorem utf8Scalar_eq_some {lead cp : Nat} {bytes : List UInt8}
    (h : utf8Scalar lead bytes = some cp) :
    bytes.foldl utf8Continue (some lead) = some cp ∧ isScalar cp = true ∧
      (bytes.length = 2 → 0x800 ≤ cp) ∧ (bytes.length = 3 → 0x10000 ≤ cp) := by
  obtain ⟨scalar, hfold, hchecks⟩ := Option.bind_eq_some_iff.mp h
  dsimp only at hchecks
  split_ifs at hchecks with hbad
  obtain rfl := Option.some.inj hchecks
  rw [not_or, not_or, not_and, not_and, Nat.not_lt, Nat.not_lt] at hbad
  refine ⟨hfold, ?_, hbad.1.1, hbad.1.2⟩
  simpa using hbad.2

/-- The bytes that are decoded to a scalar are its encoding. -/
theorem encodeUtf8_of_utf8Scalar {first : UInt8} {bytes : List UInt8} {lead cp : Nat}
    (hlead : utf8Lead first.toNat = some (lead, bytes.length))
    (hcp : utf8Scalar lead bytes = some cp) :
    isScalar cp = true ∧ encodeUtf8 cp = first :: bytes := by
  obtain ⟨hfold, hscalar, hthree, hfour⟩ := utf8Scalar_eq_some hcp
  refine ⟨hscalar, ?_⟩
  unfold utf8Lead at hlead
  split_ifs at hlead with h1 h2 h3 h4
  all_goals
    obtain ⟨rfl, hlength⟩ := Prod.mk.inj (Option.some.inj hlead)
  · obtain rfl := List.length_eq_zero_iff.mp hlength.symm
    obtain rfl := Option.some.inj hfold
    exact encodeUtf8_one h1
  · obtain ⟨b, rfl⟩ := List.length_eq_one_iff.mp hlength.symm
    rw [List.foldl_cons, List.foldl_nil] at hfold
    obtain ⟨_, hfirst, hb, rfl⟩ := utf8Continue_eq_some.mp hfold
    obtain rfl := Option.some.inj hfirst
    exact encodeUtf8_two h2 hb
  · obtain ⟨b, c, rfl⟩ := List.length_eq_two.mp hlength.symm
    obtain ⟨_, hsecond, hc, rfl⟩ := utf8Continue_eq_some.mp hfold
    obtain ⟨_, hfirst, hb, rfl⟩ := utf8Continue_eq_some.mp hsecond
    obtain rfl := Option.some.inj hfirst
    exact encodeUtf8_three h3 hb hc (hthree hlength.symm)
  · obtain ⟨b, c, d, rfl⟩ := List.length_eq_three.mp hlength.symm
    obtain ⟨_, hthird, hd, rfl⟩ := utf8Continue_eq_some.mp hfold
    obtain ⟨_, hsecond, hc, rfl⟩ := utf8Continue_eq_some.mp hthird
    obtain ⟨_, hfirst, hb, rfl⟩ := utf8Continue_eq_some.mp hsecond
    obtain rfl := Option.some.inj hfirst
    exact encodeUtf8_four h4 hb hc hd (hfour hlength.symm)

/-- The scalars are those that a text encodes. -/
def EncodesUtf8 (scalars : List Nat) (bytes : List UInt8) : Prop :=
  (∀ cp ∈ scalars, isScalar cp = true) ∧ scalars.flatMap encodeUtf8 = bytes

theorem encodesUtf8_of_utf8Scalar {first : UInt8} (bytes : List UInt8)
    {input : List UInt8} {lead : Nat}
    {scalars : List Nat} (hlead : utf8Lead first.toNat = some (lead, bytes.length))
    (ih : ∀ {scalars}, utf8ToUtf32 input = some scalars → EncodesUtf8 scalars input)
    (h : ((utf8Scalar lead bytes).bind fun scalar =>
      (utf8ToUtf32 input).map (scalar :: ·)) = some scalars) :
    EncodesUtf8 scalars (first :: (bytes ++ input)) := by
  obtain ⟨cp, hcp, hrest⟩ := Option.bind_eq_some_iff.mp h
  obtain ⟨rest, hinput, rfl⟩ := Option.map_eq_some_iff.mp hrest
  obtain ⟨hscalar, hchar⟩ := encodeUtf8_of_utf8Scalar hlead hcp
  obtain ⟨hscalars, hbytes⟩ := ih hinput
  refine ⟨List.forall_mem_cons.mpr ⟨hscalar, hscalars⟩, ?_⟩
  rw [List.flatMap_cons, hchar, hbytes, List.cons_append]

/-- A text is decoded to the scalars whose encoding it is. -/
theorem utf8ToUtf32_eq_some {bytes : List UInt8} {scalars : List Nat} :
    utf8ToUtf32 bytes = some scalars ↔ EncodesUtf8 scalars bytes := by
  constructor
  · intro h
    fun_induction utf8ToUtf32 bytes generalizing scalars with
    | case1 =>
        obtain rfl := Option.some.inj h
        exact ⟨fun _ hcp => absurd hcp List.not_mem_nil, rfl⟩
    | case2 first input lead hlead ih => exact encodesUtf8_of_utf8Scalar [] hlead ih h
    | case3 first lead b1 input hlead ih => exact encodesUtf8_of_utf8Scalar [b1] hlead ih h
    | case4 first lead b1 b2 input hlead ih => exact encodesUtf8_of_utf8Scalar [b1, b2] hlead ih h
    | case5 first lead b1 b2 b3 input hlead ih =>
        exact encodesUtf8_of_utf8Scalar [b1, b2, b3] hlead ih h
    | case6 => exact absurd h (by simp)
  · rintro ⟨hscalars, rfl⟩
    exact utf8ToUtf32_flatMap_encodeUtf8 hscalars

/-- What is well formed encodes scalars. -/
theorem wellFormedUtf8_iff {bytes : List UInt8} :
    WellFormedUtf8 bytes ↔ ∃ scalars, EncodesUtf8 scalars bytes := by
  constructor
  · intro h
    induction h with
    | nil => exact ⟨[], fun _ hcp => absurd hcp List.not_mem_nil, rfl⟩
    | append hchar _ ih =>
        obtain ⟨cp, hcp, rfl⟩ := isUtf8Char_iff.mp hchar
        obtain ⟨scalars, hscalars, rfl⟩ := ih
        exact ⟨cp :: scalars, List.forall_mem_cons.mpr ⟨hcp, hscalars⟩, List.flatMap_cons⟩
  · rintro ⟨scalars, hscalars, rfl⟩
    induction scalars with
    | nil => exact .nil
    | cons cp scalars ih =>
        obtain ⟨hcp, hrest⟩ := List.forall_mem_cons.mp hscalars
        exact .append (isUtf8Char_encodeUtf8 hcp) (ih hrest)

theorem isSome_utf8ToUtf32 {bytes : List UInt8} :
    (utf8ToUtf32 bytes).isSome = true ↔ WellFormedUtf8 bytes := by
  rw [wellFormedUtf8_iff, Option.isSome_iff_exists]
  exact exists_congr fun _ => utf8ToUtf32_eq_some

theorem snd_utf32ToUtf8 (scalars : List Nat) : (utf32ToUtf8 scalars).2 = scalars.all isScalar := by
  induction scalars with
  | nil => rfl
  | cons cp scalars ih =>
      rw [utf32ToUtf8, List.all_cons]
      cases isScalar cp with
      | true => exact ih
      | false => rfl

theorem utf32ToUtf8_eq_true {scalars : List Nat} {bytes : List UInt8} :
    utf32ToUtf8 scalars = (bytes, true) ↔ EncodesUtf8 scalars bytes := by
  constructor
  · intro h
    have hall := snd_utf32ToUtf8 scalars
    rw [h, eq_comm, List.all_eq_true] at hall
    rw [utf32ToUtf8_eq hall] at h
    exact ⟨hall, (Prod.mk.inj h).1⟩
  · rintro ⟨hscalars, rfl⟩
    exact utf32ToUtf8_eq hscalars

/-! ## UTF-16 -/

/-- The scalars are those that a string of units encodes. -/
def EncodesUtf16 (scalars : List Nat) (units : List Char16) : Prop :=
  (∀ cp ∈ scalars, isScalar cp = true) ∧ scalars.flatMap encodeScalar = units

theorem wellFormedUtf16_encodeScalar {cp : Nat} (hcp : isScalar cp = true) {units : List Char16}
    (hunits : WellFormedUtf16 units) : WellFormedUtf16 (encodeScalar cp ++ units) := by
  obtain ⟨hmax, hsurrogate⟩ := isScalar_iff.mp hcp
  unfold encodeScalar
  split_ifs with hsmall
  · refine .unit ?_ hunits
    rw [toNat_ofNat_unit hsmall]
    exact decide_eq_false hsurrogate
  · refine .pair ?_ ?_ hunits
    · rw [toNat_ofNat_unit (by omega)]
      exact decide_eq_true (by omega)
    · rw [toNat_ofNat_unit (by omega)]
      exact decide_eq_true (by omega)

/-- What is well formed encodes scalars. -/
theorem wellFormedUtf16_iff {units : List Char16} :
    WellFormedUtf16 units ↔ ∃ scalars, EncodesUtf16 scalars units := by
  constructor
  · intro h
    induction h with
    | nil => exact ⟨[], fun _ hcp => absurd hcp List.not_mem_nil, rfl⟩
    | @unit c _ hc _ ih =>
        obtain ⟨scalars, hscalars, rfl⟩ := ih
        refine ⟨c.toNat :: scalars, List.forall_mem_cons.mpr ⟨isScalar_unit hc, hscalars⟩, ?_⟩
        rw [List.flatMap_cons, encodeScalar_toNat, List.singleton_append]
    | @pair high low _ hhigh hlow _ ih =>
        obtain ⟨scalars, hscalars, rfl⟩ := ih
        refine ⟨combineSurrogates high.toNat low.toNat :: scalars,
          List.forall_mem_cons.mpr ⟨isScalar_combineSurrogates hhigh hlow, hscalars⟩, ?_⟩
        rw [List.flatMap_cons, encodeScalar_combineSurrogates hhigh hlow]
        rfl
  · rintro ⟨scalars, hscalars, rfl⟩
    induction scalars with
    | nil => exact .nil
    | cons cp scalars ih =>
        obtain ⟨hcp, hrest⟩ := List.forall_mem_cons.mp hscalars
        exact wellFormedUtf16_encodeScalar hcp (ih hrest)

theorem utf16ToUtf32_eq_true {units : List Char16} {scalars : List Nat} :
    utf16ToUtf32 units = (scalars, true) ↔ EncodesUtf16 scalars units := by
  constructor
  · intro h
    have hok : (utf16ToUtf32 units).2 = true := congrArg Prod.snd h
    obtain rfl : (utf16ToUtf32 units).1 = scalars := congrArg Prod.fst h
    refine ⟨isScalar_of_mem_utf16ToUtf32, ?_⟩
    rw [utf16ToUtf32_snd hok, flatMap_encodeScalar_decodeScalars]
  · rintro ⟨hscalars, rfl⟩
    exact utf16ToUtf32_flatMap_encodeScalar hscalars

theorem snd_utf16ToUtf32 {units : List Char16} :
    (utf16ToUtf32 units).2 = true ↔ WellFormedUtf16 units := by
  rw [wellFormedUtf16_iff]
  constructor
  · intro hok
    exact ⟨(utf16ToUtf32 units).1, utf16ToUtf32_eq_true.mp (Prod.ext rfl hok)⟩
  · rintro ⟨scalars, hscalars⟩
    rw [utf16ToUtf32_eq_true.mpr hscalars]

/-- A string without a lone surrogate is well formed. -/
theorem hasInvalidSurrogates_eq_false_iff {str : List Char16} :
    hasInvalidSurrogates str = false ↔ WellFormedUtf16 str := by
  constructor
  · intro h
    unfold hasInvalidSurrogates at h
    induction str using decodeScalars.induct with
    | case1 => exact .nil
    | case2 c => exact .unit (by simpa [decodeScalars] using h) .nil
    | case3 c1 c2 str hpair ih =>
        rw [decodeScalars, if_pos hpair, List.any_cons, Bool.or_eq_false_iff] at h
        rw [Bool.and_eq_true] at hpair
        exact .pair hpair.1 hpair.2 (ih h.2)
    | case4 c1 c2 str hpair ih =>
        rw [decodeScalars, if_neg hpair, List.any_cons, Bool.or_eq_false_iff] at h
        exact .unit h.1 (ih h.2)
  · intro h
    have hok := snd_utf16ToUtf32.mpr h
    have hscalar : ∀ cp ∈ decodeScalars str, isScalar cp = true := by
      rw [← utf16ToUtf32_snd hok]
      exact isScalar_of_mem_utf16ToUtf32
    refine List.any_eq_false.mpr fun cp hcp => ?_
    have hcp := (isScalar_iff.mp (hscalar cp hcp)).2
    simpa [isSurrogate] using hcp

theorem utf32ToUtf16_eq_some_iff {scalars : List Nat} {units : List Char16} :
    utf32ToUtf16 scalars = some units ↔ EncodesUtf16 scalars units := by
  unfold utf32ToUtf16 EncodesUtf16
  split_ifs with hall
  · rw [Option.some.injEq, and_iff_right (List.all_eq_true.mp hall)]
  · exact ⟨fun h => absurd h (by simp), fun h => absurd (List.all_eq_true.mpr h.1) hall⟩

/-! ## The conversions -/

/-- The decoders accept exactly what is well formed, the encoders exactly scalars, and a decoder and
its encoder invert each other. -/
theorem conversions_exact :
    (∀ bytes, (utf8ToUtf32 bytes).isSome = true ↔ WellFormedUtf8 bytes) ∧
    (∀ scalars, (utf32ToUtf8 scalars).2 = true ↔ ∀ cp ∈ scalars, isScalar cp = true) ∧
    (∀ bytes scalars, utf8ToUtf32 bytes = some scalars ↔ utf32ToUtf8 scalars = (bytes, true)) ∧
    (∀ units, (utf16ToUtf32 units).2 = true ↔ WellFormedUtf16 units) ∧
    (∀ scalars, (utf32ToUtf16 scalars).isSome = true ↔ ∀ cp ∈ scalars, isScalar cp = true) ∧
    (∀ units scalars, utf16ToUtf32 units = (scalars, true) ↔
      utf32ToUtf16 scalars = some units) := by
  refine ⟨fun _ => isSome_utf8ToUtf32, fun scalars => ?_, fun _ _ => ?_, fun _ => snd_utf16ToUtf32,
    fun scalars => ?_, fun _ _ => ?_⟩
  · rw [snd_utf32ToUtf8, List.all_eq_true]
  · rw [utf8ToUtf32_eq_some, utf32ToUtf8_eq_true]
  · rw [utf32ToUtf16, ← List.all_eq_true]
    cases scalars.all isScalar <;> simp
  · rw [utf16ToUtf32_eq_true, utf32ToUtf16_eq_some_iff]

example : utf8ToUtf32 [0xE1, 0xBB, 0x87] = some [0x1EC7] ∧ utf8ToUtf32 [0xC0, 0x80] = none := by
  decide

end VKey
