import VKey.Lexicon.TextRoundTrip
import VKey.Text.Utf8Exact

/-!
# The canonical form of the spell exclusions

What is accepted of a list of exclusions depends on the set of its entries, and is accepted again as
it is.  The two overloads, for UTF-16 and for UTF-8, do the same.
-/

namespace VKey

/-! ## Images of lists -/

section Images

variable {α β : Type*} {R : α → β → Prop}

theorem exists_forall₂ {l : List α} (h : ∀ a ∈ l, ∃ b, R a b) :
    ∃ images, List.Forall₂ R l images := by
  induction l with
  | nil => exact ⟨[], .nil⟩
  | cons a l ih =>
      obtain ⟨⟨b, hb⟩, hrest⟩ := List.forall_mem_cons.mp h
      obtain ⟨images, himages⟩ := ih hrest
      exact ⟨b :: images, .cons hb himages⟩

theorem mem_iff_of_forall₂ (hfun : ∀ a b c, R a b → R a c → b = c) {l : List α} {images : List β}
    (h : List.Forall₂ R l images) {c : β} : c ∈ images ↔ ∃ a ∈ l, R a c := by
  induction h with
  | nil => simp
  | @cons a b l images hab _ ih =>
      have hc : c = b ↔ R a c := ⟨fun heq => heq ▸ hab, fun hac => hfun a c b hac hab⟩
      rw [List.mem_cons, ih, hc, List.exists_mem_cons_iff]

theorem exists_forall₂_of_same (hfun : ∀ a b c, R a b → R a c → b = c) {l other : List α}
    {images : List β} (h : List.Forall₂ R l images) (hsame : ∀ a, a ∈ other ↔ a ∈ l) :
    ∃ others, List.Forall₂ R other others ∧ ∀ b, b ∈ others ↔ b ∈ images := by
  have hex : ∀ a ∈ other, ∃ b, R a b := by
    intro a ha
    obtain ⟨i, hi, rfl⟩ := List.mem_iff_getElem.mp ((hsame a).mp ha)
    exact ⟨_, h.get hi (h.length_eq ▸ hi)⟩
  obtain ⟨others, hothers⟩ := exists_forall₂ hex
  refine ⟨others, hothers, fun b => ?_⟩
  rw [mem_iff_of_forall₂ hfun hothers, mem_iff_of_forall₂ hfun h]
  exact exists_congr fun a => and_congr_left fun _ => hsame a

end Images

namespace SpellExclusionCanonicalizer

variable [UnicodePlatform]

/-! ## Rows -/

/-- The item that an exclusion is accepted as. -/
def Accepts (scalars : List Nat) (item : Item) : Prop :=
  (∃ units, utf32ToUtf16 (trimWhitespace scalars) = some units ∧
    normalizeUtf16 units = some item.utf16) ∧ item.Admissible

/-- The item that an encoded exclusion is accepted as. -/
def AcceptsBy {α : Type} (decode : α → Option (List Nat)) (entry : α) (item : Item) : Prop :=
  ∃ scalars, decode entry = some scalars ∧ Accepts scalars item

theorem Accepts.unique {scalars : List Nat} {item other : Item} (h : Accepts scalars item)
    (h' : Accepts scalars other) : item = other := by
  obtain ⟨⟨units, hunits, hnormal⟩, -⟩ := h
  obtain ⟨⟨units', hunits', hnormal'⟩, -⟩ := h'
  obtain rfl : units = units' := Option.some.inj (hunits.symm.trans hunits')
  exact Item.utf16_injective (Option.some.inj (hnormal.symm.trans hnormal'))

theorem acceptsBy_unique {α : Type} {decode : α → Option (List Nat)} (entry : α) (item other : Item)
    (h : AcceptsBy decode entry item) (h' : AcceptsBy decode entry other) : item = other := by
  obtain ⟨scalars, hscalars, haccepts⟩ := h
  obtain ⟨scalars', hscalars', haccepts'⟩ := h'
  obtain rfl : scalars = scalars' := Option.some.inj (hscalars.symm.trans hscalars')
  exact haccepts.unique haccepts'

/-- Rows that are checked one after the other are accepted one by one. -/
theorem rows_eq_ok {α : Type} (decode : α → Option (List Nat))
    (rows : Nat → List α → Except SpellExclusionError (List Item))
    {error : Nat → SpellExclusionError} (hnil : ∀ row, rows row [] = .ok [])
    (hcons : ∀ row entry entries, rows row (entry :: entries) = do
      let scalars ← orError (decode entry) (error row)
      let item ← normalizeAndValidate scalars row
      let items ← rows (row + 1) entries
      return item :: items)
    {row : Nat} {entries : List α} {items : List Item} :
    rows row entries = .ok items ↔ List.Forall₂ (AcceptsBy decode) entries items := by
  induction entries generalizing row items with
  | nil => simp [hnil, eq_comm]
  | cons entry entries ih =>
      simp only [hcons, except_bind_eq_ok, orError_eq_ok, normalizeAndValidate_eq_ok, ih]
      constructor
      · rintro ⟨scalars, hscalars, item, hitem, rest, hrest, hitems⟩
        obtain rfl := Except.ok.inj hitems
        exact .cons ⟨scalars, hscalars, hitem⟩ hrest
      · rintro (_ | ⟨⟨scalars, hscalars, hitem⟩, hrest⟩)
        exact ⟨scalars, hscalars, _, hitem, _, hrest, rfl⟩

theorem normalizeRows_eq_ok {row : Nat} {entries : List (List Char16)} {items : List Item} :
    normalizeRows row entries = .ok items ↔ List.Forall₂ (AcceptsBy decodeUtf16) entries items :=
  rows_eq_ok decodeUtf16 normalizeRows (fun _ => rfl) fun _ _ _ => rfl

theorem normalizeUtf8Rows_eq_ok {row : Nat} {entries : List (List UInt8)} {items : List Item} :
    normalizeUtf8Rows row entries = .ok items ↔
      List.Forall₂ (AcceptsBy utf8ToUtf32) entries items :=
  rows_eq_ok utf8ToUtf32 normalizeUtf8Rows (fun _ => rfl) fun _ _ _ => rfl

/-! ## Lists -/

/-- The rows are sorted and freed of duplicates, and there are few enough of them. -/
def FormOf (rows items : List Item) : Prop :=
  sortUnique compareItems rows = items ∧ items.length ≤ kMaxSpellExclusionRows

omit [UnicodePlatform] in
theorem formOf_iff {rows items : List Item} {error : SpellExclusionError} :
    (if kMaxSpellExclusionRows < (sortUnique compareItems rows).length then .error error
      else .ok (sortUnique compareItems rows) :
      Except SpellExclusionError (List Item)) = .ok items ↔
        FormOf rows items := by
  unfold FormOf
  split_ifs with hmany
  · constructor
    · intro h
      exact absurd h (by simp)
    · rintro ⟨rfl, hle⟩
      exact absurd hle (Nat.not_le.mpr hmany)
  · constructor
    · intro h
      obtain rfl := Except.ok.inj h
      exact ⟨rfl, Nat.le_of_not_lt hmany⟩
    · intro h
      exact congrArg _ h.1

theorem canonicalize_eq_ok {entries : List (List Char16)} {items : List Item} :
    canonicalize entries = .ok items ↔
      ∃ rows, List.Forall₂ (AcceptsBy decodeUtf16) entries rows ∧ FormOf rows items := by
  simp only [canonicalize, except_bind_eq_ok, normalizeRows_eq_ok, formOf_iff]

theorem canonicalizeUtf8_eq_ok {entries : List (List UInt8)} {items : List Item} :
    canonicalizeUtf8 entries = .ok items ↔
      ∃ rows, List.Forall₂ (AcceptsBy utf8ToUtf32) entries rows ∧ FormOf rows items := by
  simp only [canonicalizeUtf8, except_bind_eq_ok, normalizeUtf8Rows_eq_ok, formOf_iff]

omit [UnicodePlatform] in
theorem FormOf.congr {rows others items : List Item} (h : FormOf rows items)
    (hsame : ∀ item, item ∈ others ↔ item ∈ rows) : FormOf others items :=
  ⟨(sortUnique_congr hsame).trans h.1, h.2⟩

theorem Accepts.again (hidempotent : LexiconValidator.NormalizationIdempotent) {scalars : List Nat}
    {item : Item} (h : Accepts scalars item) : Accepts item.scalars item := by
  obtain ⟨⟨units, -, hnormal⟩, hadmissible⟩ := h
  refine ⟨⟨item.utf16, ?_, hidempotent _ _ hnormal⟩, hadmissible⟩
  rw [trimWhitespace_eq_self hadmissible.whitespace]
  exact utf32ToUtf16_eq_some.mpr item.decodeUtf16_utf16

/-- A result that is sorted, short and accepted as it is. -/
structure IsCanonical (items : List Item) : Prop where
  increasing : items.Pairwise fun a b => compare a.utf8 b.utf8 = .lt
  few : items.length ≤ kMaxSpellExclusionRows
  again : canonicalize (items.map Item.utf16) = .ok items
  againUtf8 : canonicalizeUtf8 (items.map Item.utf8) = .ok items

theorem FormOf.isCanonical (hidempotent : LexiconValidator.NormalizationIdempotent)
    {rows items : List Item} (hrows : ∀ item ∈ rows, ∃ scalars, Accepts scalars item)
    (h : FormOf rows items) : IsCanonical items := by
  have hincreasing : items.Pairwise fun a b => compareItems a b = .lt :=
    h.1 ▸ pairwise_sortUnique rows
  have hform : FormOf items items := ⟨sortUnique_eq_self hincreasing, h.2⟩
  have hagain : ∀ item ∈ items, Accepts item.scalars item := by
    intro item hitem
    rw [← h.1, mem_sortUnique] at hitem
    obtain ⟨scalars, haccepts⟩ := hrows item hitem
    exact haccepts.again hidempotent
  refine ⟨hincreasing, h.2, canonicalize_eq_ok.mpr ⟨items, ?_, hform⟩,
    canonicalizeUtf8_eq_ok.mpr ⟨items, ?_, hform⟩⟩
  · rw [List.forall₂_map_left_iff, List.forall₂_same]
    exact fun item hitem => ⟨item.scalars, item.decodeUtf16_utf16, hagain item hitem⟩
  · rw [List.forall₂_map_left_iff, List.forall₂_same]
    exact fun item hitem =>
      ⟨item.scalars, utf8ToUtf32_flatMap_encodeUtf8 item.isScalar, hagain item hitem⟩

/-! ## The two overloads -/

/-- An entry in UTF-8 and an entry in UTF-16 of the same text. -/
def Corresponds (bytes : List UInt8) (units : List Char16) : Prop :=
  ∃ scalars, utf8ToUtf32 bytes = some scalars ∧ decodeUtf16 units = some scalars

theorem normalizeUtf8Rows_eq {row : Nat} {entriesUtf8 : List (List UInt8)}
    {entries : List (List Char16)} (h : List.Forall₂ Corresponds entriesUtf8 entries) :
    normalizeUtf8Rows row entriesUtf8 = normalizeRows row entries := by
  induction h generalizing row with
  | nil => rfl
  | cons hentry _ ih =>
      obtain ⟨scalars, hutf8, hutf16⟩ := hentry
      rw [normalizeUtf8Rows, normalizeRows, hutf8, hutf16, ih]
      rfl

/-- An accepted list has a canonical form, which depends on the set of its entries alone; both
overloads do the same on the same texts, whether they accept them or not. -/
theorem canonicalize_isCanonical (hidempotent : LexiconValidator.NormalizationIdempotent) :
    (∀ entries items, canonicalize entries = .ok items → IsCanonical items ∧
      ∀ others, (∀ entry, entry ∈ others ↔ entry ∈ entries) → canonicalize others = .ok items) ∧
    (∀ entries items, canonicalizeUtf8 entries = .ok items → IsCanonical items ∧
      ∀ others, (∀ entry, entry ∈ others ↔ entry ∈ entries) →
        canonicalizeUtf8 others = .ok items) ∧
    ∀ entriesUtf8 entries, List.Forall₂ Corresponds entriesUtf8 entries →
      canonicalizeUtf8 entriesUtf8 = canonicalize entries := by
  refine ⟨fun entries items h => ?_, fun entries items h => ?_, fun entriesUtf8 entries h => ?_⟩
  · obtain ⟨rows, hrows, hform⟩ := canonicalize_eq_ok.mp h
    refine ⟨hform.isCanonical hidempotent fun item hitem => ?_, fun others hsame => ?_⟩
    · obtain ⟨entry, -, scalars, -, haccepts⟩ :=
        (mem_iff_of_forall₂ acceptsBy_unique hrows).mp hitem
      exact ⟨scalars, haccepts⟩
    · obtain ⟨otherRows, hothers, hmem⟩ := exists_forall₂_of_same acceptsBy_unique hrows hsame
      exact canonicalize_eq_ok.mpr ⟨otherRows, hothers, hform.congr hmem⟩
  · obtain ⟨rows, hrows, hform⟩ := canonicalizeUtf8_eq_ok.mp h
    refine ⟨hform.isCanonical hidempotent fun item hitem => ?_, fun others hsame => ?_⟩
    · obtain ⟨entry, -, scalars, -, haccepts⟩ :=
        (mem_iff_of_forall₂ acceptsBy_unique hrows).mp hitem
      exact ⟨scalars, haccepts⟩
    · obtain ⟨otherRows, hothers, hmem⟩ := exists_forall₂_of_same acceptsBy_unique hrows hsame
      exact canonicalizeUtf8_eq_ok.mpr ⟨otherRows, hothers, hform.congr hmem⟩
  · rw [canonicalizeUtf8, canonicalize, normalizeUtf8Rows_eq h]

omit [UnicodePlatform] in
/-- Two exclusions in the wrong order, one of them twice. -/
theorem canonicalize_isCanonical_cdAb :
    ∃ items, @canonicalize fallbackPlatform [[0x63, 0x64], [0x41, 0x62], [0x63, 0x64]] = .ok items ∧
      @IsCanonical fallbackPlatform items :=
  letI := fallbackPlatform
  have haccepted : canonicalize [[0x63, 0x64], [0x41, 0x62], [0x63, 0x64]] =
      .ok [⟨[0x61, 0x62], by decide⟩, ⟨[0x63, 0x64], by decide⟩] := rfl
  ⟨_, haccepted,
    ((canonicalize_isCanonical LexiconValidator.fallbackPlatform_idempotent).1 _ _ haccepted).1⟩

end SpellExclusionCanonicalizer

end VKey
