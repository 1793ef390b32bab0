import VKey.CodeTable.Compound
import VKey.Support.ListEdits

/-!
# Round trips of the legacy code tables

VNI Windows and CP 1258 write a letter as one unit or as a base unit and a mark.  The decoder reads
from left to right and takes a known pair first.  It never joins units of two letters, because no
letter starts with a unit that is the mark of another one; so decoding undoes encoding on every
string over ASCII and the Vietnamese letters.  TCVN3 writes a toned capital as the small letter, and
gives the string back up to case.
-/

namespace VKey.CodeTableConverter

/-! ## Tables without repetitions -/

/-- The numbers of a list are pairwise different. -/
def distinct : List Nat → Bool
  | [] => true
  | a :: l => l.all (fun b => !Nat.beq a b) && distinct l

theorem nodup_of_distinct {l : List Nat} (h : distinct l = true) : l.Nodup := by
  induction l with
  | nil => exact List.nodup_nil
  | cons a l ih =>
      rw [distinct, Bool.and_eq_true, List.all_eq_true] at h
      refine List.nodup_cons.mpr ⟨fun hmem => ?_, ih h.2⟩
      have hne := h.1 a hmem
      simp at hne

theorem eq_of_value_eq {table : CodeMap} (hvalues : (table.map Prod.snd).Nodup)
    {entry entry' : Nat × Nat}
    (hmem : entry ∈ table) (hmem' : entry' ∈ table) (h : entry.2 = entry'.2) : entry = entry' :=
  List.inj_on_of_nodup_map hvalues hmem hmem' h

/-! ## Reverse maps -/

section Reverse

variable [WideCType]

omit [WideCType] in
theorem lookup_append_singleton {rev : ReverseMap} {key key' : Nat} {ch : WChar}
    (hnone : rev.lookup key' = none) :
    (rev ++ [(key', ch)]).lookup key = if key = key' then some ch else rev.lookup key := by
  rw [List.lookup_append, List.lookup_singleton]
  by_cases hkey : key = key'
  · rw [if_pos hkey, hkey, hnone]
    simp
  · have hbeq : (key == key') = false := beq_eq_false_iff_ne.mpr hkey
    rw [if_neg hkey, hbeq]
    simp

omit [WideCType] in
theorem lookup_map_replace (rev : ReverseMap) (key key' : Nat) (ch : WChar) :
    (rev.map fun entry => if entry.1 = key' then (key', ch) else entry).lookup key =
      if key = key' then (rev.lookup key').map fun _ => ch else rev.lookup key := by
  induction rev with
  | nil => simp
  | cons entry rev ih =>
      obtain ⟨k, c⟩ := entry
      rw [List.map_cons]
      by_cases hkey : key = k
      · subst hkey
        rw [List.lookup_cons_self]
        by_cases hk : key = key'
        · subst hk
          simp
        · rw [if_neg hk, if_neg hk, List.lookup_cons_self]
      · have hbeq : (key == k) = false := beq_eq_false_iff_ne.mpr hkey
        by_cases hk : k = key'
        · subst hk
          rw [if_pos rfl, if_neg hkey, List.lookup_cons, List.lookup_cons, hbeq]
          exact ih.trans (if_neg hkey)
        · have hbeq' : (key' == k) = false := beq_eq_false_iff_ne.mpr (Ne.symm hk)
          simp only [if_neg hk, List.lookup_cons, hbeq, hbeq']
          exact ih

/-- Entering a character under a key puts it there or leaves the older one, and changes no other
key. -/
theorem lookup_enter (rev : ReverseMap) (key key' : Nat) (ch : WChar) :
    (key ≠ key' → (rev.enter key' ch).lookup key = rev.lookup key) ∧
      ((rev.enter key ch).lookup key = some ch ∨
        (rev.lookup key).isSome = true ∧ (rev.enter key ch).lookup key = rev.lookup key) := by
  constructor
  · intro hkey
    unfold ReverseMap.enter
    cases hold : rev.lookup key' with
    | none => exact (lookup_append_singleton hold).trans (if_neg hkey)
    | some old =>
        dsimp only
        split
        · exact (lookup_map_replace rev key key' ch).trans (if_neg hkey)
        · rfl
  · unfold ReverseMap.enter
    cases hold : rev.lookup key with
    | none => exact .inl ((lookup_append_singleton hold).trans (if_pos rfl))
    | some old =>
        dsimp only
        split
        · refine .inl ((lookup_map_replace rev key key ch).trans ?_)
          rw [if_pos rfl, hold, Option.map_some]
        · exact .inr ⟨rfl, hold⟩

/-- A reverse map finds, under a key, the character of an entry with the key, if there is one.  The
order of the entries plays no part. -/
theorem lookup_buildReverse (keyOf : Nat → Option Nat) (forward : CodeMap) (key : Nat) :
    (∃ entry ∈ forward, keyOf entry.2 = some key ∧
        (buildReverse keyOf forward).lookup key = some entry.1) ∨
      (∀ entry ∈ forward, keyOf entry.2 ≠ some key) ∧
        (buildReverse keyOf forward).lookup key = none := by
  have hfold : ∀ (forward : CodeMap) (rev : ReverseMap),
      (∃ entry ∈ forward, keyOf entry.2 = some key ∧
        (forward.foldl (fun rev entry =>
          ((keyOf entry.2).map fun key => rev.enter key entry.1).getD rev) rev).lookup key =
            some entry.1) ∨
      ((rev.lookup key).isSome = true ∨ ∀ entry ∈ forward, keyOf entry.2 ≠ some key) ∧
        (forward.foldl (fun rev entry =>
          ((keyOf entry.2).map fun key => rev.enter key entry.1).getD rev) rev).lookup key =
            rev.lookup key := by
    intro forward
    induction forward with
    | nil => exact fun rev => .inr ⟨.inr (by simp), rfl⟩
    | cons entry forward ih =>
        intro rev
        rw [List.foldl_cons]
        rcases ih (((keyOf entry.2).map fun key => rev.enter key entry.1).getD rev) with
          ⟨entry', hmem, hkey, hlookup⟩ | ⟨hothers, hlookup⟩
        · exact .inl ⟨entry', List.mem_cons_of_mem _ hmem, hkey, hlookup⟩
        rw [hlookup]
        cases hkeyOf : keyOf entry.2 with
        | none =>
            rw [hkeyOf] at hothers
            refine .inr ⟨hothers.imp_right fun h => ?_, rfl⟩
            exact List.forall_mem_cons.mpr ⟨by simp [hkeyOf], h⟩
        | some key' =>
            rw [hkeyOf, Option.map_some, Option.getD_some] at hothers
            rw [Option.map_some, Option.getD_some]
            by_cases hkey : key = key'
            · subst hkey
              rcases (lookup_enter rev key key entry.1).2 with hnew | ⟨hsome, hold⟩
              · exact .inl ⟨entry, List.mem_cons_self, hkeyOf, hnew⟩
              · exact .inr ⟨.inl hsome, hold⟩
            · rw [(lookup_enter rev key key' entry.1).1 hkey] at hothers ⊢
              refine .inr ⟨hothers.imp_right fun h => ?_, rfl⟩
              refine List.forall_mem_cons.mpr ⟨?_, h⟩
              rw [hkeyOf]
              exact fun heq => hkey (Option.some.inj heq).symm
  refine (hfold forward []).imp_right fun h => ⟨h.1.resolve_left (by simp), h.2⟩

end Reverse

/-! ## Pairs of units -/

theorem pairKey_eq {first second : Nat} (hfirst : first < 0x10000) (hsecond : second < 0x10000) :
    pairKey first second = first * 0x10000 + second := by
  have hshift : first <<< 16 = first * 0x10000 := Nat.shiftLeft_eq _ _
  have hlt : first * 0x10000 < 0x100000000 := by omega
  have hor : first <<< 16 ||| second = first <<< 16 + second :=
    (Nat.shiftLeft_add_eq_or_of_lt hsecond first).symm
  unfold pairKey
  rw [Nat.mod_eq_of_lt (hshift ▸ hlt), hor, hshift]

theorem pairKey_inj {first second first' second' : Nat} (hfirst : first < 0x10000)
    (hsecond : second < 0x10000) (hfirst' : first' < 0x10000) (hsecond' : second' < 0x10000)
    (h : pairKey first second = pairKey first' second') : first = first' ∧ second = second' := by
  rw [pairKey_eq hfirst hsecond, pairKey_eq hfirst' hsecond'] at h
  omega

/-- A table of one-unit and two-unit codes that can be decoded from left to right: no code of a
letter starts with one of the marks that end the two-unit codes. -/
structure IsPairCode (forward : CodeMap) (marks : List WChar) : Prop where
  keys_nodup : (forward.map Prod.fst).Nodup
  values_nodup : (forward.map Prod.snd).Nodup
  key_ge : ∀ entry ∈ forward, 0x80 ≤ entry.1
  value_ge : ∀ entry ∈ forward, 0x80 ≤ entry.2
  value_lt : ∀ entry ∈ forward, entry.2 < 0x10000
  mark_ge : ∀ mark ∈ marks, 0x80 ≤ mark
  mark_mem : ∀ entry ∈ forward, 0xFF < entry.2 → entry.2 / 0x100 ∈ marks
  first_notMem : ∀ entry ∈ forward, entry.2 % 0x100 ∉ marks

/-- The code of a character under a two-byte table. -/
def encodePair (forward : CodeMap) (ch : WChar) : EncodedChar :=
  ((forward.lookup ch).map decodeLoHi).getD (.single ch)

/-- The characters a table leaves or knows. -/
def IsText (forward : CodeMap) (s : List WChar) : Prop :=
  ∀ ch ∈ s, ch < 0x80 ∨ ch ∈ forward.map Prod.fst

section Pairs

variable {forward : CodeMap} {marks : List WChar}

/-- The code of a character: ASCII is left, a table entry gives one or two units. -/
theorem IsPairCode.encodePair_cases (h : IsPairCode forward marks) {ch : WChar}
    (hch : ch < 0x80 ∨ ch ∈ forward.map Prod.fst) :
    (ch < 0x80 ∧ encodePair forward ch = .single ch) ∨
      ∃ value, (ch, value) ∈ forward ∧
        (value ≤ 0xFF ∧ encodePair forward ch = .single value ∨
          0xFF < value ∧ encodePair forward ch = .pair (value % 0x100) (value / 0x100)) := by
  rcases hch with hascii | hmem
  · refine .inl ⟨hascii, ?_⟩
    have hnone : forward.lookup ch = none := by
      refine lookup_eq_none_of_notMem_keys fun hmem => ?_
      obtain ⟨entry, hentry, rfl⟩ := List.mem_map.mp hmem
      exact absurd hascii (Nat.not_lt.mpr (h.key_ge entry hentry))
    rw [encodePair, hnone]
    rfl
  · obtain ⟨⟨key, value⟩, hentry, rfl⟩ := List.mem_map.mp hmem
    refine .inr ⟨value, hentry, ?_⟩
    have hlt : value < 0x10000 := h.value_lt _ hentry
    rw [encodePair, (lookup_eq_some_iff_mem h.keys_nodup).mpr hentry,
      Option.map_some, Option.getD_some, decodeLoHi]
    by_cases hsmall : value ≤ 0xFF
    · exact .inl ⟨hsmall, if_pos hsmall⟩
    · have hhigh : value / 0x100 % 0x100 = value / 0x100 := Nat.mod_eq_of_lt (by omega)
      refine .inr ⟨by omega, ?_⟩
      rw [if_neg hsmall, hhigh]

/-- The first unit of a code is no mark. -/
theorem IsPairCode.head_notMem (h : IsPairCode forward marks) {s : List WChar}
    (hs : IsText forward s) :
    ∀ unit ∈ (s.flatMap fun ch => (encodePair forward ch).units).head?,
      unit < 0x10000 ∧ unit ∉ marks := by
  cases s with
  | nil => simp
  | cons ch s =>
      have hunit : ∀ unit, (encodePair forward ch).units.head? = some unit →
          unit < 0x10000 ∧ unit ∉ marks := by
        rcases h.encodePair_cases (hs ch List.mem_cons_self) with
          ⟨hascii, hcode⟩ | ⟨value, hentry, ⟨hsmall, hcode⟩ | ⟨hlarge, hcode⟩⟩
        · rw [hcode]
          rintro unit ⟨⟩
          refine ⟨Nat.lt_trans hascii (by decide), fun hmem => ?_⟩
          exact absurd hascii (Nat.not_lt.mpr (h.mark_ge ch hmem))
        · rw [hcode]
          rintro unit ⟨⟩
          have hfirst := h.first_notMem _ hentry
          rw [Nat.mod_eq_of_lt (Nat.lt_succ_of_le hsmall)] at hfirst
          exact ⟨h.value_lt _ hentry, hfirst⟩
        · rw [hcode]
          rintro unit ⟨⟩
          have hmod : value % 0x100 < 0x100 := Nat.mod_lt _ (by decide)
          exact ⟨Nat.lt_trans hmod (by decide), h.first_notMem _ hentry⟩
      intro unit hmem
      rw [List.flatMap_cons] at hmem
      cases hcode : encodePair forward ch with
      | single first =>
          rw [hcode] at hmem hunit
          exact hunit unit hmem
      | pair first second =>
          rw [hcode] at hmem hunit
          exact hunit unit hmem

variable [WideCType]

/-- A unit before one that is no mark is not joined to it. -/
theorem IsPairCode.lookup_pair_eq_none (h : IsPairCode forward marks) {unit next : Nat}
    (hunit : unit < 0x10000) (hnext : next < 0x10000 ∧ next ∉ marks) :
    (buildReversePairMap forward).pair.lookup (pairKey unit next) = none := by
  unfold buildReversePairMap
  dsimp only
  rcases lookup_buildReverse (fun encoded => if encoded ≤ 0xFF then none
      else some (pairKey (encoded % 0x100) (encoded / 0x100 % 0x100))) forward
      (pairKey unit next) with ⟨entry, hentry, hkey, -⟩ | ⟨-, hnone⟩
  · have hlt : entry.2 < 0x10000 := h.value_lt entry hentry
    have hhigh : entry.2 / 0x100 % 0x100 = entry.2 / 0x100 := Nat.mod_eq_of_lt (by omega)
    split_ifs at hkey with hsmall
    have hinj := pairKey_inj (by omega) (by omega) hunit hnext.1 (Option.some.inj hkey)
    rw [hhigh] at hinj
    exact absurd (hinj.2 ▸ h.mark_mem entry hentry (by omega)) hnext.2
  · exact hnone

/-- The pair of units of a letter is found. -/
theorem IsPairCode.lookup_pair (h : IsPairCode forward marks) {ch value : Nat}
    (hentry : (ch, value) ∈ forward) (hlarge : 0xFF < value) :
    (buildReversePairMap forward).pair.lookup (pairKey (value % 0x100) (value / 0x100)) =
      some ch := by
  have hlt : value < 0x10000 := h.value_lt _ hentry
  unfold buildReversePairMap
  dsimp only
  rcases lookup_buildReverse (fun encoded => if encoded ≤ 0xFF then none
      else some (pairKey (encoded % 0x100) (encoded / 0x100 % 0x100))) forward
      (pairKey (value % 0x100) (value / 0x100)) with ⟨entry, hmem, hkey, hlookup⟩ | ⟨hother, -⟩
  · have hlt' : entry.2 < 0x10000 := h.value_lt entry hmem
    split_ifs at hkey with hsmall
    have hinj : entry.2 % 0x100 = value % 0x100 ∧ entry.2 / 0x100 % 0x100 = value / 0x100 :=
      pairKey_inj (by omega) (by omega) (by omega) (by omega) (Option.some.inj hkey)
    have hvalue : entry.2 = value := by omega
    rw [hlookup, eq_of_value_eq h.values_nodup hmem hentry hvalue]
  · refine absurd ?_ (hother _ hentry)
    have hhigh : value / 0x100 % 0x100 = value / 0x100 := Nat.mod_eq_of_lt (by omega)
    dsimp only
    rw [if_neg (by omega), hhigh]

theorem IsPairCode.lookup_single (h : IsPairCode forward marks) {ch value : Nat}
    (hentry : (ch, value) ∈ forward) (hsmall : value ≤ 0xFF) :
    (buildReversePairMap forward).single.lookup value = some ch := by
  unfold buildReversePairMap
  dsimp only
  rcases lookup_buildReverse (fun encoded => if encoded ≤ 0xFF then some encoded else none) forward
      value with ⟨entry, hmem, hkey, hlookup⟩ | ⟨hother, -⟩
  · split_ifs at hkey with hsmall'
    rw [hlookup, eq_of_value_eq h.values_nodup hmem hentry (Option.some.inj hkey)]
  · exact absurd (if_pos hsmall) (hother _ hentry)

theorem IsPairCode.lookup_single_ascii (h : IsPairCode forward marks) {ch : WChar}
    (hascii : ch < 0x80) : (buildReversePairMap forward).single.lookup ch = none := by
  unfold buildReversePairMap
  dsimp only
  rcases lookup_buildReverse (fun encoded => if encoded ≤ 0xFF then some encoded else none) forward
      ch with ⟨entry, hmem, hkey, -⟩ | ⟨-, hnone⟩
  · split_ifs at hkey with hsmall
    have hge := h.value_ge entry hmem
    rw [Option.some.inj hkey] at hge
    exact absurd hascii (Nat.not_lt.mpr hge)
  · exact hnone

theorem IsPairCode.decodePairs_single (h : IsPairCode forward marks) {s : List WChar}
    (hs : IsText forward s) {unit : WChar} (hunit : unit < 0x10000) :
    decodePairs (buildReversePairMap forward)
        (unit :: s.flatMap fun ch => (encodePair forward ch).units) =
      ((buildReversePairMap forward).single.lookup unit).getD unit ::
        decodePairs (buildReversePairMap forward)
          (s.flatMap fun ch => (encodePair forward ch).units) := by
  have hhead := h.head_notMem hs
  cases hrest : s.flatMap fun ch => (encodePair forward ch).units with
  | nil => rfl
  | cons next rest =>
      rw [hrest] at hhead
      rw [decodePairs, h.lookup_pair_eq_none hunit (hhead next rfl)]

/-- Decoding undoes encoding. -/
theorem IsPairCode.decodePairs_encode (h : IsPairCode forward marks) {s : List WChar}
    (hs : IsText forward s) :
    decodePairs (buildReversePairMap forward)
      (s.flatMap fun ch => (encodePair forward ch).units) = s := by
  induction s with
  | nil => rfl
  | cons ch s ih =>
      have hrest : IsText forward s := fun c hc => hs c (List.mem_cons_of_mem _ hc)
      rw [List.flatMap_cons]
      rcases h.encodePair_cases (hs ch List.mem_cons_self) with
        ⟨hascii, hcode⟩ | ⟨value, hentry, ⟨hsmall, hcode⟩ | ⟨hlarge, hcode⟩⟩
      · rw [hcode]
        have hstep := h.decodePairs_single hrest (Nat.lt_trans hascii (by decide))
        rw [h.lookup_single_ascii hascii, ih hrest] at hstep
        exact hstep
      · rw [hcode]
        have hstep := h.decodePairs_single hrest (h.value_lt _ hentry)
        rw [h.lookup_single hentry hsmall, ih hrest] at hstep
        exact hstep
      · rw [hcode]
        have hstep : ∀ rest, decodePairs (buildReversePairMap forward)
            ((EncodedChar.pair (value % 0x100) (value / 0x100)).units ++ rest) =
              ch :: decodePairs (buildReversePairMap forward) rest := by
          intro rest
          change decodePairs _ (value % 0x100 :: value / 0x100 :: rest) = _
          rw [decodePairs, h.lookup_pair hentry hlarge]
        rw [hstep, ih hrest]

end Pairs

/-! ## The tables -/

/-- The marks of VNI Windows. -/
def vniMarks : List WChar :=
  [0xCA, 0xEA, 0xC2, 0xE2, 0xC9, 0xE9, 0xC8, 0xE8, 0xDA, 0xFA, 0xDC, 0xFC, 0xCB, 0xEB, 0xCF, 0xEF,
   0xC1, 0xE1, 0xC0, 0xE0, 0xC5, 0xE5, 0xC3, 0xE3, 0xC4, 0xE4, 0xD9, 0xF9, 0xD8, 0xF8, 0xDB, 0xFB,
   0xD5, 0xF5]

/-- The marks of CP 1258. -/
def cp1258Marks : List WChar := [0xEC, 0xCC, 0xD2, 0xDE, 0xF2]

theorem isPairCode_kVniMap : IsPairCode kVniMap vniMarks where
  keys_nodup := nodup_of_distinct (by decide +kernel)
  values_nodup := nodup_of_distinct (by decide +kernel)
  key_ge := by decide +kernel
  value_ge := by decide +kernel
  value_lt := by decide +kernel
  mark_ge := by decide +kernel
  mark_mem := by decide +kernel
  first_notMem := by decide +kernel

theorem isPairCode_kCp1258Map : IsPairCode kCp1258Map cp1258Marks where
  keys_nodup := isPairCode_kVniMap.keys_nodup
  values_nodup := nodup_of_distinct (by decide +kernel)
  key_ge := by decide +kernel
  value_ge := by decide +kernel
  value_lt := by decide +kernel
  mark_ge := by decide +kernel
  mark_mem := by decide +kernel
  first_notMem := by decide +kernel

/-! ## TCVN3 -/

/-- The characters of a table that share the code of a character are among two. -/
def codeSharedBy (forward : CodeMap) (ch small capital : WChar) : Bool :=
  match forward.lookup ch with
  | some value => decide (0x80 ≤ value) && forward.all fun entry =>
      !Nat.beq entry.2 value || Nat.beq entry.1 small || Nat.beq entry.1 capital
  | none => false

theorem codeSharedBy_toned (letter : TonedLetter) :
    codeSharedBy kTcvn3Map (@TonedLetter.char cLocale letter)
      (@TonedLetter.char cLocale { letter with upper := false })
      (@TonedLetter.char cLocale { letter with upper := true }) = true := by
  obtain ⟨row, tone, upper⟩ := letter
  revert row tone upper
  decide +kernel

theorem codeSharedBy_modified (index : Fin 7) (upper : Bool) :
    codeSharedBy kTcvn3Map (@Letter.char cLocale (.modified index upper))
      (@Letter.char cLocale (.modified index false))
      (@Letter.char cLocale (.modified index true)) = true := by
  revert index upper
  decide +kernel

/-- Two letters that differ in case at most. -/
def SameUpToCase : Letter → Letter → Prop
  | .ascii c, .ascii c' => asciiLower c = asciiLower c'
  | .modified index _, .modified index' _ => index = index'
  | .toned letter, .toned letter' => letter.row = letter'.row ∧ letter.tone = letter'.tone
  | _, _ => False

section Tcvn3

variable [WideCType]

/-- A code shared by two characters is decoded to one of them. -/
theorem decodeTcvn3_of_codeSharedBy {ch small capital : WChar}
    (h : codeSharedBy kTcvn3Map ch small capital = true) :
    ∃ unit, convertChar ch .tcvn3 = .single unit ∧
      ((getTcvn3Reverse.lookup unit).getD unit = small ∨
        (getTcvn3Reverse.lookup unit).getD unit = capital) := by
  unfold codeSharedBy at h
  cases hlookup : kTcvn3Map.lookup ch with
  | none => simp [hlookup] at h
  | some value =>
      simp only [hlookup, Bool.and_eq_true, List.all_eq_true] at h
      refine ⟨value, by simp [convertChar, hlookup], ?_⟩
      have hmem : (ch, value) ∈ kTcvn3Map := by
        obtain ⟨before, after, heq, -⟩ := List.lookup_eq_some_iff.mp hlookup
        rw [heq]
        exact List.mem_append_right _ List.mem_cons_self
      rcases lookup_buildReverse some kTcvn3Map value with
        ⟨entry, hentry, hkey, hfound⟩ | ⟨hother, -⟩
      · have hshared := h.2 entry hentry
        rw [Option.some.inj hkey] at hshared
        rw [show getTcvn3Reverse.lookup value = some entry.1 from hfound, Option.getD_some]
        simpa using hshared
      · exact absurd rfl (hother _ hmem)

/-- The code of a letter is decoded to the letter in some case. -/
theorem exists_sameUpToCase (letter : Letter) :
    ∃ unit letter', convertChar letter.char .tcvn3 = .single unit ∧ SameUpToCase letter' letter ∧
      (getTcvn3Reverse.lookup unit).getD unit = letter'.char := by
  cases letter with
  | ascii c =>
      have hkeys : ∀ entry ∈ kTcvn3Map, 0x80 ≤ entry.1 ∧ 0x80 ≤ entry.2 := by decide +kernel
      have hnone : kTcvn3Map.lookup (c : Nat) = none := by
        refine lookup_eq_none_of_notMem_keys fun hmem => ?_
        obtain ⟨entry, hentry, heq⟩ := List.mem_map.mp hmem
        have hge := (hkeys entry hentry).1
        omega
      refine ⟨(c : Nat), .ascii c, ?_, rfl, ?_⟩
      · change convertChar (c : Nat) .tcvn3 = .single (c : Nat)
        rw [convertChar, hnone]
        rfl
      · rcases lookup_buildReverse some kTcvn3Map (c : Nat) with
          ⟨entry, hentry, hkey, -⟩ | ⟨-, hfound⟩
        · have hge := (hkeys entry hentry).2
          have heq := Option.some.inj hkey
          omega
        · rw [show getTcvn3Reverse.lookup (c : Nat) = none from hfound]
          rfl
  | modified index upper =>
      have hshared := codeSharedBy_modified index upper
      simp only [← Letter.char_eq_cLocale] at hshared
      obtain ⟨unit, hcode, hfound | hfound⟩ := decodeTcvn3_of_codeSharedBy hshared
      · exact ⟨unit, .modified index false, hcode, rfl, hfound⟩
      · exact ⟨unit, .modified index true, hcode, rfl, hfound⟩
  | toned letter =>
      have hshared := codeSharedBy_toned letter
      simp only [← TonedLetter.char_eq_cLocale] at hshared
      obtain ⟨unit, hcode, hfound | hfound⟩ := decodeTcvn3_of_codeSharedBy hshared
      · exact ⟨unit, .toned { letter with upper := false }, hcode, ⟨rfl, rfl⟩, hfound⟩
      · exact ⟨unit, .toned { letter with upper := true }, hcode, ⟨rfl, rfl⟩, hfound⟩

theorem decodeTcvn3_encode (s : List Letter) :
    ∃ s' : List Letter, List.Forall₂ SameUpToCase s' s ∧
      decodeString (encodeString (s.map Letter.char) .tcvn3) .tcvn3 = s'.map Letter.char := by
  induction s with
  | nil => exact ⟨[], .nil, rfl⟩
  | cons letter s ih =>
      obtain ⟨s', hsame, hdecode⟩ := ih
      obtain ⟨unit, letter', hcode, hcase, hfound⟩ := exists_sameUpToCase letter
      refine ⟨letter' :: s', .cons hcase hsame, ?_⟩
      rw [List.map_cons, List.map_cons, ← hfound, ← hdecode]
      simp [encodeString, decodeString, decodeTcvn3, hcode, EncodedChar.units]

/-! ## Round trips -/

theorem isText_map_char (s : List Letter) : IsText kVniMap (s.map Letter.char) := by
  intro ch hch
  obtain ⟨letter, -, rfl⟩ := List.mem_map.mp hch
  exact (exists_letter_char_eq_iff letter.char).mp ⟨letter, rfl⟩

/-- Decoding undoes encoding on every string over ASCII and the Vietnamese letters: exactly for VNI
Windows and CP 1258, and up to case for TCVN3. -/
theorem decodeString_encodeString (s : List Letter) :
    decodeString (encodeString (s.map Letter.char) .vniWindows) .vniWindows = s.map Letter.char ∧
      decodeString (encodeString (s.map Letter.char) .vietnameseLocale) .vietnameseLocale =
        s.map Letter.char ∧
      ∃ s' : List Letter, List.Forall₂ SameUpToCase s' s ∧
        decodeString (encodeString (s.map Letter.char) .tcvn3) .tcvn3 = s'.map Letter.char :=
  ⟨isPairCode_kVniMap.decodePairs_encode (isText_map_char s),
    isPairCode_kCp1258Map.decodePairs_encode (isText_map_char s), decodeTcvn3_encode s⟩

end Tcvn3

end VKey.CodeTableConverter
