import VKey.Macro.PrefixIndex

/-!
# The index answers like the plain scan

The keys that a query begins stand side by side among the sorted keys.  The filters in front of a
search, the common prefix of all keys and the first characters of the keys that can match in
lowercase, reject no query that begins a key.
-/

namespace VKey

variable [AsciiCType]

namespace MacroPrefixIndex

/-! ## One key -/

theorem fold_eq (ch : WChar) : fold ch = AsciiCType.towlower ch := by
  unfold fold
  split_ifs with hcall
  · rfl
  · rw [not_or, Nat.not_lt] at hcall
    rw [AsciiCType.towlower_ascii ch (Nat.lt_succ_of_le hcall.2), asciiLower, if_neg hcall.1]

theorem compareFolded_eq (key candidate : List WChar) :
    compareFolded key candidate = compareStart key (candidate.map AsciiCType.towlower) := by
  induction candidate generalizing key with
  | nil => simp [compareFolded, compareStart]
  | cons c candidate ih =>
      cases key with
      | nil => rfl
      | cons k key =>
          rw [List.map_cons, compareStart_cons_cons, compareFolded, fold_eq, ih]
          rcases Nat.lt_trichotomy k (AsciiCType.towlower c) with hlt | heq | hgt
          · rw [if_pos hlt, Nat.compare_eq_lt.mpr hlt]
            rfl
          · rw [if_neg (Nat.not_lt.mpr heq.ge), if_neg (Nat.not_lt.mpr heq.le),
              Nat.compare_eq_eq.mpr heq]
            rfl
          · rw [if_neg (Nat.not_lt.mpr hgt.le), if_pos hgt, Nat.compare_eq_gt.mpr hgt]
            rfl

/-- The text a candidate is compared as. -/
def queryText (candidate : List WChar) (folded : Bool) : List WChar :=
  if folded then candidate.map AsciiCType.towlower else candidate

theorem comparePrefix_eq (key candidate : List WChar) (folded : Bool) :
    comparePrefix key candidate folded = compareStart key (queryText candidate folded) := by
  cases folded with
  | true => exact compareFolded_eq key candidate
  | false => rfl

omit [AsciiCType] in
/-- The case of a key is strict exactly if it has an uppercase ASCII letter, and otherwise tells
whether it has a character beyond ASCII. -/
theorem keyCaseFrom_cases (rule : KeyCase) (hrule : rule ≠ .strict) (key : List WChar) :
    (keyCaseFrom rule key = .strict ∧ ∃ ch ∈ key, L 'A' ≤ ch ∧ ch ≤ L 'Z') ∨
      ((∀ ch ∈ key, ¬ (L 'A' ≤ ch ∧ ch ≤ L 'Z')) ∧
        keyCaseFrom rule key = if ∃ ch ∈ key, 127 < ch then .localeDependent else rule) := by
  induction key generalizing rule with
  | nil => exact .inr ⟨by simp, by simp [keyCaseFrom]⟩
  | cons ch key ih =>
      unfold keyCaseFrom
      by_cases hupper : L 'A' ≤ ch ∧ ch ≤ L 'Z'
      · rw [if_pos hupper]
        exact .inl ⟨rfl, ch, List.mem_cons_self, hupper⟩
      · rw [if_neg hupper]
        have hnext : (if 127 < ch then KeyCase.localeDependent else rule) ≠ .strict := by
          split_ifs
          · exact KeyCase.noConfusion
          · exact hrule
        rcases ih _ hnext with ⟨hstrict, c, hc, hcupper⟩ | ⟨hnone, heq⟩
        · exact .inl ⟨hstrict, c, List.mem_cons_of_mem _ hc, hcupper⟩
        · refine .inr ⟨List.forall_mem_cons.mpr ⟨hupper, hnone⟩, ?_⟩
          rw [heq]
          by_cases hbeyond : 127 < ch <;> simp [hbeyond]

/-- For its own case, a key has an uppercase letter exactly if the plain scan finds one. -/
theorem hasUpper_keyCase (key : List WChar) : hasUpper key (keyCase key) = VKey.hasUpper key := by
  rcases keyCaseFrom_cases .flexible KeyCase.noConfusion key with
    ⟨hstrict, ch, hch, hupper⟩ | ⟨hnone, heq⟩
  · have hascii : ch < 0x80 := Nat.lt_of_le_of_lt hupper.2 (by decide)
    have htrue : VKey.hasUpper key = true := by
      rw [VKey.hasUpper, List.any_eq_true]
      refine ⟨ch, hch, ?_⟩
      rw [AsciiCType.iswupper_ascii ch hascii]
      exact decide_eq_true hupper
    rw [htrue, keyCase, hstrict]
    rfl
  · have hbeyond : ∀ ch ∈ key,
        (decide (127 < ch) && AsciiCType.iswupper ch) = AsciiCType.iswupper ch := by
      intro ch hch
      by_cases hlt : 127 < ch
      · rw [decide_eq_true hlt, Bool.true_and]
      · rw [decide_eq_false hlt, Bool.false_and,
          AsciiCType.iswupper_ascii ch (Nat.lt_succ_of_le (Nat.not_lt.mp hlt)),
          decide_eq_false (hnone ch hch)]
    have hany : (key.any fun ch => decide (127 < ch) && AsciiCType.iswupper ch) =
        VKey.hasUpper key := by
      rw [VKey.hasUpper, Bool.eq_iff_iff, List.any_eq_true, List.any_eq_true]
      exact exists_congr fun ch => and_congr_right fun hch => by rw [hbeyond ch hch]
    rw [← hany, keyCase, heq]
    split_ifs with hex
    · rfl
    · rw [not_exists] at hex
      simp only [not_and] at hex
      have hfalse : (key.any fun ch => decide (127 < ch) && AsciiCType.iswupper ch) = false := by
        rw [List.any_eq_false]
        intro ch hch
        rw [decide_eq_false (hex ch hch), Bool.false_and]
        exact Bool.noConfusion
      rw [hfalse]
      rfl

/-! ## Building the index -/

/-- The data holds the keys in the order they were appended. -/
structure Data.Holds (data : Data) (keys : List (List WChar)) : Prop where
  length : data.keys.length = keys.length
  sorted : data.sorted = List.range keys.length
  view : ∀ id key, keys[id]? = some key → data.view id = key ∧ data.caseRule id = keyCase key
  inside : ∀ key ∈ data.keys, key.offset + key.length ≤ data.text.length
  maxLength : ∀ key ∈ keys, key.length ≤ data.maxLength

omit [AsciiCType] in
theorem Data.Holds.addKey {data : Data} {keys : List (List WChar)} (h : data.Holds keys)
    (key : List WChar) : (data.addKey key).Holds (keys ++ [key]) where
  length := by simp [Data.addKey, h.length]
  sorted := by
    rw [List.length_append, List.length_singleton, List.range_succ, ← h.sorted, ← h.length]
    rfl
  view id k hk := by
    rcases Nat.lt_trichotomy id keys.length with hlt | rfl | hgt
    · rw [List.getElem?_append_left hlt] at hk
      have hid : id < data.keys.length := h.length ▸ hlt
      have hkeys : (data.addKey key).keys[id]? = data.keys[id]? :=
        List.getElem?_append_left hid
      have hin := h.inside _ (List.getElem_mem hid)
      obtain ⟨hview, hrule⟩ := h.view id k hk
      refine ⟨?_, ?_⟩
      · rw [← hview, Data.view, hkeys, Data.view, List.getElem?_eq_getElem hid]
        dsimp only [Data.addKey]
        rw [List.drop_append_of_le_length (by omega), List.take_append_of_le_length]
        rw [List.length_drop]
        omega
      · rw [Data.caseRule, hkeys]
        exact hrule
    · have hkeys : (data.addKey key).keys[keys.length]? =
          some ⟨data.text.length, key.length, keyCase key⟩ := by
        simp [Data.addKey, ← h.length]
      obtain rfl : key = k := by simpa using hk
      refine ⟨?_, ?_⟩
      · rw [Data.view, hkeys]
        simp [Data.addKey]
      · rw [Data.caseRule, hkeys]
        rfl
    · rw [List.getElem?_eq_none (by simp; omega)] at hk
      exact absurd hk (by simp)
  inside k hk := by
    rw [Data.addKey, List.length_append]
    rcases List.mem_append.mp hk with hk | hk
    · exact Nat.le_add_right_of_le (h.inside k hk)
    · obtain rfl := List.mem_singleton.mp hk
      exact Nat.le_refl _
  maxLength k hk := by
    rcases List.mem_append.mp hk with hk | hk
    · exact (h.maxLength k hk).trans (Nat.le_max_left _ _)
    · obtain rfl := List.mem_singleton.mp hk
      exact Nat.le_max_right _ _

omit [AsciiCType] in
theorem Data.Holds.foldl {data : Data} {before : List (List WChar)} (h : data.Holds before)
    (keys : List (List WChar)) : (keys.foldl Data.addKey data).Holds (before ++ keys) := by
  induction keys generalizing data before with
  | nil => simpa using h
  | cons key keys ih => simpa using ih (h.addKey key)

omit [AsciiCType] in
theorem Data.holds_nil : ({} : Data).Holds [] where
  length := rfl
  sorted := rfl
  view _ _ hk := absurd hk (by simp)
  inside _ hk := absurd hk List.not_mem_nil
  maxLength _ hk := absurd hk List.not_mem_nil

/-! ## Sorting the keys -/

section Order

omit [AsciiCType]

/-- The order of texts. -/
def TextLE (a b : List WChar) : Prop := (compare a b).isLE = true

theorem textLE_cons_cons {a b : WChar} {as bs : List WChar} :
    TextLE (a :: as) (b :: bs) ↔ a < b ∨ a = b ∧ TextLE as bs := by
  have hcompare : compare (a :: as) (b :: bs) = (compare a b).then (compare as bs) :=
    List.compareLex_cons_cons
  rw [TextLE, hcompare]
  rcases Nat.lt_trichotomy a b with hlt | rfl | hgt
  · rw [Nat.compare_eq_lt.mpr hlt]
    exact ⟨fun _ => .inl hlt, fun _ => rfl⟩
  · rw [Nat.compare_eq_eq.mpr rfl]
    exact ⟨fun h => .inr ⟨rfl, h⟩, fun h => (h.resolve_left (Nat.lt_irrefl a)).2⟩
  · rw [Nat.compare_eq_gt.mpr hgt]
    refine ⟨fun h => Bool.noConfusion h, ?_⟩
    rintro (hlt | ⟨rfl, -⟩)
    · exact absurd hlt (Nat.lt_asymm hgt)
    · exact absurd hgt (Nat.lt_irrefl a)

theorem not_textLE_cons_nil (a : WChar) (as : List WChar) : ¬ TextLE (a :: as) [] :=
  fun h => Bool.noConfusion h

/-- A text between two texts has their common prefix. -/
theorem take_commonPrefixLength {low key high : List WChar} (hlow : TextLE low key)
    (hhigh : TextLE key high) :
    commonPrefixLength low high ≤ key.length ∧
      key.take (commonPrefixLength low high) = low.take (commonPrefixLength low high) := by
  induction low generalizing key high with
  | nil => simp [commonPrefixLength]
  | cons a low ih =>
      cases high with
      | nil => simp [commonPrefixLength]
      | cons b high =>
          rw [commonPrefixLength]
          split_ifs with hab
          · subst hab
            cases key with
            | nil => exact absurd hlow (not_textLE_cons_nil a low)
            | cons c key =>
                rw [textLE_cons_cons] at hlow hhigh
                have hca : a = c := by
                  rcases hlow with hac | ⟨hac, -⟩
                  · rcases hhigh with hca | ⟨hca, -⟩
                    · exact absurd hca (Nat.lt_asymm hac)
                    · exact hca.symm
                  · exact hac
                subst hca
                obtain ⟨hle, htake⟩ := ih (hlow.resolve_left (Nat.lt_irrefl a)).2
                  (hhigh.resolve_left (Nat.lt_irrefl a)).2
                rw [List.take_succ_cons, List.take_succ_cons, htake]
                exact ⟨Nat.succ_le_succ hle, rfl⟩
          · simp

/-- The elements of a sorted list stand between its first and its last one. -/
theorem between_of_sorted {ids : List Nat} {view : Nat → List WChar}
    (hsorted : ids.Pairwise fun a b => TextLE (view a) (view b)) {id : Nat} (hid : id ∈ ids) :
    TextLE (view (ids.headD 0)) (view id) ∧ TextLE (view id) (view (ids.getLastD 0)) := by
  have hrel : ∀ i j, (hi : i < ids.length) → (hj : j < ids.length) → i ≤ j →
      TextLE (view ids[i]) (view ids[j]) := by
    intro i j hi hj hij
    rcases Nat.lt_or_eq_of_le hij with hlt | rfl
    · exact List.pairwise_iff_getElem.mp hsorted i j hi hj hlt
    · exact Std.ReflCmp.isLE_rfl
  obtain ⟨i, hi, rfl⟩ := List.getElem_of_mem hid
  have hpos : 0 < ids.length := Nat.zero_lt_of_lt hi
  have hhead : ids.headD 0 = ids[0] := by
    rw [List.headD_eq_head?_getD, List.head?_eq_getElem?, List.getElem?_eq_getElem hpos]
    rfl
  have hlast : ids.getLastD 0 = ids[ids.length - 1] := by
    rw [List.getLastD_eq_getLast?, List.getLast?_eq_getElem?, List.getElem?_eq_getElem (by omega)]
    rfl
  rw [hhead, hlast]
  exact ⟨hrel 0 i hpos hi (Nat.zero_le i), hrel i _ hi (by omega) (by omega)⟩

theorem head_le_of_textLE {a b : List WChar} (h : TextLE a b) {x y : WChar}
    (hx : a.head? = some x) (hy : b.head? = some y) : x ≤ y := by
  cases a with
  | nil => exact absurd hx (by simp)
  | cons c a =>
      cases b with
      | nil => exact absurd hy (by simp)
      | cons d b =>
          obtain rfl := Option.some.inj hx
          obtain rfl := Option.some.inj hy
          rcases textLE_cons_cons.mp h with hlt | ⟨heq, -⟩
          · exact Nat.le_of_lt hlt
          · exact Nat.le_of_eq heq

theorem textLE_total (a b : List WChar) : TextLE a b ∨ TextLE b a := by
  have hswap : compare b a = (compare a b).swap := Std.OrientedCmp.eq_swap
  unfold TextLE
  rw [hswap]
  cases compare a b
  · exact .inl rfl
  · exact .inl rfl
  · exact .inr rfl

theorem textLE_trans {a b c : List WChar} (hab : TextLE a b) (hbc : TextLE b c) : TextLE a c :=
  Std.TransCmp.isLE_trans hab hbc

/-- A key whose first character is recorded. -/
def Data.StartsIn (data : Data) (starts : List WChar) (id : Nat) : Prop :=
  data.caseRule id ≠ .strict → ∀ ch, (data.view id).head? = some ch → ch ∈ starts

/-- Recording the first characters of sorted keys gives a sorted list. -/
theorem foldl_pushStart (data : Data) {ids : List Nat}
    (hsorted : ids.Pairwise fun a b => TextLE (data.view a) (data.view b)) {starts : List WChar}
    (hstarts : starts.Pairwise (· ≤ ·))
    (hbound : ∀ s ∈ starts, ∀ id ∈ ids, ∀ ch, (data.view id).head? = some ch → s ≤ ch) :
    (ids.foldl data.pushStart starts).Pairwise (· ≤ ·) ∧
      (∀ s ∈ starts, s ∈ ids.foldl data.pushStart starts) ∧
      ∀ id ∈ ids, data.StartsIn (ids.foldl data.pushStart starts) id := by
  induction ids generalizing starts with
  | nil => exact ⟨hstarts, fun _ hs => hs, fun _ hid => absurd hid List.not_mem_nil⟩
  | cons id ids ih =>
      obtain ⟨hid, hids⟩ := List.pairwise_cons.mp hsorted
      have hnext : (data.pushStart starts id).Pairwise (· ≤ ·) ∧
          (∀ s ∈ starts, s ∈ data.pushStart starts id) ∧
          data.StartsIn (data.pushStart starts id) id ∧
          ∀ s ∈ data.pushStart starts id, s ∈ starts ∨ (data.view id).head? = some s := by
        unfold Data.pushStart Data.StartsIn
        cases hview : data.view id with
        | nil => exact ⟨hstarts, fun _ hs => hs, fun _ ch hch =>
              absurd hch (by simp), fun _ => .inl⟩
        | cons ch key =>
            dsimp only
            split_ifs with hstrict hlast
            · exact ⟨hstarts, fun _ hs => hs, fun hne => absurd hstrict hne, fun _ => .inl⟩
            · refine ⟨hstarts, fun _ hs => hs, fun _ c hc => ?_, fun _ => .inl⟩
              obtain rfl := Option.some.inj hc
              exact List.mem_of_getLast? hlast
            · refine ⟨?_, fun s hs => List.mem_append_left _ hs, fun _ c hc => ?_, fun s hs => ?_⟩
              · refine List.pairwise_append.mpr ⟨hstarts, List.pairwise_singleton _ _, ?_⟩
                intro s hs c hc
                obtain rfl := List.mem_singleton.mp hc
                exact hbound s hs id List.mem_cons_self c (by rw [hview]; rfl)
              · obtain rfl := Option.some.inj hc
                exact List.mem_append_right _ List.mem_cons_self
              · rcases List.mem_append.mp hs with hs | hs
                · exact .inl hs
                · exact .inr (by rw [List.mem_singleton.mp hs]; rfl)
      obtain ⟨hpair, hkeep, hin, hfrom⟩ := hnext
      obtain ⟨hpair', hkeep', hin'⟩ := ih hids hpair fun s hs id' hid' ch hch => by
        rcases hfrom s hs with hs | hs
        · exact hbound s hs id' (List.mem_cons_of_mem _ hid') ch hch
        · exact head_le_of_textLE (hid id' hid') hs hch
      refine ⟨hpair', fun s hs => hkeep' s (hkeep s hs), ?_⟩
      rintro id' (_ | ⟨_, hid'⟩)
      · exact fun hne ch hch => hkeep' ch (hin hne ch hch)
      · exact hin' id' hid'

end Order

/-- The data indexes the keys. -/
structure Data.Indexes (data : Data) (keys : List (List WChar)) : Prop where
  length : data.keys.length = keys.length
  perm : (data.sorted.map data.view).Perm keys
  sorted : data.sorted.Pairwise fun a b => TextLE (data.view a) (data.view b)
  caseRule : ∀ id ∈ data.sorted, data.caseRule id = keyCase (data.view id)
  common : ∀ id ∈ data.sorted, data.commonLength ≤ (data.view id).length ∧
    (data.view id).take data.commonLength =
      (data.view (data.sorted.headD 0)).take data.commonLength
  starts : data.foldStarts.Pairwise (· ≤ ·)
  startsIn : ∀ id ∈ data.sorted, data.StartsIn data.foldStarts id
  maxLength : ∀ key ∈ keys, key.length ≤ data.maxLength

omit [AsciiCType] in
/-- Sorting the data that holds the keys gives an index of them. -/
theorem Data.Holds.sort {data : Data} {keys : List (List WChar)} (h : data.Holds keys) :
    data.sort.Indexes keys := by
  have hview : ∀ id, data.sort.view id = data.view id := fun _ => rfl
  have hrule : ∀ id, data.sort.caseRule id = data.caseRule id := fun _ => rfl
  have hperm : data.sort.sorted.Perm (List.range keys.length) := by
    rw [← h.sorted]
    exact List.mergeSort_perm _ _
  have hsorted : data.sort.sorted.Pairwise fun a b => TextLE (data.view a) (data.view b) := by
    apply List.pairwise_mergeSort
    · intro a b c hab hbc
      exact textLE_trans hab hbc
    · intro a b
      rw [Bool.or_eq_true]
      exact textLE_total (data.view a) (data.view b)
  have hids : ∀ id ∈ data.sort.sorted, ∃ hid : id < keys.length, data.view id = keys[id] ∧
      data.caseRule id = keyCase keys[id] := by
    intro id hid
    have hlt := List.mem_range.mp (hperm.mem_iff.mp hid)
    exact ⟨hlt, h.view id _ (List.getElem?_eq_getElem hlt)⟩
  have hfold := foldl_pushStart data hsorted List.Pairwise.nil (by simp)
  exact
    { length := h.length
      perm := by
        have hmap : (List.range keys.length).map data.view = keys := by
          apply List.ext_getElem
          · simp
          · intro i hi hi'
            rw [List.getElem_map, List.getElem_range]
            exact (h.view i _ (List.getElem?_eq_getElem hi')).1
        rw [← hmap]
        exact hperm.map data.view
      sorted := hsorted
      caseRule := by
        intro id hid
        obtain ⟨hlt, hkey, hcase⟩ := hids id hid
        rw [hview, hrule, hkey, hcase]
      common := by
        intro id hid
        obtain ⟨hlow, hhigh⟩ := between_of_sorted hsorted hid
        exact take_commonPrefixLength hlow hhigh
      starts := hfold.1
      startsIn := hfold.2.2
      maxLength := h.maxLength }

/-! ## Searching -/

/-- The query, or its lowercase, begins the key. -/
def Data.begins (data : Data) (query : List WChar) (folded : Bool) (id : Nat) : Bool :=
  comparePrefix (data.view id) query folded == .eq

section Search

variable {data : Data} {keys : List (List WChar)}

theorem begins_iff {query : List WChar} {folded : Bool} {id : Nat} :
    data.begins query folded id = true ↔ queryText query folded <+: data.view id := by
  rw [Data.begins, beq_iff_eq, comparePrefix_eq, compareStart_eq_iff]

/-- From the first key on that is not smaller, the keys the query begins come first, and they are
all of them. -/
theorem takeWhile_find (h : data.Indexes keys) (query : List WChar) (folded : Bool) :
    (data.find query folded).takeWhile (data.begins query folded) =
      data.sorted.filter (data.begins query folded) := by
  unfold Data.find
  dsimp only
  split_ifs with hreject
  · obtain ⟨-, hne⟩ := hreject
    symm
    rw [List.takeWhile_nil, List.filter_eq_nil_iff]
    intro id hid hbegins
    apply hne
    rw [begins_iff] at hbegins
    have htext : queryText (query.take (min data.commonLength query.length)) folded =
        (queryText query folded).take (min data.commonLength query.length) := by
      cases folded <;> simp [queryText]
    have hcommon : (data.view id).take (min data.commonLength query.length) =
        (data.view (data.sorted.headD 0)).take (min data.commonLength query.length) := by
      have htake := congrArg (List.take (min data.commonLength query.length)) (h.common id hid).2
      simpa [List.take_take] using htake
    rw [comparePrefix_eq, compareStart_eq_iff, htext, ← hcommon]
    exact hbegins.take _
  · simp only [comparePrefix_eq]
    have hbegins : data.begins query folded =
        fun id => compareStart (data.view id) (queryText query folded) == .eq :=
      funext fun id => by rw [Data.begins, comparePrefix_eq]
    rw [hbegins]
    exact takeWhile_drop_lowerBound (compareStart_pairwise h.sorted _)

theorem scanStrict_eq (candidate : List WChar) (rawFlexible : Bool) (ids : List Nat) :
    data.scanStrict candidate rawFlexible ids =
      if (ids.takeWhile (data.begins candidate false)).any
        (fun id => hasUpper (data.view id) (data.caseRule id)) then none
      else some (rawFlexible || !(ids.takeWhile (data.begins candidate false)).isEmpty) := by
  induction ids generalizing rawFlexible with
  | nil => simp [Data.scanStrict]
  | cons id ids ih =>
      rw [Data.scanStrict]
      cases hbegins : data.begins candidate false id with
      | true =>
          rw [if_neg (not_not.mpr (beq_iff_eq.mp hbegins)), List.takeWhile_cons_of_pos hbegins,
            List.any_cons]
          cases hupper : hasUpper (data.view id) (data.caseRule id) with
          | true => rfl
          | false =>
              rw [if_neg (by decide), ih, Bool.false_or]
              simp
      | false =>
          rw [if_pos (by simpa [Data.begins] using hbegins),
            List.takeWhile_cons_of_neg (by simp [hbegins])]
          simp

theorem scanFlexible_eq (query : List WChar) (folded : Bool) (ids : List Nat) :
    data.scanFlexible query folded ids =
      (ids.takeWhile (data.begins query folded)).any fun id =>
        !hasUpper (data.view id) (data.caseRule id) := by
  induction ids with
  | nil => rfl
  | cons id ids ih =>
      rw [Data.scanFlexible]
      cases hbegins : data.begins query folded id with
      | true =>
          rw [if_neg (not_not.mpr (beq_iff_eq.mp hbegins)), List.takeWhile_cons_of_pos hbegins,
            List.any_cons]
          cases hupper : hasUpper (data.view id) (data.caseRule id) with
          | true =>
              rw [if_neg (by decide), ih]
              rfl
          | false => rfl
      | false =>
          rw [if_pos (by simpa [Data.begins] using hbegins),
            List.takeWhile_cons_of_neg (by simp [hbegins])]
          rfl

/-! ## The whole search -/

/-- A key with an uppercase letter that the candidate begins. -/
def MatchesStrict (data : Data) (candidate : List WChar) : Prop :=
  ∃ id ∈ data.sorted, candidate <+: data.view id ∧ VKey.hasUpper (data.view id) = true

/-- A key without an uppercase letter that the lowercase of the candidate begins. -/
def MatchesFlexible (data : Data) (candidate : List WChar) : Prop :=
  ∃ id ∈ data.sorted, candidate.map AsciiCType.towlower <+: data.view id ∧
    VKey.hasUpper (data.view id) = false

theorem hasUpper_of_mem (h : data.Indexes keys) {id : Nat} (hid : id ∈ data.sorted) :
    hasUpper (data.view id) (data.caseRule id) = VKey.hasUpper (data.view id) := by
  rw [h.caseRule id hid, hasUpper_keyCase]

theorem scanStrict_eq_none_iff (h : data.Indexes keys) (candidate : List WChar) :
    data.scanStrict candidate false (data.find candidate false) = none ↔
      MatchesStrict data candidate := by
  rw [scanStrict_eq, takeWhile_find h, ite_eq_left_iff]
  simp only [reduceCtorEq, imp_false, not_not, List.any_eq_true, List.mem_filter, begins_iff]
  constructor
  · rintro ⟨id, ⟨hid, hbegins⟩, hupper⟩
    exact ⟨id, hid, hbegins, (hasUpper_of_mem h hid).symm.trans hupper⟩
  · rintro ⟨id, hid, hbegins, hupper⟩
    exact ⟨id, ⟨hid, hbegins⟩, (hasUpper_of_mem h hid).trans hupper⟩

/-- A candidate that begins a key, but none with an uppercase letter. -/
theorem exists_of_scanStrict_eq_some (h : data.Indexes keys) {candidate : List WChar}
    (hscan : data.scanStrict candidate false (data.find candidate false) = some true) :
    ∃ id ∈ data.sorted, candidate <+: data.view id ∧ VKey.hasUpper (data.view id) = false := by
  have hstrict : ¬ MatchesStrict data candidate := by
    rw [← scanStrict_eq_none_iff h, hscan]
    exact Option.some_ne_none true
  rw [scanStrict_eq, takeWhile_find h] at hscan
  split_ifs at hscan
  rw [Option.some.injEq, Bool.false_or, Bool.not_eq_true', List.isEmpty_eq_false_iff_exists_mem]
    at hscan
  obtain ⟨id, hmem⟩ := hscan
  obtain ⟨hid, hbegins⟩ := List.mem_filter.mp hmem
  refine ⟨id, hid, begins_iff.mp hbegins, ?_⟩
  rw [← Bool.not_eq_true]
  exact fun hupper => hstrict ⟨id, hid, begins_iff.mp hbegins, hupper⟩

theorem scanFlexible_eq_true_iff (h : data.Indexes keys) (query : List WChar) (folded : Bool) :
    data.scanFlexible query folded (data.find query folded) = true ↔
      ∃ id ∈ data.sorted, queryText query folded <+: data.view id ∧
        VKey.hasUpper (data.view id) = false := by
  rw [scanFlexible_eq, takeWhile_find h]
  simp only [List.any_eq_true, List.mem_filter, begins_iff, Bool.not_eq_true']
  constructor
  · rintro ⟨id, ⟨hid, hbegins⟩, hupper⟩
    exact ⟨id, hid, hbegins, (hasUpper_of_mem h hid).symm.trans hupper⟩
  · rintro ⟨id, hid, hbegins, hupper⟩
    exact ⟨id, ⟨hid, hbegins⟩, (hasUpper_of_mem h hid).trans hupper⟩

/-- A candidate whose first character is not recorded begins no key in lowercase. -/
theorem matchesFlexible_start (h : data.Indexes keys) {c : WChar} {candidate : List WChar}
    (hmatch : MatchesFlexible data (c :: candidate)) :
    binarySearch data.foldStarts (fold c) = true := by
  obtain ⟨id, hid, hbegins, hupper⟩ := hmatch
  rw [binarySearch_eq_true_iff h.starts, fold_eq]
  apply h.startsIn id hid
  · intro hstrict
    have hupper' := hasUpper_of_mem h hid
    rw [hstrict, hupper] at hupper'
    exact Bool.noConfusion hupper'
  · obtain ⟨rest, hrest⟩ := hbegins
    rw [← hrest]
    rfl

theorem containsOtherPrefixes_iff (h : data.Indexes keys) {candidate : List WChar}
    (hne : candidate ≠ []) :
    data.containsOtherPrefixes candidate = true ↔
      MatchesStrict data candidate ∨ MatchesFlexible data candidate := by
  obtain ⟨c, rest, rfl⟩ := List.exists_cons_of_ne_nil hne
  unfold Data.containsOtherPrefixes
  cases hscan : data.scanStrict (c :: rest) false (data.find (c :: rest) false) with
  | none => exact ⟨fun _ => .inl ((scanStrict_eq_none_iff h _).mp hscan), fun _ => rfl⟩
  | some rawFlexible =>
      have hstrict : ¬ MatchesStrict data (c :: rest) := by
        rw [← scanStrict_eq_none_iff h, hscan]
        exact Option.some_ne_none rawFlexible
      rw [or_iff_right hstrict]
      dsimp only
      rw [List.headD_cons, List.tail_cons]
      have hfold : fold c :: rest.map fold = queryText (c :: rest) true := by
        rw [funext fold_eq]
        rfl
      cases hstart : data.foldStarts.isEmpty || !binarySearch data.foldStarts (fold c) with
      | true =>
          rw [if_pos rfl]
          refine ⟨fun hfalse => absurd hfalse Bool.false_ne_true, fun hmatch => ?_⟩
          have hfound := matchesFlexible_start h hmatch
          rw [hfound, Bool.not_true, Bool.or_false, List.isEmpty_iff] at hstart
          rw [binarySearch_eq_true_iff h.starts, hstart] at hfound
          exact absurd hfound List.not_mem_nil
      | false =>
          rw [if_neg Bool.false_ne_true]
          cases decide ((c :: rest).length ≤ Data.kInlineFoldChars) with
          | true =>
              rw [Bool.true_and, if_pos rfl, hfold, Bool.not_true]
              split_ifs with hraw
              · rw [Bool.and_eq_true, beq_iff_eq] at hraw
                obtain ⟨rfl, htext⟩ := hraw
                refine ⟨fun _ => ?_, fun _ => rfl⟩
                obtain ⟨id, hid, hbegins, hupper⟩ := exists_of_scanStrict_eq_some h hscan
                refine ⟨id, hid, ?_, hupper⟩
                change queryText (c :: rest) true <+: data.view id
                rw [htext]
                exact hbegins
              · exact scanFlexible_eq_true_iff h _ false
          | false => exact scanFlexible_eq_true_iff h _ true

end Search

omit [AsciiCType] in
theorem indexes_new (keys : List (List WChar)) :
    (keys.foldl Data.addKey {}).sort.Indexes keys := by
  simpa using (Data.holds_nil.foldl keys).sort

end MacroPrefixIndex

/-! ## The plain scan -/

open MacroPrefixIndex

/-- A key that the candidate begins, under the rule of its case. -/
def BeginsKey (candidate key : List WChar) : Prop :=
  if hasUpper key then candidate <+: key else candidate.map AsciiCType.towlower <+: key

theorem isSpaceMacroPrefix_iff {candidate : List WChar} (hne : candidate ≠ [])
    (keys : List (List WChar)) :
    isSpaceMacroPrefix candidate keys = true ↔ ∃ key ∈ keys, BeginsKey candidate key := by
  have hbegins : ∀ key : List WChar,
      (if key.length < candidate.length then false
        else if hasUpper key then compareStart key candidate == .eq
        else compareStart key (candidate.map AsciiCType.towlower) == .eq) = true ↔
      BeginsKey candidate key := by
    intro key
    unfold BeginsKey
    split_ifs with hshort hupper hupper
    · refine ⟨False.elim, fun hpre => ?_⟩
      exact absurd hpre.length_le (Nat.not_le.mpr hshort)
    · refine ⟨False.elim, fun hpre => ?_⟩
      have hle := hpre.length_le
      rw [List.length_map] at hle
      exact absurd hle (Nat.not_le.mpr hshort)
    · rw [beq_iff_eq, compareStart_eq_iff]
    · rw [beq_iff_eq, compareStart_eq_iff]
  unfold isSpaceMacroPrefix
  rw [List.isEmpty_eq_false_iff.mpr hne, Bool.or_false]
  dsimp only
  cases keys with
  | nil => simp
  | cons key keys =>
      rw [List.isEmpty_cons, if_neg Bool.false_ne_true, List.any_eq_true]
      exact exists_congr fun key => and_congr_right fun _ => hbegins key

/-- Some key matches, with an uppercase letter or without. -/
theorem matches_iff {data : Data} {keys : List (List WChar)} (h : data.Indexes keys)
    (candidate : List WChar) :
    MatchesStrict data candidate ∨ MatchesFlexible data candidate ↔
      ∃ key ∈ keys, BeginsKey candidate key := by
  have hmem : ∀ key, key ∈ keys ↔ ∃ id ∈ data.sorted, data.view id = key := by
    intro key
    rw [← h.perm.mem_iff, List.mem_map]
  constructor
  · rintro (⟨id, hid, hbegins, hupper⟩ | ⟨id, hid, hbegins, hupper⟩)
    · exact ⟨_, (hmem _).mpr ⟨id, hid, rfl⟩, by rwa [BeginsKey, if_pos hupper]⟩
    · refine ⟨_, (hmem _).mpr ⟨id, hid, rfl⟩, ?_⟩
      rwa [BeginsKey, hupper, if_neg Bool.false_ne_true]
  · rintro ⟨key, hkey, hbegins⟩
    obtain ⟨id, hid, rfl⟩ := (hmem key).mp hkey
    unfold BeginsKey at hbegins
    split_ifs at hbegins with hupper
    · exact .inl ⟨id, hid, hbegins, hupper⟩
    · exact .inr ⟨id, hid, hbegins, Bool.not_eq_true _ ▸ hupper⟩

/-- The separate look at the first key. -/
theorem firstKey_iff (candidate key : List WChar) :
    (candidate.length ≤ key.length ∧
      comparePrefix key candidate (!MacroPrefixIndex.hasUpper key (keyCase key)) = .eq) ↔
    BeginsKey candidate key := by
  rw [comparePrefix_eq, compareStart_eq_iff, hasUpper_keyCase, BeginsKey]
  cases hasUpper key with
  | true =>
      rw [if_pos rfl]
      exact ⟨And.right, fun hpre => ⟨hpre.length_le, hpre⟩⟩
  | false =>
      rw [if_neg Bool.false_ne_true]
      refine ⟨And.right, fun hpre => ⟨?_, hpre⟩⟩
      have hle := hpre.length_le
      rwa [List.length_map] at hle

theorem BeginsKey.length_le {candidate key : List WChar} (h : BeginsKey candidate key) :
    candidate.length ≤ key.length :=
  ((firstKey_iff candidate key).mpr h).1

/-- The index answers every candidate like the plain scan. -/
theorem containsPrefix_new_eq (candidate : List WChar) (keys : List (List WChar)) :
    (MacroPrefixIndex.new keys).containsPrefix candidate = isSpaceMacroPrefix candidate keys := by
  by_cases hne : candidate = []
  · subst hne
    cases keys <;> simp [MacroPrefixIndex.new, containsPrefix, isSpaceMacroPrefix]
  · rw [Bool.eq_iff_iff, isSpaceMacroPrefix_iff hne]
    cases keys with
    | nil => simp [MacroPrefixIndex.new, containsPrefix]
    | cons first keys =>
        have h := indexes_new (first :: keys)
        unfold MacroPrefixIndex.new containsPrefix
        dsimp only
        rw [List.isEmpty_eq_false_iff.mpr hne, if_neg Bool.false_ne_true]
        split_ifs with hfirst hnone
        · rw [firstKey_iff] at hfirst
          exact ⟨fun _ => ⟨first, List.mem_cons_self, hfirst⟩, fun _ => rfl⟩
        · rw [firstKey_iff] at hfirst
          refine ⟨False.elim, ?_⟩
          rintro ⟨key, hkey, hbegins⟩
          rcases hnone with hone | hlong
          · rw [h.length, List.length_cons] at hone
            obtain rfl : keys = [] := List.length_eq_zero_iff.mp (by omega)
            obtain rfl := List.mem_singleton.mp hkey
            exact hfirst hbegins
          · exact absurd (hbegins.length_le.trans (h.maxLength key hkey)) (Nat.not_le.mpr hlong)
        · rw [containsOtherPrefixes_iff h hne]
          exact matches_iff h candidate

end VKey
