import VKey.Macro.Plan
import VKey.Support.Scan

/-!
# Macro shortcuts in the text before the caret

When the tracked macro buffer no longer mirrors the document, the shortcut is looked for in the
document text before the caret, longest candidate first.  The search is bounded by the length of
the longest key, of which a trigger that produces text takes one character.  A key of maximal
length that does not contain the trigger is therefore out of reach, and the module proves that it
is the only one.
-/

namespace VKey.Macro

/-- A shortcut found in the document. -/
structure ContextMatch where
  plan : MacroPlan
  /-- Document characters that the expansion replaces. -/
  shortcutLen : Nat

section Search

variable [WordBreaks]

/-- The search for a shortcut, without its limit. -/
structure Context where
  precedingText : List WChar
  triggerChar : WChar
  macroTable : MacroTable
  autoCapsEnabled : Bool
  clipboardThreshold : Nat
  mapper : CaseMapper
  titleCaseEnabled : Bool := false

namespace Context

/-- The document characters of a candidate. -/
def suffix (context : Context) (len : Nat) : List WChar :=
  context.precedingText.drop (context.precedingText.length - len)

/-- A candidate starts at a word boundary. -/
def startsWord (context : Context) (len : Nat) : Bool :=
  let start := context.precedingText.length - len
  start == 0 ||
    (context.precedingText[start - 1]?).any fun prev => iswspace prev || iswpunct prev

/-- What the planner is asked about a candidate. -/
def inputs (context : Context) (len : Nat) : PlanInputs where
  rawMacroBuffer :=
    if isTextTrigger context.triggerChar then context.suffix len ++ [context.triggerChar]
    else context.suffix len
  previousComposition := []
  previousEncodedWidths := []
  macroTable := context.macroTable
  macroCrossCommit := true
  currentCodeTable := .unicode
  autoCapsEnabled := context.autoCapsEnabled
  titleCaseEnabled := context.titleCaseEnabled
  wasFirstCharAutoCapped := false
  triggerChar := context.triggerChar
  clipboardThreshold := context.clipboardThreshold

/-- The plan of a candidate. -/
def planOf (context : Context) (len : Nat) : MacroPlan :=
  plan (context.inputs len) context.mapper

/-- The longest shortcut of at most `scan` characters. -/
def scanBack (context : Context) : Nat → Option ContextMatch
  | 0 => none
  | len + 1 =>
      if context.startsWord (len + 1) && (context.planOf (len + 1)).matched then
        some { plan := { context.planOf (len + 1) with
            bsCount := len + 1 }, shortcutLen := len + 1 }
      else context.scanBack len

/-- The character of the limit that the document does not hold. -/
def triggerLen (context : Context) : Nat :=
  if isTextTrigger context.triggerChar then 1 else 0

/-- The longest shortcut that ends at the caret. -/
def matchInPrecedingText (context : Context) (maxShortcutLen : Nat) : Option ContextMatch :=
  if context.precedingText.isEmpty || context.macroTable.entries.isEmpty then none
  else if maxShortcutLen ≤ context.triggerLen then none
  else context.scanBack (min context.precedingText.length (maxShortcutLen - context.triggerLen))

/-! ## Shortcuts -/

/-- The last `len` characters are a shortcut: they start at a word boundary and the planner
matches them. -/
def IsShortcut (context : Context) (len : Nat) : Prop :=
  0 < len ∧ len ≤ context.precedingText.length ∧ context.startsWord len = true ∧
    (context.planOf len).matched = true

/-- A length is that of the longest shortcut, and there is none without a shortcut. -/
def IsLongest (context : Context) : Option Nat → Prop
  | some len => context.IsShortcut len ∧ ∀ len', context.IsShortcut len' → len' ≤ len
  | none => ∀ len, ¬ context.IsShortcut len

/-- The trigger produces text, and as many characters as the longest key has, from a word boundary
on, are a key without the trigger. -/
def KeyAloneAtLimit (context : Context) : Prop :=
  let limit := context.macroTable.longestMacroKeyLength
  isTextTrigger context.triggerChar = true ∧ 0 < limit ∧ limit ≤ context.precedingText.length ∧
    context.startsWord limit = true ∧
      (lookup context.macroTable context.mapper (context.suffix limit)).isSome = true

end Context

/-! ## Looking candidates up -/

omit [WordBreaks] in
theorem le_foldl_max (entries : List (List WChar × List WChar)) (n : Nat) :
    n ≤ entries.foldl (fun longest entry => max longest entry.1.length) n ∧
      ∀ entry ∈ entries,
        entry.1.length ≤ entries.foldl (fun longest entry => max longest entry.1.length) n := by
  induction entries generalizing n with
  | nil => exact ⟨Nat.le_refl n, fun _ h => absurd h List.not_mem_nil⟩
  | cons first entries ih =>
      obtain ⟨hn, hentries⟩ := ih (max n first.1.length)
      refine ⟨Nat.le_trans (Nat.le_max_left _ _) hn, ?_⟩
      rintro entry (_ | ⟨_, hentry⟩)
      · exact Nat.le_trans (Nat.le_max_right _ _) hn
      · exact hentries entry hentry

omit [WordBreaks] in
theorem length_le_of_find {table : MacroTable} {key : List WChar}
    (h : (table.find key).isSome = true) : key.length ≤ table.longestMacroKeyLength := by
  obtain ⟨entry, hentry⟩ := Option.isSome_iff_exists.mp h
  have hkey : entry.1 = key := by simpa using List.find?_some hentry
  rw [← hkey]
  exact (le_foldl_max table.entries 0).2 entry (List.mem_of_find?_eq_some hentry)

omit [WordBreaks] in
theorem length_le_of_lookup {table : MacroTable} {mapper : CaseMapper} {candidate : List WChar}
    (h : (lookup table mapper candidate).isSome = true) :
    candidate.length ≤ table.longestMacroKeyLength := by
  rw [lookup, Option.isSome_or, Bool.or_eq_true] at h
  rcases h with h | h
  · exact length_le_of_find h
  · rw [← mapper.length_lower candidate]
    exact length_le_of_find h

namespace Context

variable (context : Context)

omit [WordBreaks] in
theorem length_suffix {len : Nat} (hle : len ≤ context.precedingText.length) :
    (context.suffix len).length = len := by
  rw [suffix, List.length_drop]
  omega

/-- The planner matches a candidate with the trigger in the key or without it. -/
theorem matched_planOf {len : Nat} (hpos : 0 < len) (hle : len ≤ context.precedingText.length) :
    (context.planOf len).matched =
      (isTextTrigger context.triggerChar && (lookup context.macroTable context.mapper
        (context.suffix len ++ [context.triggerChar])).isSome ||
      (lookup context.macroTable context.mapper (context.suffix len)).isSome) := by
  have hlen := context.length_suffix hle
  have htrigger : (context.inputs len).triggerChar = context.triggerChar := rfl
  have htable : (context.inputs len).macroTable = context.macroTable := rfl
  rw [planOf, matched_plan, PlanInputs.isSome_findMatch rfl, htrigger, htable]
  by_cases htext : isTextTrigger context.triggerChar = true
  · have hraw : (context.inputs len).rawMacroBuffer =
        context.suffix len ++ [context.triggerChar] := if_pos htext
    have hlong : 1 < (context.suffix len ++ [context.triggerChar]).length := by
      rw [List.length_append, List.length_singleton]
      omega
    rw [hraw, htext, decide_eq_true hlong, List.getLast?_concat, List.dropLast_concat]
    simp
  · have hraw : (context.inputs len).rawMacroBuffer = context.suffix len := if_neg htext
    rw [hraw, Bool.eq_false_iff.mpr htext]
    simp

variable {context}

theorem IsShortcut.le_longest {len : Nat} (h : context.IsShortcut len) :
    len ≤ context.macroTable.longestMacroKeyLength := by
  obtain ⟨hpos, hle, -, hmatched⟩ := h
  rw [context.matched_planOf hpos hle, Bool.or_eq_true, Bool.and_eq_true] at hmatched
  rcases hmatched with ⟨-, hfound⟩ | hfound
  · have hlen := length_le_of_lookup hfound
    rw [List.length_append, context.length_suffix hle] at hlen
    omega
  · have hlen := length_le_of_lookup hfound
    rwa [context.length_suffix hle] at hlen

/-- At the limit, only a key without the trigger fits. -/
theorem keyAloneAtLimit_iff :
    context.KeyAloneAtLimit ↔
      isTextTrigger context.triggerChar = true ∧
        context.IsShortcut context.macroTable.longestMacroKeyLength := by
  unfold KeyAloneAtLimit IsShortcut
  dsimp only
  refine and_congr_right fun _ => and_congr_right fun hpos => and_congr_right fun hle =>
    and_congr_right fun _ => ?_
  rw [context.matched_planOf hpos hle, Bool.or_eq_true, Bool.and_eq_true]
  refine ⟨.inr, fun h => h.resolve_left ?_⟩
  rintro ⟨-, hfound⟩
  have hlen := length_le_of_lookup hfound
  rw [List.length_append, List.length_singleton, context.length_suffix hle] at hlen
  omega

/-! ## The scan -/

theorem scanBack_eq (context : Context) (scan : Nat) :
    (context.scanBack scan).map ContextMatch.shortcutLen =
      (scanDown (fun i => context.startsWord (i + 1) && (context.planOf (i + 1)).matched)
        scan).map (· + 1) := by
  induction scan with
  | zero => rfl
  | succ len ih =>
      unfold scanBack scanDown
      split_ifs
      · rfl
      · exact ih

/-- The scan finds the longest shortcut up to its bound. -/
theorem scanBack_isLongest {scan : Nat} (hscan : scan ≤ context.precedingText.length)
    (hbound : ∀ len, context.IsShortcut len → len ≤ scan) :
    context.IsLongest ((context.scanBack scan).map ContextMatch.shortcutLen) := by
  rw [scanBack_eq]
  have htest : ∀ len, context.IsShortcut len →
      ∃ i, len = i + 1 ∧ i < scan ∧
        (context.startsWord (i + 1) && (context.planOf (i + 1)).matched) = true := by
    intro len hlen
    obtain ⟨i, rfl⟩ := Nat.exists_eq_succ_of_ne_zero (Nat.ne_of_gt hlen.1)
    refine ⟨i, rfl, hbound _ hlen, ?_⟩
    rw [Bool.and_eq_true]
    exact hlen.2.2
  cases hdown : scanDown
      (fun i => context.startsWord (i + 1) && (context.planOf (i + 1)).matched) scan with
  | none =>
      intro len hlen
      obtain ⟨i, -, hi, htrue⟩ := htest len hlen
      rw [scanDown_eq_none.mp hdown i hi] at htrue
      exact Bool.noConfusion htrue
  | some i =>
      obtain ⟨hi, htrue, hmax⟩ := scanDown_eq_some hdown
      rw [Bool.and_eq_true] at htrue
      refine ⟨⟨Nat.succ_pos i, Nat.le_trans hi hscan, htrue⟩, fun len' hlen' => ?_⟩
      obtain ⟨j, rfl, hj, hjtrue⟩ := htest len' hlen'
      by_contra hlt
      rw [hmax j (Nat.lt_of_succ_lt_succ (Nat.not_le.mp hlt)) hj] at hjtrue
      exact Bool.noConfusion hjtrue

theorem shortcutLen_le {scan : Nat} {found : ContextMatch}
    (h : context.scanBack scan = some found) : found.shortcutLen ≤ scan := by
  have hlen := context.scanBack_eq scan
  rw [h, Option.map_some] at hlen
  obtain ⟨i, hi, hfound⟩ := Option.map_eq_some_iff.mp hlen.symm
  rw [← hfound]
  exact (scanDown_eq_some hi).1

theorem bsCount_of_scanBack {scan : Nat} {found : ContextMatch}
    (h : context.scanBack scan = some found) : found.plan.bsCount = found.shortcutLen := by
  induction scan with
  | zero => cases h
  | succ len ih =>
      rw [scanBack] at h
      split_ifs at h
      · cases h
        rfl
      · exact ih h

theorem bsCount_of_matchInPrecedingText {limit : Nat} {found : ContextMatch}
    (h : context.matchInPrecedingText limit = some found) :
    found.plan.bsCount = found.shortcutLen := by
  unfold matchInPrecedingText at h
  split_ifs at h
  exact bsCount_of_scanBack h

/-- Without a key of maximal length in front of the trigger, the limit keeps every shortcut in
reach. -/
theorem IsShortcut.le_limit {len : Nat} (h : context.IsShortcut len)
    (hlimit : ¬ context.KeyAloneAtLimit) :
    len ≤ context.macroTable.longestMacroKeyLength - context.triggerLen := by
  have hle := h.le_longest
  unfold triggerLen
  split_ifs with htext
  · have hne : len ≠ context.macroTable.longestMacroKeyLength := by
      rintro rfl
      exact hlimit (keyAloneAtLimit_iff.mpr ⟨htext, h⟩)
    omega
  · exact hle

theorem shortcutLen_le_of_match {limit : Nat} {found : ContextMatch}
    (h : context.matchInPrecedingText limit = some found) :
    found.shortcutLen ≤ limit - context.triggerLen := by
  unfold matchInPrecedingText at h
  split_ifs at h
  exact Nat.le_trans (shortcutLen_le h) (Nat.min_le_right _ _)

/-- The search finds the longest shortcut exactly if there is no key of maximal length in front of
a trigger that produces text. -/
theorem matchInPrecedingText_isLongest_iff (context : Context) :
    context.IsLongest
        ((context.matchInPrecedingText context.macroTable.longestMacroKeyLength).map
          ContextMatch.shortcutLen) ↔
      ¬ context.KeyAloneAtLimit := by
  constructor
  · intro hlongest halone
    obtain ⟨htext, hshortcut⟩ := keyAloneAtLimit_iff.mp halone
    have htrigger : context.triggerLen = 1 := if_pos htext
    have hpos := hshortcut.1
    cases hmatch : context.matchInPrecedingText context.macroTable.longestMacroKeyLength with
    | none =>
        rw [hmatch] at hlongest
        exact hlongest _ hshortcut
    | some found =>
        rw [hmatch] at hlongest
        have hge := hlongest.2 _ hshortcut
        have hle := shortcutLen_le_of_match hmatch
        omega
  · intro hlimit
    unfold matchInPrecedingText
    split_ifs with hempty hshort
    · intro len hlen
      have hpos := hlen.1
      rw [Bool.or_eq_true, List.isEmpty_iff, List.isEmpty_iff] at hempty
      rcases hempty with htext | htable
      · have hle := hlen.2.1
        rw [htext, List.length_nil] at hle
        omega
      · have hle := hlen.le_longest
        rw [MacroTable.longestMacroKeyLength, htable] at hle
        exact absurd hle (Nat.not_le.mpr hpos)
    · intro len hlen
      have hle := hlen.le_limit hlimit
      have hpos := hlen.1
      omega
    · apply scanBack_isLongest (Nat.min_le_left _ _)
      intro len hlen
      exact Nat.le_min.mpr ⟨hlen.2.1, hlen.le_limit hlimit⟩

end Context

end Search

/-- The key `nma`, which stands in front of a full stop. -/
def nmaContext : Context :=
  { precedingText := [L 'n', L 'm', L 'a']
    triggerChar := L '.'
    macroTable := ⟨[([L 'n', L 'm', L 'a'], [L 'n', L 'h', L 'o'])], by simp⟩
    autoCapsEnabled := false
    clipboardThreshold := 200
    mapper := ⟨List.map asciiUpper, List.map asciiLower, fun _ => List.length_map _,
      fun _ => List.length_map _⟩ }

/-- In front of a full stop, the only key is not found. -/
theorem not_matchInPrecedingText_isLongest :
    ¬ ∀ context : Context, context.IsLongest
        ((context.matchInPrecedingText context.macroTable.longestMacroKeyLength).map
          ContextMatch.shortcutLen) := by
  intro h
  have hnone : (nmaContext.matchInPrecedingText
      nmaContext.macroTable.longestMacroKeyLength).map ContextMatch.shortcutLen = none := by
    decide
  have hlongest := h nmaContext
  rw [hnone] at hlongest
  exact hlongest 3 ⟨by decide, by decide, by decide, by decide⟩

end VKey.Macro
