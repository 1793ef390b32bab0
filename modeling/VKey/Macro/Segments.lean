import VKey.CodeTable.Converter
import VKey.Macro.Plan
import Mathlib.Data.List.Forall2

/-!
# Typing and pasting an expansion

An expansion is sent to the application in one of two ways: pasted through the clipboard, or typed
in segments with a return key between them.  Both scan the text for newline tokens on their own.
They are compared here through the tokens of the text, which the capitalization of the expansion
does not touch either.
-/

namespace VKey.Macro

/-! ## The two paths -/

/-- Turn the newline tokens of an expansion into CR LF. -/
def expandEscapesForClipboard : List WChar → List WChar
  | [] => []
  | [c] => [c]
  | c :: d :: rest =>
      if c = L '\\' ∧ d = L 'n' then 0x0D :: 0x0A :: expandEscapesForClipboard rest
      else c :: expandEscapesForClipboard (d :: rest)

/-- A fragment to send: text, or a return key. -/
structure Segment where
  isReturn : Bool := false
  text : List WChar := []
  deriving DecidableEq, Repr

/-- Close the current segment unless it is empty. -/
def flush (segments : List Segment) (cur : List WChar) : List Segment :=
  if cur.isEmpty then segments else segments ++ [{ text := cur }]

/-- What one character adds to the current segment. -/
def segmentUnits (codeTable : CodeTable) (c : WChar) : List WChar :=
  if codeTable ≠ .unicode then (CodeTableConverter.convertChar c codeTable).units else [c]

/-- Split the rest of an expansion, after the segments closed so far and the current one. -/
def buildSegmentsFrom (codeTable : CodeTable) :
    List Segment → List WChar → List WChar → List Segment
  | segments, cur, [] => flush segments cur
  | segments, cur, [c] => flush segments (cur ++ segmentUnits codeTable c)
  | segments, cur, c :: d :: rest =>
      if c = L '\\' ∧ d = L 'n' then
        buildSegmentsFrom codeTable (flush segments cur ++ [{ isReturn := true }]) [] rest
      else buildSegmentsFrom codeTable segments (cur ++ segmentUnits codeTable c) (d :: rest)

/-- Split an expansion at its newline tokens and encode the characters in between. -/
def buildSegments (expansion : List WChar) (codeTable : CodeTable) : List Segment :=
  buildSegmentsFrom codeTable [] [] expansion

/-- What a segment types; a return key stands for CR LF. -/
def Segment.typed (segment : Segment) : List WChar :=
  if segment.isReturn then [0x0D, 0x0A] else segment.text

/-- What the segments type one after the other. -/
def typedText (segments : List Segment) : List WChar := segments.flatMap Segment.typed

/-! ## The tokens of an expansion -/

/-- A piece of an expansion: the newline token or an ordinary character. -/
inductive Token where
  | newline
  | char (c : WChar)
  deriving DecidableEq, Repr

/-- The tokens of a text, from left to right. -/
def tokens : List WChar → List Token
  | [] => []
  | [c] => [.char c]
  | c :: d :: rest =>
      if c = L '\\' ∧ d = L 'n' then .newline :: tokens rest else .char c :: tokens (d :: rest)

/-- A token as it arrives in the document, with the characters in a given encoding. -/
def Token.arrives (encode : WChar → List WChar) : Token → List WChar
  | .newline => [0x0D, 0x0A]
  | .char c => encode c

theorem expandEscapesForClipboard_eq_tokens (text : List WChar) :
    expandEscapesForClipboard text = (tokens text).flatMap (Token.arrives fun c => [c]) := by
  induction text using tokens.induct with
  | case1 => rfl
  | case2 c => rfl
  | case3 c d rest htoken ih =>
      rw [expandEscapesForClipboard, if_pos htoken, tokens, if_pos htoken, List.flatMap_cons, ih]
      rfl
  | case4 c d rest htoken ih =>
      rw [expandEscapesForClipboard, if_neg htoken, tokens, if_neg htoken, List.flatMap_cons, ih]
      rfl

@[simp] theorem typedText_flush (segments : List Segment) (cur : List WChar) :
    typedText (flush segments cur) = typedText segments ++ cur := by
  cases cur with
  | nil => simp [flush]
  | cons c cur => simp [flush, typedText, Segment.typed]

@[simp] theorem typedText_return (segments : List Segment) :
    typedText (segments ++ [{ isReturn := true }]) = typedText segments ++ [0x0D, 0x0A] := by
  simp [typedText, Segment.typed]

/-- What is typed is what was closed, what is open, and the tokens of the rest. -/
theorem typedText_buildSegmentsFrom (codeTable : CodeTable) (segments : List Segment)
    (cur text : List WChar) :
    typedText (buildSegmentsFrom codeTable segments cur text) =
      typedText segments ++ cur ++
        (tokens text).flatMap (Token.arrives (segmentUnits codeTable)) := by
  induction text using tokens.induct generalizing segments cur with
  | case1 => simp [buildSegmentsFrom, tokens]
  | case2 c => simp [buildSegmentsFrom, tokens, Token.arrives]
  | case3 c d rest htoken ih =>
      rw [buildSegmentsFrom, if_pos htoken, ih, tokens, if_pos htoken]
      simp [Token.arrives]
  | case4 c d rest htoken ih =>
      rw [buildSegmentsFrom, if_neg htoken, ih, tokens, if_neg htoken]
      simp [Token.arrives]

theorem typedText_buildSegments (text : List WChar) (codeTable : CodeTable) :
    typedText (buildSegments text codeTable) =
      (tokens text).flatMap (Token.arrives (segmentUnits codeTable)) := by
  rw [buildSegments, typedText_buildSegmentsFrom]
  rfl

theorem typedText_buildSegments_unicode (text : List WChar) :
    typedText (buildSegments text .unicode) = expandEscapesForClipboard text := by
  rw [typedText_buildSegments, expandEscapesForClipboard_eq_tokens]
  rfl

/-! ## The case of an expansion -/

/-- A newline token starts at the index. -/
def HasNewlineAt (text : List WChar) (i : Nat) : Prop :=
  text[i]? = some (L '\\') ∧ text[i + 1]? = some (L 'n')

theorem hasNewlineAt_succ {c : WChar} {text : List WChar} {i : Nat} :
    HasNewlineAt (c :: text) (i + 1) ↔ HasNewlineAt text i := by
  simp [HasNewlineAt]

/-- Each character is the stored one or its capital, and the newline tokens are where they were. -/
structure DiffersInCase (mapper : CaseMapper) (stored expansion : List WChar) : Prop where
  letters : List.Forall₂ (fun c c' => c' = c ∨ c' = upperChar mapper c) stored expansion
  newlines : ∀ i, HasNewlineAt stored i → HasNewlineAt expansion i

section Case

variable {mapper : CaseMapper}

theorem DiffersInCase.refl (text : List WChar) : DiffersInCase mapper text text :=
  ⟨List.forall₂_same.mpr fun _ _ => .inl rfl, fun _ h => h⟩

theorem DiffersInCase.newline {stored expansion : List WChar}
    (h : DiffersInCase mapper stored expansion) :
    DiffersInCase mapper (L '\\' :: L 'n' :: stored) (L '\\' :: L 'n' :: expansion) := by
  refine ⟨.cons (.inl rfl) (.cons (.inl rfl) h.letters), fun i hi => ?_⟩
  match i with
  | 0 => exact ⟨rfl, rfl⟩
  | 1 => exact absurd hi.1 (by simp [L])
  | i + 2 =>
      rw [hasNewlineAt_succ, hasNewlineAt_succ] at hi ⊢
      exact h.newlines i hi

theorem DiffersInCase.cons {c c' : WChar} {stored expansion : List WChar}
    (hc : c' = c ∨ c' = upperChar mapper c) (hfirst : ¬ HasNewlineAt (c :: stored) 0)
    (h : DiffersInCase mapper stored expansion) :
    DiffersInCase mapper (c :: stored) (c' :: expansion) := by
  refine ⟨.cons hc h.letters, fun i hi => ?_⟩
  cases i with
  | zero => exact absurd hi hfirst
  | succ i =>
      rw [hasNewlineAt_succ] at hi ⊢
      exact h.newlines i hi

variable [WordBreaks]

variable (mapper) in
theorem capsChar_eq_or_upper (style : CapsStyle) (wordStart : Bool) (c : WChar) :
    (capsChar mapper style wordStart c).1 = c ∨
      (capsChar mapper style wordStart c).1 = upperChar mapper c := by
  unfold capsChar
  split_ifs
  · exact .inr rfl
  · exact .inl rfl
  · exact .inl rfl
  · exact .inr rfl
  · exact .inl rfl

theorem applyCapsFrom_differsInCase (style : CapsStyle) (wordStart : Bool) (text : List WChar) :
    DiffersInCase mapper text (applyCapsFrom mapper style wordStart text) := by
  fun_induction applyCapsFrom mapper style wordStart text with
  | case1 => exact .refl []
  | case2 wordStart c =>
      exact .cons (capsChar_eq_or_upper mapper style wordStart c)
        (fun h => by simp [HasNewlineAt] at h) (.refl [])
  | case3 wordStart c d rest htoken ih =>
      obtain ⟨rfl, rfl⟩ := htoken
      exact ih.newline
  | case4 wordStart c d rest htoken c' x hcaps =>
      have hc := capsChar_eq_or_upper mapper style wordStart c
      rw [hcaps] at hc
      exact .cons hc (fun h => htoken (by simpa [HasNewlineAt] using h)) (.refl _)
  | case5 wordStart c d rest htoken c' wordStart' hcaps ih =>
      have hc := capsChar_eq_or_upper mapper style wordStart c
      rw [hcaps] at hc
      exact .cons hc (fun h => htoken (by simpa [HasNewlineAt] using h)) ih

theorem applyCaps_differsInCase (style : CapsStyle) (text : List WChar) :
    DiffersInCase mapper text (applyCaps mapper style text) := by
  unfold applyCaps
  split_ifs
  · exact .refl text
  · exact applyCapsFrom_differsInCase style true text

end Case

/-! ## The planned expansion -/

theorem mem_of_lookup {table : MacroTable} {mapper : CaseMapper} {candidate : List WChar}
    {entry : List WChar × List WChar} (h : lookup table mapper candidate = some entry) :
    entry ∈ table.entries ∧ (entry.1 = candidate ∨ entry.1 = mapper.lower candidate) := by
  have hfind : ∀ {key : List WChar}, table.find key = some entry →
      entry ∈ table.entries ∧ entry.1 = key := fun hkey =>
    ⟨List.mem_of_find?_eq_some hkey, by simpa using List.find?_some hkey⟩
  rw [lookup, Option.or_eq_some_iff] at h
  rcases h with hexact | ⟨-, hlower⟩
  · exact ⟨(hfind hexact).1, .inl (hfind hexact).2⟩
  · exact ⟨(hfind hlower).1, .inr (hfind hlower).2⟩

/-- The key of a match is the one that was typed. -/
theorem PlanInputs.lookup_of_findMatch {input : PlanInputs} {mapper : CaseMapper} {found : Match}
    (h : input.findMatch mapper = some found) :
    lookup input.macroTable mapper found.typed = some found.entry := by
  unfold findMatch at h
  dsimp only at h
  split at h
  · next entry hraw =>
      obtain rfl := Option.some.inj h
      exact hraw
  · split at h
    · next entry hdrop =>
        obtain rfl := Option.some.inj h
        exact (Option.ite_none_right_eq_some.mp hdrop).2
    · split at h
      · simp at h
      split at h
      · next entry hwith =>
          obtain rfl := Option.some.inj h
          exact (Option.ite_none_right_eq_some.mp hwith).2
      · obtain ⟨entry, hentry, rfl⟩ := Option.map_eq_some_iff.mp h
        exact hentry

section Paths

variable [WordBreaks]

/-- Both paths deliver the same text where both are open: the clipboard is for the Unicode table
only, and any other table encodes the characters between the newline tokens.  The planned
expansion is the stored text of the key that was typed, in other letter case, with its newline
tokens in place, and unchanged if the key has a capital. -/
theorem macroPaths_agree (text : List WChar) (codeTable : CodeTable) (input : PlanInputs)
    (mapper : CaseMapper) :
    typedText (buildSegments text .unicode) = expandEscapesForClipboard text ∧
    expandEscapesForClipboard text = (tokens text).flatMap (Token.arrives fun c => [c]) ∧
    typedText (buildSegments text codeTable) =
      (tokens text).flatMap (Token.arrives fun c =>
        (CodeTableConverter.convertChar c codeTable).units) ∧
    ((plan input mapper).useClipboard = true → input.currentCodeTable = .unicode) ∧
    ((plan input mapper).matched = true →
      ∃ key stored, (key, stored) ∈ input.macroTable.entries ∧
        (key = (plan input mapper).shortcut ∨
          key = mapper.lower (plan input mapper).shortcut) ∧
        DiffersInCase mapper stored (plan input mapper).expansion ∧
        (hasUpper mapper key = true → (plan input mapper).expansion = stored)) := by
  refine ⟨typedText_buildSegments_unicode text, expandEscapesForClipboard_eq_tokens text, ?_, ?_,
    ?_⟩
  · have hunits : segmentUnits codeTable =
        fun c => (CodeTableConverter.convertChar c codeTable).units := by
      funext c
      cases codeTable <;> rfl
    rw [typedText_buildSegments, hunits]
  · unfold plan
    cases input.findMatch mapper with
    | none => simp
    | some found => simp +contextual
  · intro hmatched
    rw [matched_plan, Option.isSome_iff_exists] at hmatched
    obtain ⟨found, hfound⟩ := hmatched
    obtain ⟨hmem, hkey⟩ := mem_of_lookup (PlanInputs.lookup_of_findMatch hfound)
    refine ⟨found.entry.1, found.entry.2, hmem, ?_, ?_, ?_⟩
    · simpa only [plan, hfound] using hkey
    · simp only [plan, hfound]
      split_ifs
      · exact .refl _
      · exact applyCaps_differsInCase _ _
    · intro hupper
      simp only [plan, hfound, hupper, if_true]

end Paths

/-- The key `hn`, which stands for `ha\nn`, typed in capitals in front of a space. -/
def hnInputs : PlanInputs :=
  { rawMacroBuffer := [L 'H', L 'N']
    previousComposition := []
    previousEncodedWidths := []
    macroTable := ⟨[([L 'h', L 'n'], [L 'h', L 'a', L '\\', L 'n', L 'n'])], by simp⟩
    macroCrossCommit := false
    currentCodeTable := .unicode
    autoCapsEnabled := true
    triggerChar := L ' '
    clipboardThreshold := 200 }

/-- Small letters and capitals of ASCII. -/
def asciiMapper : CaseMapper :=
  ⟨List.map asciiUpper, List.map asciiLower, fun _ => List.length_map _, fun _ => List.length_map _⟩

/-- The expansion of `HN` is `HA\nN`. -/
theorem macroPaths_agree_hn :
    (plan hnInputs asciiMapper).expansion = [L 'H', L 'A', L '\\', L 'n', L 'N'] ∧
      ∃ key stored, (key, stored) ∈ hnInputs.macroTable.entries ∧
        (key = (plan hnInputs asciiMapper).shortcut ∨
          key = asciiMapper.lower (plan hnInputs asciiMapper).shortcut) ∧
        DiffersInCase asciiMapper stored (plan hnInputs asciiMapper).expansion ∧
        (hasUpper asciiMapper key = true →
          (plan hnInputs asciiMapper).expansion = stored) :=
  ⟨by decide, (macroPaths_agree [] .unicode hnInputs asciiMapper).2.2.2.2 (by decide)⟩

/-- In TCVN3 the segments of `á` hold another unit than the clipboard. -/
theorem not_typedText_eq_clipboard_tcvn3 :
    ¬ ∀ (text : List WChar) (codeTable : CodeTable),
      typedText (buildSegments text codeTable) = expandEscapesForClipboard text := by
  intro h
  exact absurd (h [L 'á'] .tcvn3) (by decide)

end VKey.Macro
