import Mathlib.Data.List.Dedup
import VKey.Lexicon.Admission

/-!
# The texts of both lists are parsed back

A word is written on a line of its own.  The line is read back, unless it starts a comment: the
validators accept such a word all the same.
-/

namespace VKey

namespace LexiconValidator

open SpellExclusionCanonicalizer

/-! ## Lines of scalars -/

/-- The trimmed lines that are neither blank nor comments. -/
def wordLines (isComment : Nat → Bool) (lines : List (List Nat)) : List (List Nat) :=
  (lines.map trimWhitespace).filter fun line => !(line.isEmpty || line.head?.any isComment)

theorem wordLines_append (isComment : Nat → Bool) (a b : List (List Nat)) :
    wordLines isComment (a ++ b) = wordLines isComment a ++ wordLines isComment b := by
  rw [wordLines, List.map_append, List.filter_append, wordLines, wordLines]

theorem mem_wordLines {isComment : Nat → Bool} {lines : List (List Nat)} {core : List Nat} :
    core ∈ wordLines isComment lines ↔
      ∃ line ∈ lines, trimWhitespace line = core ∧ core ≠ [] ∧
      core.head?.any isComment = false := by
  rw [wordLines, List.mem_filter, List.mem_map, Bool.not_eq_true', Bool.or_eq_false_iff,
    List.isEmpty_eq_false_iff]
  constructor
  · rintro ⟨⟨line, hline, hcore⟩, hrest⟩
    exact ⟨line, hline, hcore, hrest⟩
  · rintro ⟨line, hline, hcore, hrest⟩
    exact ⟨⟨line, hline, hcore⟩, hrest⟩

theorem wordLines_congr {isComment : Nat → Bool} {a b : List Nat}
    (h : trimWhitespace a = trimWhitespace b) :
    wordLines isComment [a] = wordLines isComment [b] := by
  rw [wordLines, wordLines, List.map_singleton, List.map_singleton, h]

theorem wordLines_blank (isComment : Nat → Bool) (line : List Nat)
    (h : ∀ cp ∈ line, isUnicodeWhitespace cp = true) : wordLines isComment [line] = [] := by
  have htrim : trimWhitespace line = [] := by
    rw [← List.append_nil line, trimWhitespace_append_left h]
    rfl
  rw [wordLines, List.map_singleton, htrim]
  rfl

/-- The lines of scalars. -/
abbrev splitScalars : List Nat → List Nat → List (List Nat) × List Nat := splitLinesFrom 0x0D 0x0A

theorem splitScalars_append (line a b : List Nat) :
    splitScalars line (a ++ b) =
      ((splitScalars line a).1 ++ (splitScalars (splitScalars line a).2 b).1,
        (splitScalars (splitScalars line a).2 b).2) :=
  splitLinesFrom_append 0x0D 0x0A line a b

/-- White space behind a line may end it, but adds no word. -/
theorem wordLines_splitScalars_space (isComment : Nat → Bool) (line : List Nat) {space : List Nat}
    (h : ∀ cp ∈ space, isUnicodeWhitespace cp = true) :
    wordLines isComment ((splitScalars line space).1 ++ [(splitScalars line space).2]) =
      wordLines isComment [line] := by
  induction space generalizing line with
  | nil => rfl
  | cons cp space ih =>
      obtain ⟨hcp, hspace⟩ := List.forall_mem_cons.mp h
      rw [splitScalars, splitLinesFrom_cons]
      split_ifs
      · exact ih line hspace
      · have hrest := ih [] hspace
        have hnil : wordLines isComment [[]] = [] := rfl
        rw [hnil] at hrest
        change wordLines isComment ([line] ++ (_ ++ _)) = _
        rw [wordLines_append, hrest, List.append_nil]
      · rw [ih _ hspace]
        apply wordLines_congr
        exact trimWhitespace_append_right (by simpa using hcp) line

theorem splitScalars_space_snd (line : List Nat) {space : List Nat}
    (hline : ∀ cp ∈ line, isUnicodeWhitespace cp = true)
    (h : ∀ cp ∈ space, isUnicodeWhitespace cp = true) :
    ∀ cp ∈ (splitScalars line space).2, isUnicodeWhitespace cp = true := by
  induction space generalizing line with
  | nil => exact hline
  | cons cp space ih =>
      obtain ⟨hcp, hspace⟩ := List.forall_mem_cons.mp h
      rw [splitScalars, splitLinesFrom_cons]
      split_ifs
      · exact ih line hline hspace
      · exact ih [] (by simp) hspace
      · apply ih _ _ hspace
        intro c hc
        rcases List.mem_append.mp hc with hc | hc
        · exact hline c hc
        · rw [List.mem_singleton.mp hc]
          exact hcp

theorem splitScalars_core {line core : List Nat}
    (h : ∀ cp ∈ core, isUnicodeWhitespace cp = false) :
    splitScalars line core = ([], line ++ core) := by
  induction core generalizing line with
  | nil => simp [splitScalars, splitLinesFrom]
  | cons cp core ih =>
      obtain ⟨hcp, hcore⟩ := List.forall_mem_cons.mp h
      have hreturn : cp ≠ 0x0D := by
        rintro rfl
        cases hcp
      have hfeed : cp ≠ 0x0A := by
        rintro rfl
        cases hcp
      rw [splitScalars, splitLinesFrom_cons, if_neg hreturn, if_neg hfeed, ← splitScalars, ih hcore,
        List.append_assoc]
      rfl

/-- The line of a word is read as its trimmed text. -/
theorem wordLines_splitScalars_word (isComment : Nat → Bool) {word : List Nat}
    (h : ∀ cp ∈ trimWhitespace word, isUnicodeWhitespace cp = false) (rest : List Nat) :
    ∃ lines, wordLines isComment lines = wordLines isComment [word] ∧
      splitScalars [] (word ++ 0x0A :: rest) =
        (lines ++ (splitScalars [] rest).1, (splitScalars [] rest).2) := by
  obtain ⟨before, after, hword, hbefore, hafter⟩ := exists_append_trimWhitespace word
  generalize hcore : trimWhitespace word = core at hword h
  have hblank := wordLines_splitScalars_space isComment [] hbefore
  have hspace := splitScalars_space_snd [] (by simp) hbefore
  cases hfirst : splitScalars [] before with
  | mk first begun =>
      rw [hfirst] at hblank hspace
      have hlast := wordLines_splitScalars_space isComment (begun ++ core) hafter
      rw [wordLines_append, wordLines_blank isComment _ hspace, List.append_nil,
        wordLines_blank isComment [] (by simp)] at hblank
      cases hsecond : splitScalars (begun ++ core) after with
      | mk second last =>
          rw [hsecond] at hlast
          refine ⟨first ++ (second ++ [last]), ?_, ?_⟩
          · rw [wordLines_append, hblank, List.nil_append, hlast]
            apply wordLines_congr
            rw [trimWhitespace_append_left hspace, ← hcore, trimWhitespace_trimWhitespace]
          · have hend : splitScalars last (0x0A :: rest) =
                (last :: (splitScalars [] rest).1, (splitScalars [] rest).2) := rfl
            have hbegin := splitScalars_append [] before (core ++ (after ++ 0x0A :: rest))
            have hmiddle := splitScalars_append begun core (after ++ 0x0A :: rest)
            have hafterEnd := splitScalars_append (begun ++ core) after (0x0A :: rest)
            rw [hsecond, hend] at hafterEnd
            rw [splitScalars_core h, hafterEnd] at hmiddle
            rw [hfirst, hmiddle] at hbegin
            rw [hword, List.append_assoc, List.append_assoc, hbegin]
            simp

/-- Lines of words are read as the trimmed words. -/
theorem wordLines_splitScalars_joinLines (isComment : Nat → Bool) (words : List (List Nat))
    (h : ∀ word ∈ words, ∀ cp ∈ trimWhitespace word, isUnicodeWhitespace cp = false) :
    ∃ lines, wordLines isComment lines = wordLines isComment words ∧
      splitScalars [] (joinLines 0x0A words) = (lines, []) := by
  induction words with
  | nil => exact ⟨[], rfl, rfl⟩
  | cons word words ih =>
      obtain ⟨hword, hwords⟩ := List.forall_mem_cons.mp h
      obtain ⟨rest, hrest, hsplit⟩ := ih hwords
      obtain ⟨lines, hlines, hfirst⟩ :=
        wordLines_splitScalars_word isComment hword (joinLines 0x0A words)
      refine ⟨lines ++ rest, ?_, ?_⟩
      · rw [wordLines_append, hlines, hrest, ← wordLines_append, List.singleton_append]
      · rw [joinLines_cons, hfirst, hsplit]

/-! ## Encoded lines -/

theorem isScalar_of_mem_splitLinesFrom (line : List Nat) {text : List Nat}
    (hline : ∀ cp ∈ line, isScalar cp = true) (htext : ∀ cp ∈ text, isScalar cp = true) :
    ∀ l ∈ (splitScalars line text).1, ∀ cp ∈ l, isScalar cp = true := by
  induction text generalizing line with
  | nil => simp [splitScalars, splitLinesFrom]
  | cons cp text ih =>
      obtain ⟨hcp, hrest⟩ := List.forall_mem_cons.mp htext
      rw [splitScalars, splitLinesFrom_cons]
      split_ifs
      · exact ih _ hline hrest
      · exact List.forall_mem_cons.mpr ⟨hline, ih _ (by simp) hrest⟩
      · apply ih _ _ hrest
        intro c hc
        rcases List.mem_append.mp hc with hc | hc
        · exact hline c hc
        · rw [List.mem_singleton.mp hc]
          exact hcp

/-- The lines of a text that ends with a line feed, up to a blank line at the end. -/
theorem splitLines_encode {text : List Nat} (hscalar : ∀ cp ∈ text, isScalar cp = true)
    {lines : List (List Nat)} (hsplit : splitScalars [] text = (lines, [])) :
    ∃ blank : List (List Nat), (blank = [] ∨ blank = [[]]) ∧
      splitLines (text.flatMap encodeUtf8) = (lines ++ blank).map (·.flatMap encodeUtf8) := by
  have hencode : splitLinesFrom 0x0D 0x0A [] (text.flatMap encodeUtf8) =
      (lines.map (·.flatMap encodeUtf8), []) := by
    have hflat : splitLinesFrom 0x0D 0x0A [] (text.flatMap encodeUtf8) =
        ((splitLinesFrom 0x0D 0x0A [] text).1.map (·.flatMap encodeUtf8),
          (splitLinesFrom 0x0D 0x0A [] text).2.flatMap encodeUtf8) :=
      @splitLinesFrom_flatMap _ _ _ _ encodeUtf8 0x0D 0x0A 0x0D 0x0A (by decide) rfl rfl [] text
        fun cp hcp => ⟨fun hmem => eq_of_mem_encodeUtf8 (hscalar cp hcp) hmem (by decide),
          fun hmem => eq_of_mem_encodeUtf8 (hscalar cp hcp) hmem (by decide)⟩
    rw [← splitScalars, hsplit] at hflat
    exact hflat
  unfold splitLines
  rw [hencode]
  dsimp only
  split_ifs
  · exact ⟨[[]], Or.inr rfl, by simp⟩
  · exact ⟨[], Or.inl rfl, by simp⟩

variable {validate : List Char16 → Nat → Except LexiconError (List Char16)}

/-- The normal forms of the accepted words. -/
def normalForms (validate : List Char16 → Nat → Except LexiconError (List Char16))
    (words : List (List Char16)) : List (List Char16) :=
  words.filterMap fun word => (validate word 0).toOption

theorem toOption_eq_some {value : Except LexiconError (List Char16)} {word : List Char16} :
    value.toOption = some word ↔ value = .ok word := by
  cases value <;> simp [Except.toOption]

theorem mem_normalForms {words : List (List Char16)} {normal : List Char16} :
    normal ∈ normalForms validate words ↔ ∃ word ∈ words, validate word 0 = .ok normal := by
  rw [normalForms, List.mem_filterMap]
  simp only [toOption_eq_some]

/-- Parsing gives the normal forms of the lines that hold a word, if all of them are accepted. -/
theorem parseLines_encode (isComment : Nat → Bool) {lines : List (List Nat)}
    (hscalar : ∀ line ∈ lines, ∀ cp ∈ line, isScalar cp = true)
    (hvalid : ∀ core ∈ wordLines isComment lines,
      ∃ normal, ∀ lineNum, validate (core.flatMap encodeScalar) lineNum = .ok normal)
    (lineNum : Nat) :
    parseLines isComment validate lineNum (lines.map (·.flatMap encodeUtf8)) =
      .ok (normalForms validate ((wordLines isComment lines).map (·.flatMap encodeScalar))) := by
  induction lines generalizing lineNum with
  | nil => rfl
  | cons line lines ih =>
      obtain ⟨hline, hlines⟩ := List.forall_mem_cons.mp hscalar
      have hsplit : wordLines isComment (line :: lines) =
          wordLines isComment [line] ++ wordLines isComment lines :=
        wordLines_append isComment [line] lines
      rw [hsplit] at hvalid ⊢
      have hrest := ih hlines (fun core hcore => hvalid core (List.mem_append_right _ hcore))
        (lineNum + 1)
      rw [List.map_cons, parseLines, utf8ToUtf32_flatMap_encodeUtf8 hline]
      dsimp only [orError, bind, Except.bind]
      have htrim : ∀ cp ∈ trimWhitespace line, isScalar cp = true := fun cp hcp =>
        hline cp ((trimWhitespace_sublist line).subset hcp)
      have hencode : utf32ToUtf16 (trimWhitespace line) =
          some ((trimWhitespace line).flatMap encodeScalar) :=
        utf32ToUtf16_eq_some.mpr (decodeUtf16_eq_some.mpr ⟨htrim, rfl⟩)
      cases hskip : (trimWhitespace line).isEmpty || (trimWhitespace line).head?.any isComment with
      | true =>
          have hnone : wordLines isComment [line] = [] := by
            rw [wordLines, List.map_singleton, List.filter_cons, hskip]
            rfl
          rw [if_pos rfl, hrest, hnone, List.nil_append]
      | false =>
          have hone : wordLines isComment [line] = [trimWhitespace line] := by
            rw [wordLines, List.map_singleton, List.filter_cons, hskip]
            rfl
          obtain ⟨normal, hnormal⟩ := hvalid (trimWhitespace line) (by simp [hone])
          rw [if_neg Bool.false_ne_true, hencode]
          dsimp only
          rw [hnormal lineNum]
          dsimp only
          rw [hrest, hone]
          simp [normalForms, hnormal, Except.toOption, pure, Except.pure]

/-! ## Texts of accepted words -/

/-- The scalars of a header. -/
def headerScalars (header : String) : List Nat := header.toList.map Char.toNat

/-- A header consists of ASCII characters, and its lines are comments. -/
structure IsHeader (isComment : Nat → Bool) (header : String) : Prop where
  ascii : ∀ cp ∈ headerScalars header, cp < 0x80
  bytes : asciiBytes header = (headerScalars header).flatMap encodeUtf8
  ended : (splitScalars [] (headerScalars header)).2 = []
  comments : wordLines isComment (splitScalars [] (headerScalars header)).1 = []

/-- A validator that looks at nothing but the trimmed word, which has no white space, and gives a
word that can be encoded. -/
structure ReadsTrimmed (validate : List Char16 → Nat → Except LexiconError (List Char16)) :
    Prop where
  spec : ∀ {word normal}, validate word 0 = .ok normal →
    ∃ scalars, decodeUtf16 word = some scalars ∧
    trimWhitespace scalars ≠ [] ∧
    (∀ cp ∈ trimWhitespace scalars, isUnicodeWhitespace cp = false) ∧
    ∀ lineNum, validate ((trimWhitespace scalars).flatMap encodeScalar) lineNum = .ok normal
  decodable : ∀ {word normal}, validate word 0 = .ok normal →
    ∃ scalars, decodeUtf16 normal = some scalars

/-- The trimmed word starts a comment. -/
def startsComment (isComment : Nat → Bool) (word : List Char16) : Bool :=
  (trimWhitespace (utf16ToUtf32 word).1).head?.any isComment

theorem utf8Of_eq (word : List Char16) :
    utf8Of word = (utf16ToUtf32 word).1.flatMap encodeUtf8 := by
  rw [utf8Of, utf32ToUtf8_eq isScalar_of_mem_utf16ToUtf32]

theorem isScalar_of_isHeader {isComment : Nat → Bool} {header : String}
    (hheader : IsHeader isComment header) : ∀ cp ∈ headerScalars header, isScalar cp = true := by
  intro cp hcp
  have hascii := hheader.ascii cp hcp
  rw [isScalar_iff]
  omega

/-- A text is read as its trimmed words. -/
theorem splitLines_formatText {isComment : Nat → Bool} {header : String}
    (hheader : IsHeader isComment header) {words : List (List Char16)}
    (hclean : ∀ word ∈ words, ∀ cp ∈ trimWhitespace (utf16ToUtf32 word).1,
      isUnicodeWhitespace cp = false) :
    ∃ lines, (∀ line ∈ lines, ∀ cp ∈ line, isScalar cp = true) ∧
      wordLines isComment lines =
        wordLines isComment (words.map fun word => (utf16ToUtf32 word).1) ∧
      splitLines (formatText header words) = lines.map (·.flatMap encodeUtf8) := by
  generalize hdecoded : (words.map fun word => (utf16ToUtf32 word).1) = decoded
  obtain ⟨body, hbody, hsplit⟩ := wordLines_splitScalars_joinLines isComment decoded <| by
    rw [← hdecoded]
    exact List.forall_mem_map.mpr hclean
  generalize htext : headerScalars header ++ joinLines 0x0A decoded = text
  have hscalar : ∀ cp ∈ text, isScalar cp = true := by
    intro cp hcp
    rw [← htext] at hcp
    rcases List.mem_append.mp hcp with hcp | hcp
    · exact isScalar_of_isHeader hheader cp hcp
    · rcases mem_joinLines hcp with rfl | ⟨line, hline, hcp⟩
      · rfl
      · rw [← hdecoded] at hline
        obtain ⟨word, -, rfl⟩ := List.mem_map.mp hline
        exact isScalar_of_mem_utf16ToUtf32 cp hcp
  have hformat : formatText header words = text.flatMap encodeUtf8 := by
    have hutf8 : words.map utf8Of = decoded.map (·.flatMap encodeUtf8) := by
      rw [← hdecoded, List.map_map]
      exact List.map_congr_left fun word _ => utf8Of_eq word
    rw [formatText, hheader.bytes, hutf8, joinLines_map_flatMap 0x0A rfl,
      ← List.flatMap_append, htext]
  have hlines : splitScalars [] text =
      ((splitScalars [] (headerScalars header)).1 ++ body, []) := by
    rw [← htext, splitScalars_append, hheader.ended, hsplit]
  obtain ⟨blank, hblank, hencode⟩ := splitLines_encode hscalar hlines
  refine ⟨_, ?_, ?_, hformat ▸ hencode⟩
  · intro line hline
    rcases List.mem_append.mp hline with hline | hline
    · have hall := isScalar_of_mem_splitLinesFrom [] (by simp) hscalar
      rw [hlines] at hall
      exact hall line hline
    · rcases hblank with rfl | rfl
      · cases hline
      · rw [List.mem_singleton.mp hline]
        simp
  · have hnone : wordLines isComment blank = [] := by
      rcases hblank with rfl | rfl <;> rfl
    rw [wordLines_append, wordLines_append, hheader.comments, hnone, List.nil_append,
      List.append_nil, hbody]

/-- The text of accepted words is parsed as the normal forms of those that start no comment. -/
theorem parseLines_formatText {isComment : Nat → Bool} {header : String}
    (hheader : IsHeader isComment header) (hvalidate : ReadsTrimmed validate)
    {words : List (List Char16)} (hwords : ∀ word ∈ words, ∃ normal, validate word 0 = .ok normal) :
    ∃ parsed,
      parseLines isComment validate 1 (splitLines (formatText header words)) = .ok parsed ∧
        ∀ normal, normal ∈ parsed ↔
          ∃ word ∈ words, startsComment isComment word = false ∧ validate word 0 = .ok normal := by
  have hword : ∀ word ∈ words, ∃ normal, validate word 0 = .ok normal ∧
      trimWhitespace (utf16ToUtf32 word).1 ≠ [] ∧
      (∀ cp ∈ trimWhitespace (utf16ToUtf32 word).1, isUnicodeWhitespace cp = false) ∧
      ∀ lineNum, validate ((trimWhitespace (utf16ToUtf32 word).1).flatMap encodeScalar) lineNum =
        .ok normal := by
    intro word hmem
    obtain ⟨normal, hnormal⟩ := hwords word hmem
    obtain ⟨scalars, hscalars, hspec⟩ := hvalidate.spec hnormal
    rw [fst_utf16ToUtf32 hscalars]
    exact ⟨normal, hnormal, hspec⟩
  obtain ⟨lines, hscalar, hlines, hsplit⟩ := splitLines_formatText hheader
    fun word hmem => (hword word hmem).choose_spec.2.2.1
  have hcore : ∀ core, core ∈ wordLines isComment lines ↔ ∃ word ∈ words,
      startsComment isComment word = false ∧ trimWhitespace (utf16ToUtf32 word).1 = core := by
    intro core
    rw [hlines, mem_wordLines]
    constructor
    · rintro ⟨line, hline, rfl, -, hcomment⟩
      obtain ⟨word, hmem, rfl⟩ := List.mem_map.mp hline
      exact ⟨word, hmem, hcomment, rfl⟩
    · rintro ⟨word, hmem, hcomment, rfl⟩
      obtain ⟨normal, -, hne, -⟩ := hword word hmem
      exact ⟨_, List.mem_map_of_mem hmem, rfl, hne, hcomment⟩
  refine ⟨normalForms validate ((wordLines isComment lines).map (·.flatMap encodeScalar)), ?_, ?_⟩
  · rw [hsplit]
    apply parseLines_encode isComment hscalar
    intro core hline
    obtain ⟨word, hmem, -, rfl⟩ := (hcore core).mp hline
    obtain ⟨normal, -, -, -, hall⟩ := hword word hmem
    exact ⟨normal, hall⟩
  · intro normal
    rw [mem_normalForms]
    constructor
    · rintro ⟨units, hunits, hnormal⟩
      obtain ⟨core, hline, rfl⟩ := List.mem_map.mp hunits
      obtain ⟨word, hmem, hcomment, rfl⟩ := (hcore core).mp hline
      obtain ⟨normal', hnormal', -, -, hall⟩ := hword word hmem
      rw [hall 0] at hnormal
      exact ⟨word, hmem, hcomment, hnormal'.trans hnormal⟩
    · rintro ⟨word, hmem, hcomment, hnormal⟩
      obtain ⟨normal', hnormal', -, -, hall⟩ := hword word hmem
      refine ⟨_, List.mem_map_of_mem ((hcore _).mpr ⟨word, hmem, hcomment, rfl⟩), ?_⟩
      rw [hall 0, ← hnormal', hnormal]

/-! ## Lists -/

theorem appendNew_cons (combined : List (List Char16)) (word : List Char16)
    (words : List (List Char16)) :
    (appendNew combined (word :: words)).1 =
      if word ∈ combined then (appendNew combined words).1
      else (appendNew (combined ++ [word]) words).1 := by
  have hfold : ∀ (words : List (List Char16)) (combined : List (List Char16)) (counts : Nat × Nat),
      (words.foldl
        (fun state word =>
          if state.1.contains word then (state.1, state.2.1, state.2.2 + 1)
          else (state.1 ++ [word], state.2.1 + 1, state.2.2))
        (combined, counts)).1 = (appendNew combined words).1 := by
    intro words
    induction words with
    | nil => exact fun _ _ => rfl
    | cons word words ih =>
        intro combined counts
        rw [appendNew, List.foldl_cons, List.foldl_cons]
        dsimp only
        split_ifs
        · rw [ih, ih]
        · rw [ih, ih]
  rw [appendNew, List.foldl_cons]
  dsimp only
  rw [hfold]
  simp only [List.contains_iff_mem]
  split_ifs <;> rfl

theorem mem_appendNew {combined words : List (List Char16)} {word : List Char16} :
    word ∈ (appendNew combined words).1 ↔ word ∈ combined ∨ word ∈ words := by
  induction words generalizing combined with
  | nil => simp [appendNew]
  | cons first words ih =>
      rw [appendNew_cons]
      split_ifs with hmem
      · rw [ih, List.mem_cons]
        constructor
        · rintro (h | h)
          · exact Or.inl h
          · exact Or.inr (Or.inr h)
        · rintro (h | rfl | h)
          · exact Or.inl h
          · exact Or.inl hmem
          · exact Or.inr h
      · rw [ih, List.mem_append, List.mem_singleton, List.mem_cons, or_assoc]

theorem nodup_appendNew {combined words : List (List Char16)} (h : combined.Nodup) :
    (appendNew combined words).1.Nodup := by
  induction words generalizing combined with
  | nil => exact h
  | cons first words ih =>
      rw [appendNew_cons]
      split_ifs with hmem
      · exact ih h
      · apply ih
        rw [List.nodup_append]
        refine ⟨h, List.nodup_singleton _, ?_⟩
        rintro a ha b hb rfl
        exact hmem (List.mem_singleton.mp hb ▸ ha)

theorem totalUtf16_eq (words : List (List Char16)) : totalUtf16 words = words.flatten.length := by
  have hfold : ∀ (words : List (List Char16)) (total : Nat),
      words.foldl (fun total word => total + word.length) total =
        total + words.flatten.length := by
    intro words
    induction words with
    | nil => exact fun _ => rfl
    | cons word words ih =>
        intro total
        rw [List.foldl_cons, ih, List.flatten_cons, List.length_append, Nat.add_assoc]
  rw [totalUtf16, hfold, Nat.zero_add]

/-- The words are increasing in UTF-8, each of them once. -/
def SortedWords (entries words : List (List Char16)) : Prop :=
  (entries.Pairwise fun a b => compare (utf8Of a) (utf8Of b) = .lt) ∧
    ∀ word, word ∈ entries ↔ word ∈ words

theorem utf8Of_injOn {a b : List Char16} {sa sb : List Nat} (ha : decodeUtf16 a = some sa)
    (hb : decodeUtf16 b = some sb) (h : utf8Of a = utf8Of b) : a = b := by
  rw [utf8Of_eq, utf8Of_eq, fst_utf16ToUtf32 ha, fst_utf16ToUtf32 hb] at h
  have hscalars := utf8ToUtf32_flatMap_encodeUtf8 (decodeUtf16_eq_some.mp ha).1
  rw [h, utf8ToUtf32_flatMap_encodeUtf8 (decodeUtf16_eq_some.mp hb).1] at hscalars
  rw [← (decodeUtf16_eq_some.mp ha).2, ← (decodeUtf16_eq_some.mp hb).2, Option.some.inj hscalars]

/-- Words that can be encoded are sorted into an increasing list. -/
theorem sortedWords_mergeSort {words : List (List Char16)} (hnodup : words.Nodup)
    (hdecode : ∀ word ∈ words, ∃ scalars, decodeUtf16 word = some scalars) :
    SortedWords (words.mergeSort fun a b => (compare (utf8Of a) (utf8Of b)).isLE) words := by
  have hperm := List.mergeSort_perm words fun a b => (compare (utf8Of a) (utf8Of b)).isLE
  refine ⟨?_, fun word => hperm.mem_iff⟩
  have hsorted := @List.pairwise_mergeSort (List Char16)
    (fun a b => (compare (utf8Of a) (utf8Of b)).isLE)
    (fun _ _ _ => Std.TransCmp.isLE_trans)
    (fun a b => by
      have hswap : compare (utf8Of b) (utf8Of a) = (compare (utf8Of a) (utf8Of b)).swap :=
        Std.OrientedCmp.eq_swap
      rw [hswap]
      cases compare (utf8Of a) (utf8Of b) <;> rfl)
    words
  refine (hsorted.and (hperm.nodup_iff.mpr hnodup)).imp_of_mem ?_
  rintro a b hamem hbmem ⟨hle, hne⟩
  cases hcmp : compare (utf8Of a) (utf8Of b) with
  | lt => rfl
  | eq =>
      obtain ⟨sa, hsa⟩ := hdecode a (hperm.mem_iff.mp hamem)
      obtain ⟨sb, hsb⟩ := hdecode b (hperm.mem_iff.mp hbmem)
      exact absurd (utf8Of_injOn hsa hsb (Std.LawfulEqCmp.eq_of_compare hcmp)) hne
  | gt =>
      rw [hcmp] at hle
      cases hle

/-- Parsing succeeds and gives the words, sorted and each of them once. -/
def Returns (parsed : Except LexiconError LexiconImport) (words : List (List Char16)) : Prop :=
  ∃ result, parsed = .ok result ∧ SortedWords result.entries words

/-- Every word whose line is a comment has the normal form of one whose line is none. -/
def HidesNothing (isComment : Nat → Bool)
    (validate : List Char16 → Nat → Except LexiconError (List Char16))
    (words : List (List Char16)) : Prop :=
  ∀ word ∈ words, startsComment isComment word = true →
    ∃ other ∈ words, startsComment isComment other = false ∧ validate other 0 = validate word 0

theorem mem_parsed_iff_hidesNothing {isComment : Nat → Bool} {words parsed : List (List Char16)}
    (hwords : ∀ word ∈ words, ∃ normal, validate word 0 = .ok normal)
    (hparsed : ∀ normal, normal ∈ parsed ↔
      ∃ word ∈ words, startsComment isComment word = false ∧ validate word 0 = .ok normal) :
    (∀ normal, normal ∈ parsed ↔ normal ∈ normalForms validate words) ↔
      HidesNothing isComment validate words := by
  constructor
  · intro hall word hmem hcomment
    obtain ⟨normal, hnormal⟩ := hwords word hmem
    obtain ⟨other, hother, hplain, hsame⟩ := (hparsed normal).mp
      ((hall normal).mpr (mem_normalForms.mpr ⟨word, hmem, hnormal⟩))
    exact ⟨other, hother, hplain, hsame.trans hnormal.symm⟩
  · intro hhides normal
    rw [hparsed, mem_normalForms]
    constructor
    · rintro ⟨word, hmem, -, hnormal⟩
      exact ⟨word, hmem, hnormal⟩
    · rintro ⟨word, hmem, hnormal⟩
      cases hcomment : startsComment isComment word with
      | false => exact ⟨word, hmem, hcomment, hnormal⟩
      | true =>
          obtain ⟨other, hother, hplain, hsame⟩ := hhides word hmem hcomment
          exact ⟨other, hother, hplain, hsame.trans hnormal⟩

/-- A parser returns all the normal forms exactly if no line hides one, as long as it returns the
ones it reads and there are not too many. -/
theorem returns_iff_hidesNothing {isComment : Nat → Bool} {words parsed : List (List Char16)}
    {result : Except LexiconError LexiconImport}
    (hwords : ∀ word ∈ words, ∃ normal, validate word 0 = .ok normal)
    (hparsed : ∀ normal, normal ∈ parsed ↔
      ∃ word ∈ words, startsComment isComment word = false ∧ validate word 0 = .ok normal)
    (hsorted : ∀ imported, result = .ok imported → SortedWords imported.entries parsed)
    (hok : (appendNew [] parsed).1.Perm (normalForms validate words).dedup →
      ∃ imported, result = .ok imported) :
    Returns result (normalForms validate words) ↔ HidesNothing isComment validate words := by
  rw [← mem_parsed_iff_hidesNothing hwords hparsed]
  constructor
  · rintro ⟨imported, himported, hentries⟩ normal
    rw [← (hsorted imported himported).2, hentries.2]
  · intro hall
    have hperm : (appendNew [] parsed).1.Perm (normalForms validate words).dedup := by
      apply (List.perm_ext_iff_of_nodup (nodup_appendNew List.nodup_nil) (List.nodup_dedup _)).mpr
      intro word
      rw [mem_appendNew, List.mem_dedup, ← hall]
      simp
    obtain ⟨imported, himported⟩ := hok hperm
    obtain ⟨hincreasing, hmem⟩ := hsorted imported himported
    exact ⟨imported, himported, hincreasing, fun word => (hmem word).trans (hall word)⟩

/-! ## The user dictionary -/

theorem isHeader_userDict :
    IsHeader isUserDictComment "# VKey User Dictionary\n# One word per line\n" where
  ascii := by decide
  bytes := by decide
  ended := by decide
  comments := by decide

variable [UnicodePlatform]

theorem readsTrimmed_validateUserDictWord : ReadsTrimmed validateUserDictWord where
  spec := by
    intro word normal hnormal
    obtain ⟨scalars, hscalars, haccepted⟩ := validateUserDictWord_eq_ok.mp hnormal
    have hspace : ∀ cp ∈ trimWhitespace scalars, isUnicodeWhitespace cp = false := fun cp hcp =>
      isUnicodeWhitespace_of_faultless (haccepted.faultless cp hcp)
    refine ⟨scalars, hscalars, haccepted.nonempty, hspace, ?_⟩
    intro lineNum
    rw [validateUserDictWord_eq_ok]
    refine ⟨trimWhitespace scalars, decodeUtf16_eq_some.mpr ⟨?_, rfl⟩, ?_⟩
    · intro cp hcp
      exact (decodeUtf16_eq_some.mp hscalars).1 cp ((trimWhitespace_sublist scalars).subset hcp)
    · rw [trimWhitespace_trimWhitespace]
      exact haccepted
  decodable := by
    intro word normal hnormal
    obtain ⟨scalars, -, haccepted⟩ := validateUserDictWord_eq_ok.mp hnormal
    obtain ⟨final, hfinal, -⟩ := haccepted.final
    exact ⟨final, hfinal⟩

theorem userDict_returns_iff {words : List (List Char16)}
    (hwords : ∀ word ∈ words, ∃ normal, validateUserDictWord word 0 = .ok normal)
    (hcount : (normalForms validateUserDictWord words).dedup.length ≤ kMaxUserDictEntries)
    (hunits : totalUtf16 (normalForms validateUserDictWord words).dedup ≤ kMaxUserDictUtf16Units) :
    Returns (parseAndValidateUserDictText (formatUserDictText words) [] false)
        (normalForms validateUserDictWord words) ↔
      HidesNothing isUserDictComment validateUserDictWord words := by
  obtain ⟨parsed, hparse, hparsed⟩ :=
    parseLines_formatText isHeader_userDict readsTrimmed_validateUserDictWord hwords
  have hdecode : ∀ word ∈ (appendNew [] parsed).1, ∃ scalars, decodeUtf16 word = some scalars := by
    intro word hmem
    rcases mem_appendNew.mp hmem with hnil | hmem
    · cases hnil
    · obtain ⟨source, -, -, hnormal⟩ := (hparsed word).mp hmem
      exact readsTrimmed_validateUserDictWord.decodable hnormal
  have hnil : (appendNew [] []).1 = [] := rfl
  have hparseText : parseAndValidateUserDictText (formatUserDictText words) [] false = _ :=
    congrArg (· >>= _) hparse
  dsimp only [bind, Except.bind] at hparseText
  rw [if_neg Bool.false_ne_true, hnil] at hparseText
  rw [hparseText]
  refine returns_iff_hidesNothing hwords hparsed ?_ ?_
  · intro imported himported
    split_ifs at himported
    obtain rfl := Except.ok.inj himported
    have hsorted := sortedWords_mergeSort (nodup_appendNew List.nodup_nil) hdecode
    refine ⟨hsorted.1, fun word => (hsorted.2 word).trans ?_⟩
    rw [mem_appendNew]
    simp
  · intro hperm
    rw [← hperm.length_eq] at hcount
    rw [totalUtf16_eq, ← hperm.flatten.length_eq, ← totalUtf16_eq] at hunits
    rw [if_neg (Nat.not_lt.mpr hcount), if_neg (Nat.not_lt.mpr hunits)]
    exact ⟨_, rfl⟩

/-! ## Spell exclusions -/

/-- A normal form is its own normal form. -/
def NormalizationIdempotent : Prop :=
  ∀ units normal, normalizeUtf16 units = some normal → normalizeUtf16 normal = some normal

/-- White space is normalized to white space. -/
def NormalizationKeepsWhitespace : Prop :=
  ∀ units normal scalars final, normalizeUtf16 units = some normal →
    decodeUtf16 units = some scalars → decodeUtf16 normal = some final →
      (∃ cp ∈ scalars, isUnicodeWhitespace cp = true) → ∃ cp ∈ final, isUnicodeWhitespace cp = true

omit [UnicodePlatform] in
theorem isHeader_exclusions : IsHeader isExclusionComment
    "# VKey Spell Exclusions\n# One exclusion prefix per line (max 8)\n" where
  ascii := by decide
  bytes := by decide
  ended := by decide
  comments := by decide

theorem readsTrimmed_validateSpellExclusionWord (hspace : NormalizationKeepsWhitespace) :
    ReadsTrimmed validateSpellExclusionWord where
  spec := by
    intro word normal hnormal
    obtain ⟨scalars, hscalars, item, hitem, hadmissible, rfl⟩ :=
      validateSpellExclusionWord_eq_ok.mp hnormal
    have htrim : decodeUtf16 ((trimWhitespace scalars).flatMap encodeScalar) =
        some (trimWhitespace scalars) :=
      decodeUtf16_eq_some.mpr ⟨fun cp hcp => (decodeUtf16_eq_some.mp hscalars).1 cp
        ((trimWhitespace_sublist scalars).subset hcp), rfl⟩
    refine ⟨scalars, hscalars, ?_, ?_, ?_⟩
    · intro hnil
      rw [hnil] at hitem
      have hempty : item.utf16 = [] := (Option.some.inj hitem).symm
      have hdecode := item.decodeUtf16_utf16
      rw [hempty] at hdecode
      have hmin := hadmissible.min
      rw [← Option.some.inj hdecode] at hmin
      cases hmin
    · intro cp hcp
      by_contra hwhite
      rw [Bool.not_eq_false] at hwhite
      obtain ⟨cp', hcp', hwhite'⟩ :=
        hspace _ _ _ _ hitem htrim item.decodeUtf16_utf16 ⟨cp, hcp, hwhite⟩
      rw [hadmissible.whitespace cp' hcp'] at hwhite'
      cases hwhite'
    · intro lineNum
      rw [validateSpellExclusionWord_eq_ok]
      refine ⟨trimWhitespace scalars, htrim, item, ?_, hadmissible, rfl⟩
      rw [trimWhitespace_trimWhitespace]
      exact hitem
  decodable := by
    intro word normal hnormal
    obtain ⟨scalars, -, item, -, -, rfl⟩ := validateSpellExclusionWord_eq_ok.mp hnormal
    exact ⟨item.scalars, item.decodeUtf16_utf16⟩

theorem normalizeAndValidate_of_normal {item : Item} (hadmissible : item.Admissible)
    (hnormal : normalizeUtf16 item.utf16 = some item.utf16) (row : Nat) :
    normalizeAndValidate item.scalars row = .ok item := by
  rw [normalizeAndValidate_eq_ok]
  refine ⟨⟨item.utf16, ?_, hnormal⟩, hadmissible⟩
  rw [trimWhitespace_eq_self hadmissible.whitespace, utf32ToUtf16_eq_some]
  exact item.decodeUtf16_utf16

theorem normalizeRows_of_normal {words : List (List Char16)}
    (h : ∀ word ∈ words, ∃ item : Item, item.utf16 = word ∧ item.Admissible ∧
      normalizeUtf16 word = some word) (row : Nat) :
    ∃ items, normalizeRows row words = .ok items ∧ items.map Item.utf16 = words := by
  induction words generalizing row with
  | nil => exact ⟨[], rfl, rfl⟩
  | cons word words ih =>
      obtain ⟨hword, hwords⟩ := List.forall_mem_cons.mp h
      obtain ⟨item, rfl, hadmissible, hnormal⟩ := hword
      obtain ⟨items, hitems, rfl⟩ := ih hwords (row + 1)
      refine ⟨item :: items, ?_, rfl⟩
      rw [normalizeRows, item.decodeUtf16_utf16]
      dsimp only [orError, bind, Except.bind]
      rw [normalizeAndValidate_of_normal hadmissible hnormal row, hitems]
      rfl

omit [UnicodePlatform] in
theorem utf8Of_utf16 (item : Item) : utf8Of item.utf16 = item.utf8 := by
  rw [utf8Of_eq, fst_utf16ToUtf32 item.decodeUtf16_utf16, Item.utf8]

omit [UnicodePlatform] in
theorem sortedWords_sortUnique (items : List Item) :
    SortedWords ((sortUnique compareItems items).map Item.utf16) (items.map Item.utf16) := by
  constructor
  · rw [List.pairwise_map]
    refine List.Pairwise.imp ?_ (pairwise_sortUnique items)
    intro a b hlt
    rw [utf8Of_utf16, utf8Of_utf16]
    exact hlt
  · intro word
    simp only [List.mem_map, mem_sortUnique]

theorem exclusions_returns_iff {words : List (List Char16)}
    (hwords : ∀ word ∈ words, ∃ normal, validateSpellExclusionWord word 0 = .ok normal)
    (hcount : (normalForms validateSpellExclusionWord words).dedup.length ≤ kMaxSpellExclusionRows)
    (hidempotent : NormalizationIdempotent) (hspace : NormalizationKeepsWhitespace) :
    Returns (parseAndValidateSpellExclusionsText (formatSpellExclusionsText words) [] false)
        (normalForms validateSpellExclusionWord words) ↔
      HidesNothing isExclusionComment validateSpellExclusionWord words := by
  obtain ⟨parsed, hparse, hparsed⟩ := parseLines_formatText isHeader_exclusions
    (readsTrimmed_validateSpellExclusionWord hspace) hwords
  have hnormal : ∀ word ∈ (appendNew [] parsed).1, ∃ item : Item, item.utf16 = word ∧
      item.Admissible ∧ normalizeUtf16 word = some word := by
    intro word hmem
    rcases mem_appendNew.mp hmem with hnil | hmem
    · cases hnil
    · obtain ⟨source, -, -, hsource⟩ := (hparsed word).mp hmem
      obtain ⟨scalars, -, item, hitem, hadmissible, rfl⟩ :=
        validateSpellExclusionWord_eq_ok.mp hsource
      exact ⟨item, rfl, hadmissible, hidempotent _ _ hitem⟩
  obtain ⟨items, hrows, hitems⟩ := normalizeRows_of_normal hnormal 1
  have hnodup : items.Nodup := by
    apply List.Nodup.of_map Item.utf16
    rw [hitems]
    exact nodup_appendNew List.nodup_nil
  have hlength : (sortUnique compareItems items).length = (appendNew [] parsed).1.length := by
    rw [(sortUnique_perm hnodup).length_eq, ← hitems, List.length_map]
  have hparseText : parseAndValidateSpellExclusionsText (formatSpellExclusionsText words) [] false =
      _ := congrArg (· >>= _) hparse
  dsimp only [bind, Except.bind] at hparseText
  rw [if_neg Bool.false_ne_true, canonicalize, hrows] at hparseText
  dsimp only [bind, Except.bind] at hparseText
  rw [hparseText]
  refine returns_iff_hidesNothing hwords hparsed ?_ ?_
  · intro imported himported
    by_cases hmany : kMaxSpellExclusionRows < (sortUnique compareItems items).length
    · rw [if_pos hmany] at himported
      cases himported
    · rw [if_neg hmany] at himported
      obtain rfl := Except.ok.inj himported
      have hsorted := sortedWords_sortUnique items
      refine ⟨hsorted.1, fun word => (hsorted.2 word).trans ?_⟩
      rw [hitems, mem_appendNew]
      simp
  · intro hperm
    rw [← hperm.length_eq, ← hlength] at hcount
    rw [if_neg (Nat.not_lt.mpr hcount)]
    exact ⟨_, rfl⟩

/-! ## Both lists -/

/-- The text of accepted words returns their normal forms, sorted and each of them once, exactly if
every word whose line is a comment has the normal form of one whose line is none. -/
theorem formatText_returns_iff_hidesNothing :
    (∀ words : List (List Char16),
      (∀ word ∈ words, ∃ normal, validateUserDictWord word 0 = .ok normal) →
      (normalForms validateUserDictWord words).dedup.length ≤ kMaxUserDictEntries →
      totalUtf16 (normalForms validateUserDictWord words).dedup ≤ kMaxUserDictUtf16Units →
        (Returns (parseAndValidateUserDictText (formatUserDictText words) [] false)
            (normalForms validateUserDictWord words) ↔
          HidesNothing isUserDictComment validateUserDictWord words)) ∧
      ∀ words : List (List Char16),
        (∀ word ∈ words, ∃ normal, validateSpellExclusionWord word 0 = .ok normal) →
        (normalForms validateSpellExclusionWord words).dedup.length ≤ kMaxSpellExclusionRows →
        NormalizationIdempotent → NormalizationKeepsWhitespace →
          (Returns (parseAndValidateSpellExclusionsText (formatSpellExclusionsText words) [] false)
              (normalForms validateSpellExclusionWord words) ↔
            HidesNothing isExclusionComment validateSpellExclusionWord words) := by
  constructor
  · intro words hwords hcount hunits
    exact userDict_returns_iff hwords hcount hunits
  · intro words hwords hcount hidempotent hspace
    exact exclusions_returns_iff hwords hcount hidempotent hspace

omit [UnicodePlatform]

theorem asciiLowercase_asciiLowercase (c : Char16) :
    asciiLowercase (asciiLowercase c) = asciiLowercase c := by
  unfold asciiLowercase
  split_ifs with hupper hagain
  · rw [toNat_ofNat_unit (by omega)] at hagain
    omega
  · rfl
  · rfl

theorem normalizeUtf16_fallbackPlatform (units : List Char16) :
    @normalizeUtf16 fallbackPlatform units = some (units.map asciiLowercase) := by
  cases units <;> rfl

theorem fallbackPlatform_idempotent : @NormalizationIdempotent fallbackPlatform := by
  intro units normal hnormal
  rw [normalizeUtf16_fallbackPlatform] at hnormal ⊢
  rw [← Option.some.inj hnormal, List.map_map]
  congr 1
  exact List.map_congr_left fun c _ => asciiLowercase_asciiLowercase c

theorem encodeScalar_of_isUnicodeWhitespace {cp : Nat} (h : isUnicodeWhitespace cp = true) :
    encodeScalar cp = [UInt16.ofNat cp] ∧ cp < 0xD800 ∧
      asciiLowercase (UInt16.ofNat cp) = UInt16.ofNat cp := by
  unfold isUnicodeWhitespace at h
  rw [List.contains_iff_mem] at h
  revert h
  revert cp
  decide

theorem eq_of_unit_mem_encodeScalar {cp unit : Nat} (hcp : isScalar cp = true)
    (hunit : unit < 0xD800)
    (hmem : UInt16.ofNat unit ∈ encodeScalar cp) : cp = unit := by
  have hbounds := (isScalar_iff.mp hcp).1
  unfold encodeScalar at hmem
  split_ifs at hmem with hsmall
  · have heq := congrArg UInt16.toNat (List.mem_singleton.mp hmem)
    rw [toNat_ofNat_unit (by omega), toNat_ofNat_unit (by omega)] at heq
    exact heq.symm
  · exfalso
    simp only [List.mem_cons, List.not_mem_nil, or_false] at hmem
    rcases hmem with heq | heq <;>
      (have heq := congrArg UInt16.toNat heq
       rw [toNat_ofNat_unit (by omega), toNat_ofNat_unit (by omega)] at heq
       omega)

theorem fallbackPlatform_keepsWhitespace : @NormalizationKeepsWhitespace fallbackPlatform := by
  rintro units normal scalars final hnormal hscalars hfinal ⟨cp, hcp, hspace⟩
  rw [normalizeUtf16_fallbackPlatform] at hnormal
  obtain ⟨hunit, hsmall, hlower⟩ := encodeScalar_of_isUnicodeWhitespace hspace
  have hunits : UInt16.ofNat cp ∈ units := by
    rw [← (decodeUtf16_eq_some.mp hscalars).2]
    exact List.mem_flatMap.mpr ⟨cp, hcp, by simp [hunit]⟩
  have hmem : UInt16.ofNat cp ∈ normal := by
    rw [← Option.some.inj hnormal]
    exact List.mem_map.mpr ⟨_, hunits, hlower⟩
  rw [← (decodeUtf16_eq_some.mp hfinal).2] at hmem
  obtain ⟨cp', hcp', hmem⟩ := List.mem_flatMap.mp hmem
  have heq := eq_of_unit_mem_encodeScalar ((decodeUtf16_eq_some.mp hfinal).1 cp' hcp') hsmall hmem
  exact ⟨cp', hcp', heq ▸ hspace⟩

/-- The words `Ab` and `#ab`. -/
def plainAb : List Char16 := [0x41, 0x62]
def hashAb : List Char16 := [0x23, 0x61, 0x62]

/-- The words `Ab` and `nhÀ` are read back by both editors. -/
theorem formatText_returns_of_words :
    Returns (@parseAndValidateUserDictText fallbackPlatform
        (formatUserDictText [plainAb, [0x6E, 0x68, 0xC0]])
        [] false) [[0x61, 0x62], [0x6E, 0x68, 0xC0]] ∧
      Returns (@parseAndValidateSpellExclusionsText fallbackPlatform
        (formatSpellExclusionsText [plainAb, [0x6E, 0x68, 0xC0]]) [] false)
          [[0x61, 0x62], [0x6E, 0x68, 0xC0]] := by
  obtain ⟨hdict, hexclusions⟩ := @formatText_returns_iff_hidesNothing fallbackPlatform
  constructor
  · refine (hdict [plainAb, [0x6E, 0x68, 0xC0]] ?_ (by decide) (by decide)).mpr ?_
    · exact List.forall_mem_cons.mpr
        ⟨⟨[0x61, 0x62], by decide⟩, List.forall_mem_singleton.mpr ⟨[0x6E, 0x68, 0xC0], by decide⟩⟩
    · exact List.forall_mem_cons.mpr ⟨fun hcomment => Bool.noConfusion hcomment,
        List.forall_mem_singleton.mpr fun hcomment => Bool.noConfusion hcomment⟩
  · refine (hexclusions [plainAb, [0x6E, 0x68, 0xC0]] ?_ (by decide) fallbackPlatform_idempotent
      fallbackPlatform_keepsWhitespace).mpr ?_
    · exact List.forall_mem_cons.mpr
        ⟨⟨[0x61, 0x62], by decide⟩, List.forall_mem_singleton.mpr ⟨[0x6E, 0x68, 0xC0], by decide⟩⟩
    · exact List.forall_mem_cons.mpr ⟨fun hcomment => Bool.noConfusion hcomment,
        List.forall_mem_singleton.mpr fun hcomment => Bool.noConfusion hcomment⟩

/-- The word `#ab` is accepted by the user dictionary, but not read back. -/
theorem not_formatText_returns_of_accepted :
    ¬ ∀ words : List (List Char16),
      (∀ word ∈ words, ∃ normal, @validateUserDictWord fallbackPlatform word 0 = .ok normal) →
      (normalForms (@validateUserDictWord fallbackPlatform) words).dedup.length ≤
        kMaxUserDictEntries →
      totalUtf16 (normalForms (@validateUserDictWord fallbackPlatform) words).dedup ≤
        kMaxUserDictUtf16Units →
        Returns
          (@parseAndValidateUserDictText fallbackPlatform (formatUserDictText words) [] false)
          (normalForms (@validateUserDictWord fallbackPlatform) words) := by
  intro hall
  have hwords : ∀ word ∈ [hashAb], ∃ normal,
      @validateUserDictWord fallbackPlatform word 0 = .ok normal :=
    List.forall_mem_singleton.mpr ⟨hashAb, by decide⟩
  have hhides := (@userDict_returns_iff fallbackPlatform [hashAb] hwords (by decide)
    (by decide)).mp (hall [hashAb] hwords (by decide) (by decide))
  obtain ⟨other, hother, hplain, -⟩ := hhides hashAb (List.mem_singleton_self _) (by decide)
  rw [List.mem_singleton.mp hother] at hplain
  cases hplain

end LexiconValidator

end VKey
