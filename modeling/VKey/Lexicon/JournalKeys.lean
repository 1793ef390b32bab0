import VKey.Lexicon.Journal

/-!
# What the journal reader accepts

A text is read into a record only if every required key is assigned once.  Everything else leaves
the record of the caller as it is.
-/

namespace VKey

namespace LexiconJournalRecord

open LexiconValidator (asciiBytes)

/-- The key and the value of a line, less its carriage return. -/
def lineAssignment (line : Bytes) : Option (Bytes × Bytes) :=
  splitAssignment (if line.getLast? = some 0x0D then line.dropLast else line)

/-- The assignments below the header. -/
def assignments (text : Bytes) : List (Bytes × Bytes) :=
  (getLines 0x0A [] text).tail.filterMap lineAssignment

/-- How often a key is assigned. -/
def occurrences (key : String) (text : Bytes) : Nat :=
  (assignments text).countP (·.1 == asciiBytes key)

/-- Read a text into the record of the caller. -/
def deserializeInto (text : Bytes) (outRecord : LexiconJournalRecord) :
    Bool × LexiconJournalRecord :=
  match deserialize text with
  | some record => (true, record)
  | none => (false, outRecord)

/-! ## Required keys -/

/-- A key that has been seen counts once. -/
def seenCount (seen : List String) (key : String) : Nat := if key ∈ seen then 1 else 0

theorem seenCount_cons (first : String) (seen : List String) (key : String) :
    seenCount (first :: seen) key = if key = first then 1 else seenCount seen key := by
  unfold seenCount
  by_cases hkey : key = first <;> simp [hkey]

theorem asciiBytes_key_injective : ∀ field ∈ journalFields, ∀ other ∈ journalFields,
    asciiBytes field.key = asciiBytes other.key → field.key = other.key := by decide

/-- A line adds its key to the keys seen so far, unless it has been seen. -/
theorem seenCount_readLine {state next : List String × LexiconJournalRecord} {line : Bytes}
    (h : readLine state line = some next) {field : JournalField} (hfield : field ∈ journalFields) :
    seenCount next.1 field.key = seenCount state.1 field.key +
      (lineAssignment line).toList.countP (·.1 == asciiBytes field.key) := by
  unfold readLine at h
  dsimp only at h
  rw [← lineAssignment] at h
  cases hline : lineAssignment line with
  | none =>
      rw [hline] at h
      obtain rfl := Option.some.inj h
      rfl
  | some assignment =>
      obtain ⟨key, val⟩ := assignment
      rw [hline] at h
      dsimp only at h
      rw [Option.toList_some, List.countP_singleton]
      cases hfind : journalFields.find? fun other => asciiBytes other.key == key with
      | none =>
          have hother := List.find?_eq_none.mp hfind field hfield
          rw [hfind] at h
          obtain rfl := Option.some.inj h
          rw [if_neg (by rwa [beq_iff_eq, eq_comm, ← beq_iff_eq])]
          rfl
      | some found =>
          obtain rfl : asciiBytes found.key = key := by simpa using List.find?_some hfind
          rw [hfind] at h
          dsimp only at h
          split_ifs at h with hseen
          obtain ⟨record, -, rfl⟩ := Option.map_eq_some_iff.mp h
          rw [seenCount_cons]
          split_ifs with hkey hbytes hbytes
          · rw [hkey, seenCount, if_neg hseen]
          · exact absurd (by rw [hkey, beq_self_eq_true]) hbytes
          · refine absurd ?_ hkey
            exact (asciiBytes_key_injective found (List.mem_of_find?_eq_some hfind) field hfield
              (eq_of_beq hbytes)).symm
          · rfl

/-- Lines that are read assign no required key twice, and the keys seen behind them are those. -/
theorem seenCount_foldlM {lines : List Bytes} {state last : List String × LexiconJournalRecord}
    (h : lines.foldlM readLine state = some last) {field : JournalField}
    (hfield : field ∈ journalFields) :
    seenCount last.1 field.key = seenCount state.1 field.key +
      (lines.filterMap lineAssignment).countP (·.1 == asciiBytes field.key) := by
  induction lines generalizing state with
  | nil =>
      obtain rfl := Option.some.inj h
      rfl
  | cons line lines ih =>
      rw [List.foldlM_cons] at h
      obtain ⟨next, hnext, hrest⟩ := Option.bind_eq_some_iff.mp h
      have hcount : ((line :: lines).filterMap lineAssignment).countP
          (·.1 == asciiBytes field.key) =
          (lineAssignment line).toList.countP (·.1 == asciiBytes field.key) +
            (lines.filterMap lineAssignment).countP (·.1 == asciiBytes field.key) := by
        rw [← List.countP_append]
        cases hline : lineAssignment line with
        | none => rw [List.filterMap_cons_none hline, Option.toList_none, List.nil_append]
        | some assignment =>
            rw [List.filterMap_cons_some hline, Option.toList_some, List.singleton_append]
      rw [ih hrest, seenCount_readLine hnext hfield, hcount, Nat.add_assoc]

/-- A text that is read assigns every required key once. -/
theorem occurrences_of_deserialize {text : Bytes} {record : LexiconJournalRecord}
    (h : deserialize text = some record) {field : JournalField} (hfield : field ∈ journalFields) :
    occurrences field.key text = 1 := by
  unfold deserialize at h
  unfold occurrences assignments
  cases hlines : getLines 0x0A [] text with
  | nil => simp [hlines] at h
  | cons header lines =>
      rw [hlines] at h
      dsimp only at h
      split_ifs at h with hheader
      obtain ⟨last, hfold, hlast⟩ := Option.bind_eq_some_iff.mp h
      split_ifs at hlast with hall
      rw [Bool.and_eq_true, List.all_eq_true] at hall
      have hseen : field.key ∈ last.1 := by simpa using hall.1 field hfield
      have hcount := seenCount_foldlM hfold hfield
      rw [seenCount, if_pos hseen] at hcount
      exact (hcount.trans (Nat.zero_add _)).symm

/-- A record with a known state and texts of one line is read back from its text; a text in which a
required key is missing or occurs twice is refused, and the record of the caller stays. -/
theorem journal_exact (outRecord : LexiconJournalRecord) :
    (∀ r : LexiconJournalRecord, r.state ≠ .unknown → r.TextsOneLine →
      deserializeInto r.serialize outRecord = (true, r)) ∧
    ∀ text, (∃ field ∈ journalFields,
        occurrences field.key text = 0 ∨ 2 ≤ occurrences field.key text) →
      deserializeInto text outRecord = (false, outRecord) := by
  refine ⟨fun r hstate htexts => ?_, fun text ⟨field, hfield, hcount⟩ => ?_⟩
  · rw [deserializeInto, deserialize_serialize hstate htexts]
  · unfold deserializeInto
    cases hread : deserialize text with
    | none => rfl
    | some record =>
        have hone := occurrences_of_deserialize hread hfield
        omega

/-- A path may hold an equals sign and spaces around it. -/
theorem journal_exact_path :
    deserializeInto
        (serialize { state := .prepared, configBakPath := asciiBytes " C:/a = b " }) {} =
      (true, { state := .prepared, configBakPath := asciiBytes " C:/a = b " }) :=
  have hpath : IsOneLine (asciiBytes " C:/a = b ") := ⟨by decide, by decide⟩
  have hempty : IsOneLine [] := ⟨List.not_mem_nil, List.not_mem_nil⟩
  (journal_exact {}).1 _ (by decide)
    ⟨hempty, hempty, hempty, hempty, hpath, hempty, hempty, hempty⟩

end LexiconJournalRecord

end VKey
