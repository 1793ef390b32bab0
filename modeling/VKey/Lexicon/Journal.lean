import VKey.Lexicon.Validation

/-!
# The journal of a lexicon transaction

The journal is a text of lines `key=value` behind a header.  Every key has to occur once.
-/

namespace VKey

open LexiconValidator (asciiBytes)

/-- The contents of a file, or a path in UTF-8. -/
abbrev Bytes := List UInt8

/-- How far a transaction has come. -/
inductive LexiconJournalState where
  | unknown
  | prepared
  | filesReplaced
  | generationPublished
  | committed
  | rollbackPending
  deriving DecidableEq, Repr

/-- The entry of a transaction in the journal. -/
structure LexiconJournalRecord where
  state : LexiconJournalState := .unknown
  configExistedBefore : Bool := false
  dictExistedBefore : Bool := false
  notifySharedState : Bool := true
  oldGeneration : UInt8 := 0
  newGeneration : UInt8 := 0
  oldConfigHash : Bytes := []
  newConfigHash : Bytes := []
  oldDictHash : Bytes := []
  newDictHash : Bytes := []
  configBakPath : Bytes := []
  dictBakPath : Bytes := []
  configTmpPath : Bytes := []
  dictTmpPath : Bytes := []
  deriving DecidableEq, Repr

/-! ## The checksum -/

/-- A hexadecimal digit. -/
def hexDigit (n : Nat) : UInt8 := UInt8.ofNat (if n < 10 then 0x30 + n else 0x57 + n)

/-- The FNV-1a hash of some bytes. -/
def fnv1a (data : Bytes) : UInt64 :=
  data.foldl (fun hash c => (hash ^^^ c.toUInt64) * 1099511628211) 14695981039346656037

/-- The hash in sixteen hexadecimal digits. -/
def computeHash (data : Bytes) : Bytes :=
  (List.range 16).map fun i => hexDigit ((fnv1a data).toNat / 16 ^ (15 - i) % 16)

/-! ## The fields -/

namespace LexiconJournalState

/-- The name in the journal. -/
def name : LexiconJournalState → String
  | .unknown => "UNKNOWN"
  | .prepared => "PREPARED"
  | .filesReplaced => "FILES_REPLACED"
  | .generationPublished => "GENERATION_PUBLISHED"
  | .committed => "COMMITTED"
  | .rollbackPending => "ROLLBACK_PENDING"

/-- The state with the given name. -/
def ofName (val : Bytes) : Option LexiconJournalState :=
  [prepared, filesReplaced, generationPublished, committed, rollbackPending].find?
    (asciiBytes ·.name == val)

end LexiconJournalState

/-- A flag in the journal. -/
def writeFlag (flag : Bool) : Bytes := asciiBytes (if flag then "1" else "0")

def parseBoolean (val : Bytes) : Option Bool :=
  if val = asciiBytes "1" then some true else if val = asciiBytes "0" then some false else none

/-- A generation in the journal, in decimal digits. -/
def writeGeneration (generation : UInt8) : Bytes :=
  (Nat.toDigits 10 generation.toNat).map fun c => UInt8.ofNat c.toNat

/-- The number with the given decimal digits. -/
def readDecimal (val : Bytes) : Option Nat :=
  if val = [] then none
  else
    val.foldl
      (fun n c => n.bind fun n =>
        if 0x30 ≤ c.toNat ∧ c.toNat ≤ 0x39 then some (10 * n + (c.toNat - 0x30)) else none)
      (some 0)

def parseGeneration (val : Bytes) : Option UInt8 :=
  (readDecimal val).bind fun parsed => if 0xFF < parsed then none else some (UInt8.ofNat parsed)

/-- A key of the journal with its value in a record. -/
structure JournalField where
  key : String
  write : LexiconJournalRecord → Bytes
  /-- Set the value in a record. -/
  read : Bytes → LexiconJournalRecord → Option LexiconJournalRecord

/-- The required keys, in the order they are written. -/
def journalFields : List JournalField :=
  [{ key := "state"
     write r := asciiBytes r.state.name
     read val r := (LexiconJournalState.ofName val).map fun state => { r with state } },
   { key := "config_existed"
     write r := writeFlag r.configExistedBefore
     read val r := (parseBoolean val).map fun flag => { r with configExistedBefore := flag } },
   { key := "dict_existed"
     write r := writeFlag r.dictExistedBefore
     read val r := (parseBoolean val).map fun flag => { r with dictExistedBefore := flag } },
   { key := "notify_shared_state"
     write r := writeFlag r.notifySharedState
     read val r := (parseBoolean val).map fun flag => { r with notifySharedState := flag } },
   { key := "old_gen"
     write r := writeGeneration r.oldGeneration
     read val r := (parseGeneration val).map fun g => { r with oldGeneration := g } },
   { key := "new_gen"
     write r := writeGeneration r.newGeneration
     read val r := (parseGeneration val).map fun g => { r with newGeneration := g } },
   { key := "old_config_hash"
     write r := r.oldConfigHash
     read val r := some { r with oldConfigHash := val } },
   { key := "new_config_hash"
     write r := r.newConfigHash
     read val r := some { r with newConfigHash := val } },
   { key := "old_dict_hash"
     write r := r.oldDictHash
     read val r := some { r with oldDictHash := val } },
   { key := "new_dict_hash"
     write r := r.newDictHash
     read val r := some { r with newDictHash := val } },
   { key := "config_bak_path"
     write r := r.configBakPath
     read val r := some { r with configBakPath := val } },
   { key := "dict_bak_path"
     write r := r.dictBakPath
     read val r := some { r with dictBakPath := val } },
   { key := "config_tmp_path"
     write r := r.configTmpPath
     read val r := some { r with configTmpPath := val } },
   { key := "dict_tmp_path"
     write r := r.dictTmpPath
     read val r := some { r with dictTmpPath := val } }]

/-! ## The text -/

namespace LexiconJournalRecord

def journalHeader : Bytes := asciiBytes "VKEY_LEXICON_JOURNAL_V1"

/-- A line of the journal. -/
def fieldLine (r : LexiconJournalRecord) (field : JournalField) : Bytes :=
  asciiBytes field.key ++ 0x3D :: field.write r

/-- The text of a record. -/
def serialize (r : LexiconJournalRecord) : Bytes :=
  joinLines 0x0A (journalHeader :: journalFields.map r.fieldLine)

/-- The key and the value of a line. -/
def splitAssignment (line : Bytes) : Option (Bytes × Bytes) :=
  if 0x3D ∈ line then
    some (line.takeWhile (· != 0x3D), (line.dropWhile (· != 0x3D)).tail)
  else none

/-- Read a line: the keys seen so far and the record.  Lines without `=` and other keys are passed
over; a required key that occurs twice is an error. -/
def readLine (seen : List String × LexiconJournalRecord) (line : Bytes) :
    Option (List String × LexiconJournalRecord) :=
  let line := if line.getLast? = some 0x0D then line.dropLast else line
  match splitAssignment line with
  | none => some seen
  | some (key, val) =>
      match journalFields.find? fun field => asciiBytes field.key == key with
      | none => some seen
      | some field =>
          if field.key ∈ seen.1 then none
          else (field.read val seen.2).map fun r => (field.key :: seen.1, r)

/-- The record of a text. -/
def deserialize (text : Bytes) : Option LexiconJournalRecord :=
  match getLines 0x0A [] text with
  | [] => none
  | header :: lines =>
      if header = journalHeader then
        (lines.foldlM readLine ([], {})).bind fun seen =>
          if (journalFields.all fun field => seen.1.contains field.key) && seen.2.state != .unknown
          then some seen.2 else none
      else none

/-! ## Round trip -/

/-- The value has no line breaks. -/
def IsOneLine (val : Bytes) : Prop := 0x0A ∉ val ∧ 0x0D ∉ val

/-- The hashes and the paths have no line breaks. -/
structure TextsOneLine (r : LexiconJournalRecord) : Prop where
  oldConfigHash : IsOneLine r.oldConfigHash
  newConfigHash : IsOneLine r.newConfigHash
  oldDictHash : IsOneLine r.oldDictHash
  newDictHash : IsOneLine r.newDictHash
  configBakPath : IsOneLine r.configBakPath
  dictBakPath : IsOneLine r.dictBakPath
  configTmpPath : IsOneLine r.configTmpPath
  dictTmpPath : IsOneLine r.dictTmpPath

theorem readDecimal_toDigits : ∀ n < 256,
    readDecimal ((Nat.toDigits 10 n).map fun c => UInt8.ofNat c.toNat) = some n ∧
      IsOneLine ((Nat.toDigits 10 n).map fun c => UInt8.ofNat c.toNat) := by
  unfold IsOneLine
  decide +kernel

theorem parseGeneration_writeGeneration (generation : UInt8) :
    parseGeneration (writeGeneration generation) = some generation := by
  have hlt : generation.toNat < 256 := generation.toNat_lt
  rw [parseGeneration, writeGeneration, (readDecimal_toDigits _ hlt).1, Option.bind_some,
    if_neg (by omega), UInt8.ofNat_toNat]

theorem parseBoolean_writeFlag (flag : Bool) : parseBoolean (writeFlag flag) = some flag := by
  cases flag <;> decide

theorem ofName_name {state : LexiconJournalState} (h : state ≠ .unknown) :
    LexiconJournalState.ofName (asciiBytes state.name) = some state := by
  cases state with
  | unknown => exact absurd rfl h
  | _ => decide

theorem journalFields_key : ∀ field ∈ journalFields,
    0x3D ∉ asciiBytes field.key ∧ IsOneLine (asciiBytes field.key) := by
  unfold IsOneLine
  decide

theorem find?_journalFields : ∀ field ∈ journalFields,
    journalFields.find? (fun other => asciiBytes other.key == asciiBytes field.key)
    = some field := by
  intro field hfield
  simp only [journalFields, List.mem_cons, List.not_mem_nil, or_false] at hfield
  rcases hfield with rfl | rfl | rfl | rfl | rfl | rfl | rfl | rfl | rfl | rfl | rfl | rfl | rfl |
      rfl <;>
    rfl

theorem isOneLine_write {r : LexiconJournalRecord} (h : r.TextsOneLine) :
    ∀ field ∈ journalFields, IsOneLine (field.write r) := by
  have hstate : IsOneLine (asciiBytes r.state.name) := by
    unfold IsOneLine
    cases r.state <;> decide
  have hflag : ∀ flag, IsOneLine (writeFlag flag) := by
    unfold IsOneLine
    decide
  have hgeneration : ∀ generation, IsOneLine (writeGeneration generation) :=
    fun generation => (readDecimal_toDigits _ generation.toNat_lt).2
  intro field hfield
  simp only [journalFields, List.mem_cons, List.not_mem_nil, or_false] at hfield
  rcases hfield with rfl | rfl | rfl | rfl | rfl | rfl | rfl | rfl | rfl | rfl | rfl | rfl | rfl |
      rfl
  · exact hstate
  · exact hflag _
  · exact hflag _
  · exact hflag _
  · exact hgeneration _
  · exact hgeneration _
  · exact h.oldConfigHash
  · exact h.newConfigHash
  · exact h.oldDictHash
  · exact h.newDictHash
  · exact h.configBakPath
  · exact h.dictBakPath
  · exact h.configTmpPath
  · exact h.dictTmpPath

theorem splitAssignment_append {key : Bytes} (h : 0x3D ∉ key) (val : Bytes) :
    splitAssignment (key ++ 0x3D :: val) = some (key, val) := by
  have hall : ∀ c ∈ key, (c != 0x3D) = true := by
    intro c hc
    rw [bne_iff_ne]
    exact fun heq => h (heq ▸ hc)
  rw [splitAssignment, if_pos (by simp), List.takeWhile_append_of_pos hall,
    List.dropWhile_append_of_pos hall]
  simp

/-- A written line is read. -/
theorem readLine_fieldLine {r : LexiconJournalRecord} {field : JournalField}
    (hfield : field ∈ journalFields) (hvalue : IsOneLine (field.write r)) {seen : List String}
    (hseen : field.key ∉ seen) (acc : LexiconJournalRecord) :
    readLine (seen, acc) (r.fieldLine field) =
      (field.read (field.write r) acc).map fun r' => (field.key :: seen, r') := by
  obtain ⟨hkey, hkeyLine⟩ := journalFields_key field hfield
  have hlast : (r.fieldLine field).getLast? ≠ some 0x0D := by
    intro hlast
    have hmem := List.mem_of_getLast? hlast
    rw [fieldLine, List.mem_append, List.mem_cons] at hmem
    rcases hmem with hmem | hmem | hmem
    · exact hkeyLine.2 hmem
    · revert hmem
      decide
    · exact hvalue.2 hmem
  unfold readLine
  dsimp only
  rw [if_neg hlast, fieldLine, splitAssignment_append hkey]
  dsimp only
  rw [find?_journalFields field hfield]
  dsimp only
  rw [if_neg hseen]

/-- Written lines with different keys are read one after the other. -/
theorem foldlM_readLine {r : LexiconJournalRecord} (h : r.TextsOneLine) (fields : List JournalField)
    (hfields : ∀ field ∈ fields, field ∈ journalFields) {seen : List String}
    (hkeys : (fields.map (·.key)).Nodup) (hseen : ∀ field ∈ fields, field.key ∉ seen)
    (acc : LexiconJournalRecord) :
    (fields.map r.fieldLine).foldlM readLine (seen, acc) =
      (fields.foldlM (fun acc (field : JournalField) => field.read (field.write r) acc) acc).map
        fun r' => ((fields.map (·.key)).reverse ++ seen, r') := by
  induction fields generalizing seen acc with
  | nil => rfl
  | cons field fields ih =>
      obtain ⟨hfield, hrest⟩ := List.forall_mem_cons.mp hfields
      obtain ⟨hnew, hnewRest⟩ := List.forall_mem_cons.mp hseen
      rw [List.map_cons, List.nodup_cons] at hkeys
      rw [List.map_cons, List.foldlM_cons, List.foldlM_cons,
        readLine_fieldLine hfield (isOneLine_write h field hfield) hnew]
      cases field.read (field.write r) acc with
      | none => rfl
      | some next =>
          have hdisjoint : ∀ other ∈ fields, other.key ∉ field.key :: seen := by
            intro other hother hmem
            rcases List.mem_cons.mp hmem with heq | hmem
            · exact hkeys.1 (heq ▸ List.mem_map_of_mem hother)
            · exact hnewRest other hother hmem
          have hstep := ih hrest hkeys.2 hdisjoint next
          simpa using hstep

theorem foldlM_read {r : LexiconJournalRecord} (hstate : r.state ≠ .unknown) :
    journalFields.foldlM (fun acc (field : JournalField) => field.read (field.write r) acc)
      ({} : LexiconJournalRecord) = some r := by
  simp only [journalFields, List.foldlM_cons, List.foldlM_nil, ofName_name hstate,
    parseBoolean_writeFlag, parseGeneration_writeGeneration, Option.map_some, Option.bind_eq_bind,
    Option.bind_some]
  rfl

/-- What is written is read back. -/
theorem deserialize_serialize {r : LexiconJournalRecord} (hstate : r.state ≠ .unknown)
    (h : r.TextsOneLine) : deserialize r.serialize = some r := by
  have hlines : ∀ line ∈ journalHeader :: journalFields.map r.fieldLine, 0x0A ∉ line := by
    rw [List.forall_mem_cons]
    refine ⟨by decide, ?_⟩
    intro line hline hmem
    obtain ⟨field, hfield, rfl⟩ := List.mem_map.mp hline
    rw [fieldLine, List.mem_append, List.mem_cons] at hmem
    rcases hmem with hmem | hmem | hmem
    · exact (journalFields_key field hfield).2.1 hmem
    · revert hmem
      decide
    · exact (isOneLine_write h field hfield).1 hmem
  have hnone : ∀ field ∈ journalFields, field.key ∉ ([] : List String) :=
    fun _ _ => List.not_mem_nil
  have hread := foldlM_readLine h journalFields (fun _ hfield => hfield) (by decide) hnone {}
  rw [foldlM_read hstate, Option.map_some, List.append_nil] at hread
  have hseen : (journalFields.all fun field =>
      ((journalFields.map (·.key)).reverse).contains field.key) = true := by decide
  rw [deserialize, serialize, getLines_joinLines hlines]
  dsimp only
  rw [if_pos rfl, hread, Option.bind_some]
  dsimp only
  rw [hseen, Bool.true_and, if_pos (by simpa using hstate)]

end LexiconJournalRecord

end VKey
