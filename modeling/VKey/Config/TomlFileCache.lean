import Mathlib.Logic.Function.Basic

/-!
# The cache of the configuration file

A load takes the time and the size of the file, looks the table up under them, and otherwise parses
the file and inserts the table.  A write renames a new file over the old one and drops the entry.
Each access of the file system and of the cache is one step.
-/

namespace VKey

namespace TomlFileCache

/-- The TOML library; what it prints it parses again. -/
structure Toml (Table : Type) where
  print : Table → List UInt8
  parse : List UInt8 → Option Table
  parse_print : ∀ table, parse (print table) = some table

def kMaxConfigFileSizeBytes : Nat := 5 * 1024 * 1024

structure File where
  mtime : Nat
  data : List UInt8
  deriving DecidableEq

/-- What tells that a file has not changed. -/
structure Stamp where
  mtime : Nat
  size : Nat
  deriving DecidableEq

def File.stamp (file : File) : Stamp := ⟨file.mtime, file.data.length⟩

structure Entry (Table : Type) where
  stamp : Stamp
  /-- `none` if the file was not valid. -/
  table : Option Table

variable {Table : Type}

/-- `ParseConfigFile`, once it has taken the size of the file and has opened it. -/
def Toml.parseConfigFile (toml : Toml Table) (size : Nat) (file : Option File) : Option Table :=
  if size > kMaxConfigFileSizeBytes then none
  else file.bind fun file => if file.data.length < size then none else toml.parse
    (file.data.take size)

/-- The file holds the table. -/
def Toml.Holds (toml : Toml Table) (file : File) (table : Table) : Prop :=
  file.data = toml.print table ∧ file.data.length ≤ kMaxConfigFileSizeBytes

theorem Toml.Holds.parseConfigFile {toml : Toml Table} {file : File} {table : Table}
    (h : toml.Holds file table) :
    toml.parseConfigFile file.data.length (some file) = some table := by
  rw [Toml.parseConfigFile, if_neg (Nat.not_lt.mpr h.2), Option.bind_some, if_neg (Nat.lt_irrefl _),
    List.take_length, h.1, toml.parse_print]

/-- Where a load stands.  `want` is the table that it has to return: that of the last write, if that
write has returned `true` and no write has started when the load starts. -/
inductive Loading (Table : Type) where
  | idle
  /-- Before `last_write_time`. -/
  | started (want : Option Table)
  /-- Before `file_size`. -/
  | sizing (mtime : Nat) (want : Option Table)
  /-- Before the entry of a missing file is dropped. -/
  | missing (want : Option Table)
  /-- Before the entry is looked up. -/
  | looking (stamp : Stamp) (want : Option Table)
  /-- Before `file_size` of `ParseConfigFile`. -/
  | parsing (stamp : Stamp) (want : Option Table)
  /-- Before the file is opened. -/
  | opening (stamp : Stamp) (size : Nat) (want : Option Table)
  /-- Before the table is inserted. -/
  | inserting (stamp : Stamp) (parsed : Option Table) (want : Option Table)
  | returned (table : Option Table) (want : Option Table)

/-- Where `WriteToml` stands; the writes follow one another. -/
inductive Writing (Table : Type) where
  | idle
  /-- Before the text is checked and the temporary file is written. -/
  | storing (table : Table)
  /-- Before the rename. -/
  | replacing (table : Table)
  /-- Before the entry is dropped. -/
  | invalidating (table : Table)
  /-- Before the directory is flushed. -/
  | syncing (table : Table)
  /-- Before the temporary file is removed. -/
  | removing (table : Table) (success : Bool)

/-- The file, the entry of its path and the threads. -/
structure State (Table ι : Type) where
  file : Option File
  entry : Option (Entry Table)
  load : ι → Loading Table
  write : Writing Table
  /-- The table of the last write, if it has returned `true` and no write has started. -/
  stored : Option Table

inductive Event (Table ι : Type) where
  | loadStart (i : ι)
  | lastWriteTime (i : ι)
  | fileSize (i : ι)
  | erase (i : ι)
  | find (i : ι)
  | parseSize (i : ι)
  | parseOpen (i : ι)
  | insert (i : ι)
  | loadReturn (i : ι)
  | writeStart (table : Table)
  | store
  | storeFails
  | rename (mtime : Nat)
  | renameFails
  | invalidate
  | sync (success : Bool)
  | remove

variable {ι : Type} [DecidableEq ι]

def State.loadTo (s : State Table ι) (i : ι) (loading : Loading Table) : State Table ι :=
  { s with load := Function.update s.load i loading }

def State.writeTo (s : State Table ι) (write : Writing Table) : State Table ι :=
  { s with write := write }

inductive Step (toml : Toml Table) : State Table ι → Event Table ι → State Table ι → Prop
  | loadStart {s : State Table ι} {i : ι} (hi : s.load i = .idle) :
      Step toml s (.loadStart i) (s.loadTo i (.started s.stored))
  | lastWriteTime {s : State Table ι} {i : ι} {want : Option Table} {file : File}
      (hi : s.load i = .started want) (hfile : s.file = some file) :
      Step toml s (.lastWriteTime i) (s.loadTo i (.sizing file.mtime want))
  | noWriteTime {s : State Table ι} {i : ι} {want : Option Table} (hi : s.load i = .started want)
      (hfile : s.file = none) : Step toml s (.lastWriteTime i) (s.loadTo i (.missing want))
  | fileSize {s : State Table ι} {i : ι} {mtime : Nat} {want : Option Table} {file : File}
      (hi : s.load i = .sizing mtime want) (hfile : s.file = some file) :
      Step toml s (.fileSize i) (s.loadTo i (.looking ⟨mtime, file.data.length⟩ want))
  | noSize {s : State Table ι} {i : ι} {mtime : Nat} {want : Option Table}
      (hi : s.load i = .sizing mtime want) (hfile : s.file = none) :
      Step toml s (.fileSize i) (s.loadTo i (.missing want))
  | erase {s : State Table ι} {i : ι} {want : Option Table} (hi : s.load i = .missing want) :
      Step toml s (.erase i) ({ s with entry := none }.loadTo i (.returned none want))
  | hit {s : State Table ι} {i : ι} {stamp : Stamp} {want : Option Table} {entry : Entry Table}
      (hi : s.load i = .looking stamp want) (hentry : s.entry = some entry)
        (hstamp : entry.stamp = stamp) :
      Step toml s (.find i) (s.loadTo i (.returned entry.table want))
  | miss {s : State Table ι} {i : ι} {stamp : Stamp} {want : Option Table}
      (hi : s.load i = .looking stamp want)
        (hmiss : ∀ entry, s.entry = some entry → entry.stamp ≠ stamp) :
      Step toml s (.find i) (s.loadTo i (.parsing stamp want))
  | parseSize {s : State Table ι} {i : ι} {stamp : Stamp} {want : Option Table} {file : File}
      (hi : s.load i = .parsing stamp want) (hfile : s.file = some file) :
      Step toml s (.parseSize i) (s.loadTo i (.opening stamp file.data.length want))
  | noParseSize {s : State Table ι} {i : ι} {stamp : Stamp} {want : Option Table}
      (hi : s.load i = .parsing stamp want) (hfile : s.file = none) :
      Step toml s (.parseSize i) (s.loadTo i (.inserting stamp none want))
  | parseOpen {s : State Table ι} {i : ι} {stamp : Stamp} {size : Nat} {want : Option Table}
      (hi : s.load i = .opening stamp size want) :
      Step toml s (.parseOpen i)
        (s.loadTo i (.inserting stamp (toml.parseConfigFile size s.file) want))
  | insert {s : State Table ι} {i : ι} {stamp : Stamp} {parsed want : Option Table}
      (hi : s.load i = .inserting stamp parsed want) :
      Step toml s (.insert i)
        ({ s with entry := some ⟨stamp, parsed⟩ }.loadTo i (.returned parsed want))
  | loadReturn {s : State Table ι} {i : ι} {table want : Option Table}
      (hi : s.load i = .returned table want) : Step toml s (.loadReturn i) (s.loadTo i .idle)
  | writeStart {s : State Table ι} {table : Table} (hwrite : s.write = .idle) :
      Step toml s (.writeStart table) ({ s with stored := none }.writeTo (.storing table))
  | store {s : State Table ι} {table : Table} (hwrite : s.write = .storing table)
      (hsize : (toml.print table).length ≤ kMaxConfigFileSizeBytes) :
      Step toml s .store (s.writeTo (.replacing table))
  -- the text is too long, or the temporary file cannot be opened
  | storeReturns {s : State Table ι} {table : Table} (hwrite : s.write = .storing table) :
      Step toml s .storeFails (s.writeTo .idle)
  -- it cannot be written or flushed
  | storeFails {s : State Table ι} {table : Table} (hwrite : s.write = .storing table) :
      Step toml s .storeFails (s.writeTo (.removing table false))
  | rename {s : State Table ι} {table : Table} {mtime : Nat} (hwrite : s.write = .replacing table)
      (hmtime : ∀ file, s.file = some file → file.mtime ≤ mtime) :
      Step toml s (.rename mtime)
        ({ s with file := some ⟨mtime, toml.print table⟩ }.writeTo (.invalidating table))
  | renameFails {s : State Table ι} {table : Table} (hwrite : s.write = .replacing table) :
      Step toml s .renameFails (s.writeTo (.removing table false))
  | invalidate {s : State Table ι} {table : Table} (hwrite : s.write = .invalidating table) :
      Step toml s .invalidate ({ s with entry := none }.writeTo (.syncing table))
  | sync {s : State Table ι} {table : Table} {success : Bool} (hwrite : s.write = .syncing table) :
      Step toml s (.sync success) (s.writeTo (.removing table success))
  | remove {s : State Table ι} {table : Table} {success : Bool}
        (hwrite : s.write = .removing table success) :
      Step toml s .remove
        ({ s with stored := if success then some table else none }.writeTo .idle)

/-- No load and no write is running. -/
def State.initial (file : Option File) : State Table ι where
  file := file
  entry := none
  load _ := .idle
  write := .idle
  stored := none

end TomlFileCache

end VKey
