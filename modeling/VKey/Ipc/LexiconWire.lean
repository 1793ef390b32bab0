import VKey.Support.Lines
import VKey.Support.SortUnique
import VKey.Text.Utf16

/-!
# The lexicon wire

The application publishes the spell exclusions and the user dictionary in one block of memory, and
the readers validate their copy of the block before they use it: a header, the exclusions as lines,
an index of the words, and the words as lines.  Pointers into the block are addresses from its first
byte on.
-/

namespace VKey

namespace Wire

/-! ## Layout and limits -/

/-- "VLEX" -/
def wireMagic : Nat := 0x58454C56

def currentWireAbiVersion : Nat := 1

def wireHeaderSize : Nat := 128

def wireTotalSize : Nat := 144 * 1024

def exclusionsRegionOffset : Nat := 0x0080

def exclusionsRegionMaxBytes : Nat := 2176

def userDictIndexOffset : Nat := 0x0900

def userDictPoolOffset : Nat := 0x2900

def userDictPoolMaxBytes : Nat := 131072

def maxExclusionsRows : Nat := 8

def maxUserDictWords : Nat := 1024

def maxUserDictUtf16Units : Nat := 65536

def maxExclusionsUtf16Units : Nat := 1088

def minExclusionScalars : Nat := 2

def maxExclusionScalars : Nat := 128

def minDictWordScalars : Nat := 1

def maxDictWordScalars : Nat := 64

def maxDictWordUtf16Units : Nat := 128

namespace LexiconWireFlags

def spellSuggestEnabled : Nat := 0x00000001

def dictionaryValid : Nat := 0x00000002

def exclusionsValid : Nat := 0x00000004

end LexiconWireFlags

def newline : Char16 := 0x0A

/-- The width of `size_t`. -/
inductive SizeT where
  | bits32
  | bits64
  deriving DecidableEq, Repr

namespace SizeT

def bits : SizeT → Nat
  | bits32 => 32
  | bits64 => 64

/-- A product of type `size_t`. -/
def mul (size : SizeT) (a b : Nat) : Nat := a * b % 2 ^ size.bits

end SizeT

/-! ## Header and index -/

structure LexiconWireHeader where
  magic : Nat
  abiVersion : Nat
  headerSizeBytes : Nat
  totalSizeBytes : Nat
  seqlock : Nat
  generation : Nat
  crc32 : Nat
  flags : Nat
  payloadOffsetBytes : Nat
  payloadSizeBytes : Nat
  exclusionsOffsetBytes : Nat
  exclusionsLengthBytes : Nat
  exclusionsRowCount : Nat
  userDictOffsetBytes : Nat
  userDictLengthBytes : Nat
  userDictWordCount : Nat
  userDictUtf16Units : Nat
  exclusionsUtf16Units : Nat
  deriving DecidableEq, Repr

namespace LexiconWireHeader

/-- The widths of the fields and their values, without the reserved bytes behind them. -/
def fields (header : LexiconWireHeader) : List (Nat × Nat) :=
  [(4, header.magic), (2, header.abiVersion), (2, header.headerSizeBytes),
    (4, header.totalSizeBytes),
    (4, header.seqlock), (8, header.generation), (4, header.crc32), (4, header.flags),
    (4, header.payloadOffsetBytes), (4, header.payloadSizeBytes), (4, header.exclusionsOffsetBytes),
    (4, header.exclusionsLengthBytes), (4, header.exclusionsRowCount),
      (4, header.userDictOffsetBytes),
    (4, header.userDictLengthBytes), (4, header.userDictWordCount), (4, header.userDictUtf16Units),
    (4, header.exclusionsUtf16Units)]

/-- The fields in memory. -/
def bytes (header : LexiconWireHeader) : List UInt8 :=
  header.fields.flatMap fun field => encodeLE field.1 field.2

/-- The header at the start of a block. -/
def load (buffer : Memory) : LexiconWireHeader where
  magic := buffer.readLE 0x00 4
  abiVersion := buffer.readLE 0x04 2
  headerSizeBytes := buffer.readLE 0x06 2
  totalSizeBytes := buffer.readLE 0x08 4
  seqlock := buffer.readLE 0x0C 4
  generation := buffer.readLE 0x10 8
  crc32 := buffer.readLE 0x18 4
  flags := buffer.readLE 0x1C 4
  payloadOffsetBytes := buffer.readLE 0x20 4
  payloadSizeBytes := buffer.readLE 0x24 4
  exclusionsOffsetBytes := buffer.readLE 0x28 4
  exclusionsLengthBytes := buffer.readLE 0x2C 4
  exclusionsRowCount := buffer.readLE 0x30 4
  userDictOffsetBytes := buffer.readLE 0x34 4
  userDictLengthBytes := buffer.readLE 0x38 4
  userDictWordCount := buffer.readLE 0x3C 4
  userDictUtf16Units := buffer.readLE 0x40 4
  exclusionsUtf16Units := buffer.readLE 0x44 4

end LexiconWireHeader

/-- A word of the pool. -/
structure DictWordEntryWire where
  offsetUnits : Nat
  lengthUtf16Units : Nat
  scalarCount : Nat
  deriving DecidableEq, Repr

namespace DictWordEntryWire

def bytes (entry : DictWordEntryWire) : List UInt8 :=
  encodeLE 4 entry.offsetUnits ++ encodeLE 2 entry.lengthUtf16Units ++ encodeLE 2 entry.scalarCount

/-- The entry at an address. -/
def load (buffer : Memory) (addr : Nat) : DictWordEntryWire where
  offsetUnits := buffer.readLE addr 4
  lengthUtf16Units := buffer.readLE (addr + 4) 2
  scalarCount := buffer.readLE (addr + 6) 2

end DictWordEntryWire

/-! ## Checksum -/

/-- One bit of a table entry. -/
def crc32Bit (crc : UInt32) : UInt32 := (crc >>> 1) ^^^ (0xEDB88320 * (crc &&& 1))

def crc32TableEntry (byte : UInt8) : UInt32 := crc32Bit^[8] byte.toUInt32

/-- One byte of the checksum. -/
def crc32Byte (crc : UInt32) (byte : UInt8) : UInt32 :=
  (crc >>> 8) ^^^ crc32TableEntry (crc.toUInt8 ^^^ byte)

def computeCrc32 (bytes : List UInt8) : UInt32 :=
  if bytes.isEmpty then 0 else bytes.foldl crc32Byte 0xFFFFFFFF ^^^ 0xFFFFFFFF

/-! ## Serialization -/

structure LexiconWireSerializeParams where
  spellExclusions : List (List Char16)
  userDictionary : List (List Char16)
  generation : UInt64 := 0
  spellSuggestEnabled : Bool := true
  deriving DecidableEq, Repr

/-- Succeed under a condition. -/
def require (condition : Prop) [Decidable condition] (error : String) : Except String Unit :=
  if condition then .ok () else .error error

/-- Write the rows into the region of the exclusions, from a unit on; the units after them. -/
def writeExclusions (outBuffer : Memory) (units : Nat) :
    List (List Char16) → Except String (Memory × Nat)
  | [] => .ok (outBuffer, units)
  | row :: rows => do
      require (hasInvalidSurrogates row = false)
        "Spell exclusion row contains invalid or unpaired UTF-16 surrogate code point"
      let scalars := countUnicodeScalars row
      require (minExclusionScalars ≤ scalars ∧ scalars ≤ maxExclusionScalars)
        "Spell exclusion row scalar count must be between 2 and 128"
      require (units + row.length + 1 ≤ maxExclusionsUtf16Units)
        "Spell exclusions total UTF-16 units exceed region capacity (1088 units)"
      writeExclusions
        (outBuffer.write (exclusionsRegionOffset + 2 * units) (unitBytes (row ++ [newline])))
        (units + (row.length + 1)) rows

/-- Write the words into the pool, from a unit on, and their entries into the index, from an entry
on; the units after them. -/
def writeWords (outBuffer : Memory) (i units : Nat) :
    List (List Char16) → Except String (Memory × Nat)
  | [] => .ok (outBuffer, units)
  | word :: words => do
      require (hasInvalidSurrogates word = false)
        "User dictionary word contains invalid or unpaired UTF-16 surrogate code point"
      let scalars := countUnicodeScalars word
      require (minDictWordScalars ≤ scalars ∧ scalars ≤ maxDictWordScalars)
        "User dictionary word scalar count must be between 1 and 64"
      require (word.length ≤ maxDictWordUtf16Units)
        "User dictionary word UTF-16 units exceed limit (128 units)"
      require (units + word.length + 1 ≤ maxUserDictUtf16Units)
        "User dictionary total UTF-16 units exceed pool capacity (65536 units)"
      let entry : DictWordEntryWire := ⟨units, word.length, scalars⟩
      writeWords
        ((outBuffer.write (userDictIndexOffset + 8 * i) entry.bytes).write
          (userDictPoolOffset + 2 * units) (unitBytes (word ++ [newline])))
        (i + 1) (units + (word.length + 1)) words

/-- The words in the order of the index. -/
def sortedWords (params : LexiconWireSerializeParams) : List (List Char16) :=
  sortUnique compareUtf16ByUnicodeScalar params.userDictionary

/-- The header of a block, up to the checksum. -/
def headerOf (params : LexiconWireSerializeParams)
    (exclusionsUtf16Units userDictUtf16Units crc32 : Nat) : LexiconWireHeader where
  magic := wireMagic
  abiVersion := currentWireAbiVersion
  headerSizeBytes := wireHeaderSize
  totalSizeBytes := wireTotalSize
  seqlock := 0
  generation := params.generation.toNat
  crc32 := crc32
  flags :=
    (if params.spellSuggestEnabled then LexiconWireFlags.spellSuggestEnabled else 0) |||
      LexiconWireFlags.dictionaryValid ||| LexiconWireFlags.exclusionsValid
  payloadOffsetBytes := wireHeaderSize
  payloadSizeBytes := userDictPoolOffset - wireHeaderSize + userDictUtf16Units * 2
  exclusionsOffsetBytes := exclusionsRegionOffset
  exclusionsLengthBytes := exclusionsUtf16Units * 2
  exclusionsRowCount := params.spellExclusions.length
  userDictOffsetBytes := userDictPoolOffset
  userDictLengthBytes := userDictUtf16Units * 2
  userDictWordCount := (sortedWords params).length
  userDictUtf16Units := userDictUtf16Units
  exclusionsUtf16Units := exclusionsUtf16Units

/-- The bytes that the checksum covers. -/
def payload (buffer : Memory) (header : LexiconWireHeader) : List UInt8 :=
  buffer.read header.payloadOffsetBytes header.payloadSizeBytes

/-- `LexiconWireSerializer::Serialize`; a missing buffer is one of no bytes.  What has been written
before an error is not used. -/
def serialize (params : LexiconWireSerializeParams) (outBuffer : Memory) (bufferSize : Nat) :
    Except String Memory := do
  require (wireTotalSize ≤ bufferSize)
    "Output buffer is null or smaller than WIRE_TOTAL_SIZE (144 KiB)"
  require (params.spellExclusions.length ≤ maxExclusionsRows)
    "Spell exclusions row count exceeds maximum limit (8)"
  let outBuffer := outBuffer.fill 0 wireTotalSize 0
  let (outBuffer, exclusionsUtf16Units) ← writeExclusions outBuffer 0 params.spellExclusions
  require ((sortedWords params).length ≤ maxUserDictWords)
    "User dictionary unique words exceed maximum limit (1024)"
  let (outBuffer, userDictUtf16Units) ← writeWords outBuffer 0 0 (sortedWords params)
  let header := headerOf params exclusionsUtf16Units userDictUtf16Units
  let crc32 := computeCrc32 (payload outBuffer (header 0))
  return outBuffer.write 0 (header crc32.toNat).bytes

/-! ## Validation -/

/-- What has been validated, as pointers into the block. -/
structure LexiconWireView where
  header : Nat
  exclusionsBuf : Nat
  exclusionsUnits : Nat
  exclusionsRowCount : Nat
  userDictBuf : Nat
  userDictUnits : Nat
  indexEntries : Nat
  wordCount : Nat
  deriving DecidableEq, Repr

/-- The view of a block with a header. -/
def viewOf (header : LexiconWireHeader) : LexiconWireView where
  header := 0
  exclusionsBuf := header.exclusionsOffsetBytes
  exclusionsUnits := header.exclusionsUtf16Units
  exclusionsRowCount := header.exclusionsRowCount
  userDictBuf := header.userDictOffsetBytes
  userDictUnits := header.userDictUtf16Units
  indexEntries := userDictIndexOffset
  wordCount := header.userDictWordCount

/-- Validate the rows that end with a newline. -/
def validateRows : List (List Char16) → Except String Unit
  | [] => .ok ()
  | row :: rows => do
      require (row ≠ []) "Spell exclusions contain empty row"
      require (hasInvalidSurrogates row = false)
        "Spell exclusion row contains invalid or unpaired UTF-16 surrogate code point"
      let scalars := countUnicodeScalars row
      require (minExclusionScalars ≤ scalars ∧ scalars ≤ maxExclusionScalars)
        "Spell exclusion row scalar count out of allowed bounds (2..128)"
      validateRows rows

/-- The unit at an index of the pool. -/
def poolUnit (buffer : Memory) (i : Nat) : Char16 :=
  UInt16.ofNat (buffer.readLE (userDictPoolOffset + 2 * i) 2)

/-- The word of an entry. -/
def wordOf (buffer : Memory) (entry : DictWordEntryWire) : List Char16 :=
  buffer.readUnits (userDictPoolOffset + 2 * entry.offsetUnits) entry.lengthUtf16Units

/-- Validate entries of the index, where `prevWord` is the word before them. -/
def validateEntries (buffer : Memory) (userDictUtf16Units : Nat) (prevWord : Option (List Char16)) :
    List DictWordEntryWire → Except String Unit
  | [] => .ok ()
  | entry :: entries => do
      require (entry.offsetUnits < userDictUtf16Units ∧
          entry.lengthUtf16Units < userDictUtf16Units - entry.offsetUnits)
        "Index entry bounds exceed text pool units"
      require (poolUnit buffer (entry.offsetUnits + entry.lengthUtf16Units) = newline)
        "Index entry missing newline delimiter in text pool"
      require (1 ≤ entry.lengthUtf16Units ∧ entry.lengthUtf16Units ≤ maxDictWordUtf16Units)
        "Index entry UTF-16 length out of allowed bounds"
      require (minDictWordScalars ≤ entry.scalarCount ∧ entry.scalarCount ≤ maxDictWordScalars)
        "Index entry scalar count out of allowed bounds"
      let currentWord := wordOf buffer entry
      require (hasInvalidSurrogates currentWord = false)
        "User dictionary word contains invalid or unpaired UTF-16 surrogate code point"
      require (countUnicodeScalars currentWord = entry.scalarCount)
        "Index entry scalarCount does not match actual decoded Unicode scalars in word"
      require (∀ prev ∈ prevWord, compareUtf16ByUnicodeScalar prev currentWord = .lt)
        "User dictionary index entries not strictly monotonically sorted"
      validateEntries buffer userDictUtf16Units (some currentWord) entries

/-- The entries of the index. -/
def indexTable (buffer : Memory) (wordCount : Nat) : List DictWordEntryWire :=
  (List.range wordCount).map fun i => DictWordEntryWire.load buffer (userDictIndexOffset + 8 * i)

/-- The lines of the exclusions, as far as they end with a newline. -/
def exclusionLines (buffer : Memory) (header : LexiconWireHeader) : List (List Char16) :=
  terminatedLines newline []
    (buffer.readUnits header.exclusionsOffsetBytes header.exclusionsUtf16Units)

/-- Validate the exclusions; without rows nothing is checked. -/
def validateExclusions (buffer : Memory) (header : LexiconWireHeader) : Except String Unit :=
  if 0 < header.exclusionsRowCount then do
    validateRows (exclusionLines buffer header)
    require ((exclusionLines buffer header).length = header.exclusionsRowCount)
      "Spell exclusions row count mismatch with actual newline delimiters"
  else .ok ()

/-- The checks of the header. -/
def validateHeader (size : SizeT) (header : LexiconWireHeader) : Except String Unit := do
  require (header.magic = wireMagic) "Wire magic mismatch"
  require (header.abiVersion = currentWireAbiVersion) "Unsupported wire ABI version"
  require (header.headerSizeBytes = wireHeaderSize) "Invalid wire header size"
  require (header.totalSizeBytes = wireTotalSize) "Invalid total size in header"
  require (header.payloadOffsetBytes = wireHeaderSize) "Invalid payload offset"
  require (header.payloadSizeBytes ≤ wireTotalSize - wireHeaderSize)
    "Payload size exceeds total buffer capacity"
  require (header.exclusionsOffsetBytes = exclusionsRegionOffset) "Invalid exclusions region offset"
  require (header.exclusionsLengthBytes ≤ exclusionsRegionMaxBytes)
    "Exclusions length bytes exceed region maximum"
  require (size.mul header.exclusionsUtf16Units 2 = header.exclusionsLengthBytes)
    "Exclusions UTF-16 units inconsistent with byte length"
  require (header.exclusionsRowCount ≤ maxExclusionsRows)
    "Exclusions row count exceeds maximum limit"
  require (header.userDictOffsetBytes = userDictPoolOffset) "Invalid user dictionary pool offset"
  require (header.userDictLengthBytes ≤ userDictPoolMaxBytes)
    "User dictionary length bytes exceed pool maximum"
  require (size.mul header.userDictUtf16Units 2 = header.userDictLengthBytes)
    "User dictionary UTF-16 units inconsistent with byte length"
  require (header.userDictWordCount ≤ maxUserDictWords)
    "User dictionary word count exceeds maximum limit"
  require (header.userDictUtf16Units ≤ maxUserDictUtf16Units)
    "User dictionary UTF-16 units exceed maximum limit"
  require (header.payloadSizeBytes =
      userDictPoolOffset - wireHeaderSize + header.userDictLengthBytes)
    "Payload size does not match exact active sections size"

/-- `LexiconWireDeserializer::ValidateAndInspect` -/
def validateAndInspect (size : SizeT) (wireBuffer : Memory) (bufferSize : Nat) :
    Except String LexiconWireView := do
  require (wireTotalSize ≤ bufferSize)
    "Buffer is null or smaller than WIRE_TOTAL_SIZE (144 KiB)"
  let header := LexiconWireHeader.load wireBuffer
  validateHeader size header
  require ((computeCrc32 (payload wireBuffer header)).toNat = header.crc32)
    "CRC32 checksum mismatch in wire payload"
  validateExclusions wireBuffer header
  validateEntries wireBuffer header.userDictUtf16Units none
    (indexTable wireBuffer header.userDictWordCount)
  return viewOf header

/-! ## Deserialization -/

/-- What `Deserialize` gives. -/
structure LexiconWireContent where
  exclusions : List (List Char16)
  userDict : List (List Char16)
  generation : Nat
  spellSuggestEnabled : Bool
  deriving DecidableEq, Repr

/-- Extract the rows of the exclusions: empty lines are no rows. -/
def extractExclusions (wireBuffer : Memory) (view : LexiconWireView) :
    Logged (List (List Char16)) := do
  if 0 < view.exclusionsUnits then
    let exclChars ← wireBuffer.loadUnits view.exclusionsBuf view.exclusionsUnits
    return (terminatedLines newline [] exclChars).filter (!·.isEmpty)
  else
    return []

/-- Extract a word through its entry. -/
def extractWord (wireBuffer : Memory) (view : LexiconWireView) (i : Nat) :
    Logged (List Char16) := do
  let offsetUnits ← wireBuffer.loadLE (view.indexEntries + 8 * i) 4
  let lengthUtf16Units ← wireBuffer.loadLE (view.indexEntries + 8 * i + 4) 2
  wireBuffer.loadUnits (view.userDictBuf + 2 * offsetUnits) lengthUtf16Units

/-- What `Deserialize` reads through a view that has been validated. -/
def extract (wireBuffer : Memory) (view : LexiconWireView) : Logged LexiconWireContent := do
  let generation ← wireBuffer.loadLE (view.header + 0x10) 8
  let flags ← wireBuffer.loadLE (view.header + 0x1C) 4
  let exclusions ← extractExclusions wireBuffer view
  let userDict ← (List.range view.wordCount).mapM (extractWord wireBuffer view)
  return {
    exclusions, userDict, generation
    spellSuggestEnabled := flags &&& LexiconWireFlags.spellSuggestEnabled != 0 }

/-- `LexiconWireDeserializer::Deserialize`, with what is read after the validation. -/
def deserialize (size : SizeT) (wireBuffer : Memory) (bufferSize : Nat) :
    Except String (Logged LexiconWireContent) := do
  let view ← validateAndInspect size wireBuffer bufferSize
  return extract wireBuffer view

end Wire

end VKey
