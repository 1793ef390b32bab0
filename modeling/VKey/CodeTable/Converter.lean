import VKey.CodeTable.Tables
import VKey.Text.VietnameseTables

/-!
# The code table converter

Encoding maps each character on its own; decoding reads the units of a string from left to right
and joins a pair whenever the reverse map knows it.  The reverse maps are built from the forward
maps entry by entry; where two letters share an encoded value, a small letter replaces a capital.
-/

namespace VKey.CodeTableConverter

variable [WideCType]

/-! ## Characters -/

/-- The encoding of one character: one or two output units. -/
inductive EncodedChar where
  | single (unit : WChar)
  | pair (first second : WChar)
  deriving DecidableEq, Repr

/-- The output units of an encoded character. -/
def EncodedChar.units : EncodedChar → List WChar
  | .single unit => [unit]
  | .pair first second => [first, second]

/-- Read a VNI or CP 1258 value: low byte first, high byte second. -/
def decodeLoHi (value : Nat) : EncodedChar :=
  if value ≤ 0xFF then .single value
  else .pair (value % 0x100) (value / 0x100 % 0x100)

/-- Read a Unicode Compound value: the low byte is the base, the high byte selects the
combining mark. -/
def decodeCompound (value : Nat) : EncodedChar :=
  let hi := value / 0x100 % 0x100
  let lo := value % 0x100
  if hi < 0x20 then .single value
  else
    match kCombiningMarks[hi / 0x20 - 1]? with
    | some mark => .pair lo mark
    | none => .single value

/-- Encode one character; a character outside the forward map is copied. -/
def convertChar (ch : WChar) : CodeTable → EncodedChar
  | .unicode => .single ch
  | .tcvn3 => ((kTcvn3Map.lookup ch).map .single).getD (.single ch)
  | .vniWindows => ((kVniMap.lookup ch).map decodeLoHi).getD (.single ch)
  | .unicodeCompound => ((kUnicodeCompoundMap.lookup ch).map decodeCompound).getD (.single ch)
  | .vietnameseLocale => ((kCp1258Map.lookup ch).map decodeLoHi).getD (.single ch)

/-! ## Reverse maps -/

/-- A reverse map: encoded key to Unicode character. -/
abbrev ReverseMap := List (Nat × WChar)

/-- A lowercase Vietnamese character. -/
def isLowerViet (ch : WChar) : Bool :=
  toLowerVietnamese ch == ch && toUpperVietnamese ch != ch

/-- Enter a character under a key; an occupied key changes hands only from a character that is
not lowercase to one that is. -/
def ReverseMap.enter (rev : ReverseMap) (key : Nat) (wch : WChar) : ReverseMap :=
  match rev.lookup key with
  | none => rev ++ [(key, wch)]
  | some old =>
      if isLowerViet wch && !isLowerViet old then
        rev.map fun entry => if entry.1 = key then (key, wch) else entry
      else rev

/-- Build a reverse map: `keyOf` gives the key of an encoded value, if it has one. -/
def buildReverse (keyOf : Nat → Option Nat) (forward : CodeMap) : ReverseMap :=
  forward.foldl
    (fun rev entry => ((keyOf entry.2).map fun key => rev.enter key entry.1).getD rev) []

/-- The key of a pair of units, a 32-bit word. -/
def pairKey (first second : WChar) : Nat :=
  (first <<< 16) % 0x100000000 ||| second

/-- The reverse maps of a two-byte encoding. -/
structure ReversePairMap where
  single : ReverseMap
  pair : ReverseMap

/-- The TCVN3 reverse map. -/
def getTcvn3Reverse : ReverseMap :=
  buildReverse some kTcvn3Map

/-- The reverse maps of VNI Windows and CP 1258. -/
def buildReversePairMap (forward : CodeMap) : ReversePairMap where
  single := buildReverse (fun encoded => if encoded ≤ 0xFF then some encoded else none) forward
  pair := buildReverse (fun encoded =>
    if encoded ≤ 0xFF then none
    else some (pairKey (encoded % 0x100) (encoded / 0x100 % 0x100))) forward

/-- The key under which the compound reverse map enters an encoded value: only pairs have one. -/
def compoundKey (encoded : Nat) : Option Nat :=
  match decodeCompound encoded with
  | .pair base mark => some (pairKey base mark)
  | .single _ => none

/-- The Unicode Compound reverse map: pairs of a base and a mark. -/
def getCompoundReverse : ReverseMap :=
  buildReverse compoundKey kUnicodeCompoundMap

/-- The combining marks the decoder looks for. -/
def isCombiningMark (ch : WChar) : Bool :=
  ch == 0x0300 || ch == 0x0301 || ch == 0x0303 || ch == 0x0309 || ch == 0x0323

/-! ## Strings -/

/-- Decode a TCVN3 string unit by unit. -/
def decodeTcvn3 (input : List WChar) : List WChar :=
  input.map fun unit => (getTcvn3Reverse.lookup unit).getD unit

/-- Decode a Unicode Compound string: a unit and the combining mark after it are joined if the
reverse map knows the pair. -/
def decodeCompoundString (rev : ReverseMap) : List WChar → List WChar
  | [] => []
  | [unit] => [unit]
  | unit :: next :: rest =>
      if isCombiningMark next then
        match rev.lookup (pairKey unit next) with
        | some wch => wch :: decodeCompoundString rev rest
        | none => unit :: decodeCompoundString rev (next :: rest)
      else unit :: decodeCompoundString rev (next :: rest)

/-- Decode a VNI or CP 1258 string: a known pair first, then a known single unit. -/
def decodePairs (maps : ReversePairMap) : List WChar → List WChar
  | [] => []
  | [unit] => [(maps.single.lookup unit).getD unit]
  | unit :: next :: rest =>
      match maps.pair.lookup (pairKey unit next) with
      | some wch => wch :: decodePairs maps rest
      | none => (maps.single.lookup unit).getD unit :: decodePairs maps (next :: rest)

/-- Decode an encoded string back to Unicode. -/
def decodeString (input : List WChar) : CodeTable → List WChar
  | .unicode => input
  | .tcvn3 => decodeTcvn3 input
  | .unicodeCompound => decodeCompoundString getCompoundReverse input
  | .vniWindows => decodePairs (buildReversePairMap kVniMap) input
  | .vietnameseLocale => decodePairs (buildReversePairMap kCp1258Map) input

/-- Encode a Unicode string. -/
def encodeString (input : List WChar) (table : CodeTable) : List WChar :=
  match table with
  | .unicode => input
  | _ => input.flatMap fun ch => (convertChar ch table).units

end VKey.CodeTableConverter
