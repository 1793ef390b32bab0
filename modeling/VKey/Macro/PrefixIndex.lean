import VKey.Support.SortedSearch
import VKey.Text.WideChar

/-!
# The index of macro keys with spaces

While a macro key with spaces is being typed, the words before the last space must not be
forgotten.  `isSpaceMacroPrefix` decides by a plain scan whether a candidate begins a key, and
`MacroPrefixIndex` by a search among the sorted keys.  A set of keys is the list of its elements
in the order of its iteration, which may be any.
-/

namespace VKey

variable [AsciiCType]

/-! ## The plain scan -/

/-- The key has an uppercase letter. -/
def hasUpper (key : List WChar) : Bool := key.any AsciiCType.iswupper

/-- The candidate is a nonempty prefix of a key: as it is typed, if the key has an uppercase
letter, and in lowercase otherwise. -/
def isSpaceMacroPrefix (candidate : List WChar) (spaceKeys : List (List WChar)) : Bool :=
  if spaceKeys.isEmpty || candidate.isEmpty then false
  else
    let candLower := candidate.map AsciiCType.towlower
    spaceKeys.any fun key =>
      if key.length < candidate.length then false
      else if hasUpper key then compareStart key candidate == .eq
      else compareStart key candLower == .eq

/-! ## The index -/

/-- What the letters of a key say of its case. -/
inductive KeyCase where
  /-- ASCII without an uppercase letter. -/
  | flexible
  /-- With an uppercase ASCII letter. -/
  | strict
  /-- With a letter beyond ASCII, whose case is a matter of the locale. -/
  | localeDependent
  deriving DecidableEq, Repr

/-- The case of a key whose first characters have been read. -/
def keyCaseFrom (rule : KeyCase) : List WChar → KeyCase
  | [] => rule
  | ch :: key =>
      if L 'A' ≤ ch ∧ ch ≤ L 'Z' then .strict
      else keyCaseFrom (if 127 < ch then .localeDependent else rule) key

/-- The case of a key. -/
def keyCase (key : List WChar) : KeyCase := keyCaseFrom .flexible key

namespace MacroPrefixIndex

/-- Where a key stands in the indexed text. -/
structure Key where
  offset : Nat
  length : Nat
  caseRule : KeyCase
  deriving DecidableEq, Repr

/-- The indexed keys: their concatenation, and their numbers in the order of the keys. -/
structure Data where
  text : List WChar := []
  keys : List Key := []
  sorted : List Nat := []
  /-- The first characters of the keys that can match in lowercase. -/
  foldStarts : List WChar := []
  maxLength : Nat := 0
  /-- The length of the longest prefix of all keys. -/
  commonLength : Nat := 0

/-- The text of a key. -/
def Data.view (data : Data) (id : Nat) : List WChar :=
  match data.keys[id]? with
  | some key => (data.text.drop key.offset).take key.length
  | none => []

/-- The case of an indexed key. -/
def Data.caseRule (data : Data) (id : Nat) : KeyCase :=
  (data.keys[id]?.map Key.caseRule).getD .flexible

/-- Append a key. -/
def Data.addKey (data : Data) (key : List WChar) : Data :=
  { data with
    sorted := data.sorted ++ [data.keys.length]
    keys := data.keys ++ [⟨data.text.length, key.length, keyCase key⟩]
    text := data.text ++ key
    maxLength := max data.maxLength key.length }

/-- The length of the longest common prefix. -/
def commonPrefixLength : List WChar → List WChar → Nat
  | a :: low, b :: high => if a = b then commonPrefixLength low high + 1 else 0
  | _, _ => 0

/-- Record the first character of a key that can match in lowercase. -/
def Data.pushStart (data : Data) (starts : List WChar) (id : Nat) : List WChar :=
  match data.view id with
  | [] => starts
  | ch :: _ =>
      if data.caseRule id = .strict then starts
      else if starts.getLast? = some ch then starts else starts ++ [ch]

/-- Sort the keys and derive what filters a search. -/
def Data.sort (data : Data) : Data :=
  let sorted := data.sorted.mergeSort fun left right =>
    (compare (data.view left) (data.view right)).isLE
  { data with
    sorted
    commonLength :=
      commonPrefixLength (data.view (sorted.headD 0)) (data.view (sorted.getLastD 0))
    foldStarts := sorted.foldl data.pushStart [] }

end MacroPrefixIndex

/-- The index.  Its first key is kept apart. -/
structure MacroPrefixIndex where
  data : Option MacroPrefixIndex.Data := none
  firstKey : List WChar := []
  firstCase : KeyCase := .flexible

namespace MacroPrefixIndex

/-- The index of a set of keys. -/
def new : List (List WChar) → MacroPrefixIndex
  | [] => {}
  | key :: keys =>
      { data := some ((key :: keys).foldl Data.addKey {}).sort
        firstKey := key
        firstCase := keyCase key }

/-! ## Searching the index -/

/-- `hasUpper`, for a key of known case. -/
def hasUpper (key : List WChar) (rule : KeyCase) : Bool :=
  if rule ≠ .localeDependent then rule == .strict
  else key.any fun ch => decide (127 < ch) && AsciiCType.iswupper ch

/-- `towlower`, without the call for ASCII characters that it does not change. -/
def fold (ch : WChar) : WChar :=
  if (L 'A' ≤ ch ∧ ch ≤ L 'Z') ∨ 127 < ch then AsciiCType.towlower ch else ch

/-- Compare a key with the lowercase of a candidate. -/
def compareFolded : List WChar → List WChar → Ordering
  | _, [] => .eq
  | [], _ :: _ => .lt
  | k :: key, c :: candidate =>
      if k < fold c then .lt else if fold c < k then .gt else compareFolded key candidate

/-- Compare a key with a candidate, or with its lowercase.  A key that the candidate begins is
equal to it. -/
def comparePrefix (key candidate : List WChar) (folded : Bool) : Ordering :=
  if folded then compareFolded key candidate else compareStart key candidate

namespace Data

/-- The sorted keys from the first one on that is not smaller than a query. -/
def find (data : Data) (query : List WChar) (folded : Bool) : List Nat :=
  let length := min data.commonLength query.length
  if length ≠ 0 ∧
      comparePrefix ((data.view (data.sorted.headD 0)).take length) (query.take length) folded
        ≠ .eq then []
  else
    data.sorted.drop
      (lowerBound data.sorted fun id => comparePrefix (data.view id) query folded == .lt)

/-- Look for a key with an uppercase letter among those the candidate begins: `none` if there is
one, and otherwise whether there is any key at all. -/
def scanStrict (data : Data) (candidate : List WChar) : Bool → List Nat → Option Bool
  | rawFlexible, [] => some rawFlexible
  | rawFlexible, id :: ids =>
      if comparePrefix (data.view id) candidate false ≠ .eq then some rawFlexible
      else if hasUpper (data.view id) (data.caseRule id) then none
      else data.scanStrict candidate true ids

/-- Look for a key without an uppercase letter among those the query begins. -/
def scanFlexible (data : Data) (query : List WChar) (folded : Bool) : List Nat → Bool
  | [] => false
  | id :: ids =>
      if comparePrefix (data.view id) query folded ≠ .eq then false
      else if !hasUpper (data.view id) (data.caseRule id) then true
      else data.scanFlexible query folded ids

/-- Size of the scratch buffer for the lowercase of a candidate. -/
def kInlineFoldChars : Nat := 32

/-- Search all keys, first for the candidate as it is, then for its lowercase. -/
def containsOtherPrefixes (data : Data) (candidate : List WChar) : Bool :=
  match data.scanStrict candidate false (data.find candidate false) with
  | none => true
  | some rawFlexible =>
      let first := fold (candidate.headD 0)
      if data.foldStarts.isEmpty || !binarySearch data.foldStarts first then false
      else
        let normalized := decide (candidate.length ≤ kInlineFoldChars)
        let folded := if normalized then first :: candidate.tail.map fold else candidate
        if normalized && rawFlexible && folded == candidate then true
        else data.scanFlexible folded (!normalized) (data.find folded (!normalized))

end Data

/-- The candidate is a nonempty prefix of a key. -/
def containsPrefix (index : MacroPrefixIndex) (candidate : List WChar) : Bool :=
  match index.data with
  | none => false
  | some data =>
      if candidate.isEmpty then false
      else if candidate.length ≤ index.firstKey.length ∧
          comparePrefix index.firstKey candidate (!hasUpper index.firstKey index.firstCase) = .eq
        then true
      else if data.keys.length = 1 ∨ data.maxLength < candidate.length then false
      else data.containsOtherPrefixes candidate

end MacroPrefixIndex

end VKey
