import VKey.Config.OtherSections
import VKey.Support.Lines
import VKey.Text.WinStrings

/-!
# The macro table

The macros in the configuration file, and the text files that the two dialogs export and import.  A
file is the text that it has in UTF-8: all that the parser looks for are ASCII characters and the
mark in front of the text.
-/

namespace VKey

namespace MacroFiles

open ConfigManager (kMaxMacroKeyLen kMaxMacroValueLen)
open TomlTable (insertOrAssign)
open WinStrings

/-- What an `unordered_map` of macros has at a key. -/
abbrev Macros := List Char16 → Option (List Char16)

/-- A key or a value of at most so many code units, without control characters. -/
structure MacroText (limit : Nat) (text : List Char16) : Prop where
  length_pos : 1 ≤ text.length
  length_le : text.length ≤ limit
  wellFormed : WellFormedUtf16 text
  printable : ∀ c ∈ text, 0x20 ≤ c.toNat

/-- A macro table that the dialogs accept. -/
structure AcceptedMacros where
  entries : List (List Char16 × List Char16)
  nodup : (entries.map Prod.fst).Nodup
  key : ∀ entry ∈ entries, MacroText kMaxMacroKeyLen entry.1
  value : ∀ entry ∈ entries, MacroText kMaxMacroValueLen entry.2

def AcceptedMacros.at? (table : AcceptedMacros) : Macros := fun key => table.entries.lookup key

/-! ## The configuration file -/

/-- The loader, with the conversions that it calls. -/
def loadMacros (table : TomlTable) : Macros := ConfigManager.loadMacros WinStrings.utf8ToWide table

def saveMacros (table : TomlTable) (macros : AcceptedMacros) : TomlTable :=
  table.insertOrAssign "macros" (.table (macros.entries.foldl (fun sectionTbl entry =>
    insertOrAssign (WinStrings.wideToUtf8 entry.1)
      (.string (WinStrings.wideToUtf8 entry.2)) sectionTbl)
      ([] : TomlTable)))

/-! ## The lines of a text file -/

def stripCr (line : List Char) : List Char :=
  if line.getLast? = some '\r' then line.dropLast else line

def stripBom : List Char → List Char
  | c :: line => if c = '\uFEFF' then line else c :: line
  | [] => []

def isSkipped (line : List Char) : Bool :=
  line.isEmpty || line.head? == some ';' || line.head? == some '#'

/-- The loop of `ParseConfigLines` over the lines that `getline` reads. -/
def parseLines {σ : Type} (handler : σ → List Char → σ) : Bool → List (List Char) → σ → σ
  | _, [], s => s
  | firstLine, line :: rest, s =>
      let line := if firstLine then stripBom (stripCr line) else stripCr line
      parseLines handler false rest (if isSkipped line then s else handler s line)

def parseConfigLines {σ : Type} (input : List Char) (handler : σ → List Char → σ) (s : σ) : σ :=
  parseLines handler true (getLines '\n' [] input) s

/-- The texts before and behind the first colon, if there is one that is not in front. -/
def splitAtColon (line : List Char) : Option (String × String) :=
  let key := line.takeWhile (· ≠ ':')
  if ':' ∉ line ∨ key = [] then none
  else some (String.ofList key, String.ofList (line.drop (key.length + 1)))

/-- The order of the pairs of strings. -/
def entryLe (a b : List Char16 × List Char16) : Bool :=
  decide (a.1 < b.1) || (decide (a.1 = b.1) && decide (a.2 ≤ b.2))

def macroHeader : List Char := ";Compatible OpenKey Macro Data file*** version=1 ***".toList

def macroLine (entry : List Char16 × List Char16) : List Char :=
  (WinStrings.wideToUtf8 entry.1).toList ++ ':' :: (WinStrings.wideToUtf8 entry.2).toList

/-- The file that both dialogs write. -/
def macroFile (macros : AcceptedMacros) : List Char :=
  joinLines '\n' (macroHeader :: (macros.entries.mergeSort entryLe).map macroLine)

/-! ## The dialogs -/

namespace MacroTableDialog

def importLine (macros : Macros) (line : List Char) : Macros :=
  match splitAtColon line with
  | none => macros
  | some (key, value) =>
      if value.isEmpty then macros
      else
        let wKey := WinStrings.utf8ToWide key
        let wVal := WinStrings.utf8ToWide value
        if wKey.isEmpty || wVal.isEmpty then macros else Function.update macros wKey (some wVal)

/-- The table is cleared before the file is opened. -/
def importMacros (macros : Macros) (append : Bool) (infile : Option (List Char)) : Macros :=
  let macros := if append then macros else fun _ => none
  match infile with
  | none => macros
  | some input => parseConfigLines input importLine macros

def exportMacros (macros : AcceptedMacros) : List Char := macroFile macros

end MacroTableDialog

namespace ClassicMacroTableDialog

/-- The limits are in code units. -/
def importLine (macros : Macros) (line : List Char) : Macros :=
  match splitAtColon line with
  | none => macros
  | some (key, value) =>
      let k := WinStrings.utf8ToWide key
      let v := WinStrings.utf8ToWide value
      if !k.isEmpty && !v.isEmpty && k.length ≤ 32 && v.length ≤ 20480 then
        Function.update macros k (some v)
      else macros

def importFromFile (macros : Macros) (replace : Bool) (file : Option (List Char)) : Macros :=
  match file with
  | none => macros
  | some input => parseConfigLines input importLine (if replace then fun _ => none else macros)

def exportToFile (macros : AcceptedMacros) : List Char := macroFile macros

end ClassicMacroTableDialog

inductive MacroDialog where
  | sciter
  | classic
  deriving DecidableEq

namespace MacroDialog

def importLine : MacroDialog → Macros → List Char → Macros
  | sciter => MacroTableDialog.importLine
  | classic => ClassicMacroTableDialog.importLine

/-- The import, into the present table or in place of it; a file that cannot be opened is none. -/
def importFile : MacroDialog → Macros → Bool → Option (List Char) → Macros
  | sciter, macros, replace, file => MacroTableDialog.importMacros macros (!replace) file
  | classic, macros, replace, file => ClassicMacroTableDialog.importFromFile macros replace file

def exportFile : MacroDialog → AcceptedMacros → List Char
  | sciter => MacroTableDialog.exportMacros
  | classic => ClassicMacroTableDialog.exportToFile

end MacroDialog

end MacroFiles

end VKey
