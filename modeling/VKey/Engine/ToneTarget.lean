import VKey.Engine.State

/-!
# Where the tone goes

The tone of a word sits on one vowel, which the phonotactics choose from the vowel sequence.  When
a letter or a modifier changes the choice, the tone is relocated; it never crosses a consonant.
All of these functions look at the character states alone.
-/

namespace VKey

variable [WideCType]

/-! ## Updating single states -/

/-- Put a modifier on the state at an index. -/
def setMod (states : List CharState) (i : Nat) (mod : Modifier) : List CharState :=
  states.modify i fun s => { s with mod }

/-- Put a tone, and the raw index of its key, on the state at an index. -/
def setTone (states : List CharState) (i : Nat) (tone : Tone) (toneRawIdx : Option Nat) :
    List CharState :=
  states.modify i fun s => { s with tone, toneRawIdx }

/-- If `o` at the index and the `u` before it are both modified, clear the `u`. -/
def undoHornU (states : List CharState) (oIndex : Nat) : List CharState :=
  if 0 < oIndex ∧ (stateAt states oIndex).base = L 'o' ∧ (stateAt states oIndex).hasModifier ∧
      (stateAt states (oIndex - 1)).base = L 'u' ∧ (stateAt states (oIndex - 1)).hasModifier then
    setMod states (oIndex - 1) .none
  else states

/-- Put a vowel modifier on a state; a circumflex takes the horn off a preceding `ư`. -/
def setVowelMod (states : List CharState) (idx : Nat) (mod : Modifier) : List CharState :=
  let states := setMod states idx mod
  if mod = .circumflex then undoHornU states idx else states

/-! ## The tone target -/

/-- The number of vowels that tone placement looks at. -/
def kVowelCap : Nat := 16

/-- The state as tone placement sees it: small and without its tone. -/
def CharState.canonical (s : CharState) : CharState :=
  { s with tone := .none, isUpper := false }

/-- The indices of the nucleus vowels. -/
def nucleusIndices (states : List CharState) : List Nat :=
  ((List.range states.length).filter fun i =>
    (stateAt states i).isVowel && !isClusterConsonant states i &&
      compose (stateAt states i).canonical != 0).take kVowelCap

/-- The index of the state the tone belongs on. -/
def findToneTarget (modernOrtho : Bool) (states : List CharState) : Option Nat :=
  let vowelStateIdx := nucleusIndices states
  let vowelSeq := vowelStateIdx.map fun i => compose (stateAt states i).canonical
  match vowelStateIdx.getLast? with
  | none => none
  | some last =>
      let coda :=
        (((states.drop (last + 1)).map fun s => compose { s with isUpper := false }).filter
        (· != 0)).take kVowelCap
      (Phonology.findTonePosition vowelSeq coda modernOrtho).bind fun vowelIdx =>
        vowelStateIdx[vowelIdx]?

/-- The index of the first vowel that carries a tone. -/
def findTonedVowelIndex (states : List CharState) : Option Nat :=
  states.findIdx? fun s => s.isVowel && s.hasTone

/-- A state strictly between two indices is no vowel. -/
def hasConsonantBetween (states : List CharState) (fromIdx toIdx : Nat) : Bool :=
  let lo := min fromIdx toIdx
  let hi := max fromIdx toIdx
  ((states.take hi).drop (lo + 1)).any (!·.isVowel)

/-! ## Relocation -/

/-- The target is the last of two adjacent vowels without a diphthong rule: the tone stays where
it is. -/
def isToneRelocBlockedByP4 (states : List CharState) (targetIdx : Nat) (modernOrtho : Bool) :
    Bool :=
  let isNucleus := fun i => (stateAt states i).isVowel && !isClusterConsonant states i
  if (stateAt states targetIdx).hasModifier then false
  else
    match scanDown isNucleus states.length with
    | none => false
    | some vLast =>
        match scanDown isNucleus vLast with
        | none => false
        | some v2nd =>
            if targetIdx ≠ vLast ∨ vLast ≠ v2nd + 1 then false
            else
              match diphthongVowelIndex (stateAt states v2nd).base,
                  diphthongVowelIndex (stateAt states vLast).base with
              | some fi, some li => diphthongRule modernOrtho fi li == 0
              | _, _ => false

/-- The index the tone leaves and the one it moves to, if it is to be relocated. -/
def relocationToTarget (modernOrtho : Bool) (states : List CharState) : Option (Nat × Nat) :=
  match findTonedVowelIndex states, findToneTarget modernOrtho states with
  | some tonedIdx, some targetIdx =>
      if targetIdx = tonedIdx then none
      else if hasConsonantBetween states tonedIdx targetIdx then none
      else if isToneRelocBlockedByP4 states targetIdx modernOrtho then none
      else some (tonedIdx, targetIdx)
  | _, _ => none

/-- Move the tone and its raw index to the vowel it belongs on. -/
def relocateToneToTarget (modernOrtho : Bool) (states : List CharState) : List CharState :=
  match relocationToTarget modernOrtho states with
  | none => states
  | some (tonedIdx, targetIdx) =>
      let toned := stateAt states tonedIdx
      setTone (setTone states targetIdx toned.tone toned.toneRawIdx) tonedIdx .none none

/-- The index the tone leaves and the horned vowel it moves to, if it is to be relocated. -/
def relocationToHornVowel (states : List CharState) : Option (Nat × Nat) :=
  match scanDown (fun i => (stateAt states i).isVowel && (stateAt states i).isHorn) states.length,
      scanDown (fun i => (stateAt states i).isVowel && (stateAt states i).hasTone)
        states.length with
  | some hornIdx, some tonedIdx =>
      let mod := (stateAt states tonedIdx).mod
      if hornIdx ≠ tonedIdx ∧ (mod = .none ∨ mod = .horn) ∧
          !hasConsonantBetween states tonedIdx hornIdx then some (tonedIdx, hornIdx)
      else none
  | _, _ => none

/-- Move the tone to the horned vowel.  The raw index of the tone key stays behind. -/
def relocateToneToHornVowel (states : List CharState) : List CharState :=
  match relocationToHornVowel states with
  | none => states
  | some (tonedIdx, hornIdx) =>
      let tone := (stateAt states tonedIdx).tone
      (states.modify hornIdx fun s => { s with tone }).modify tonedIdx
        fun s => { s with tone := .none }

/-! ## Completing `ươ` -/

/-- `uơ` to `ươ`. -/
def hornLeadingU (states : List CharState) (i : Nat) : List CharState :=
  if (stateAt states i).base = L 'u' ∧ (stateAt states i).mod = .none ∧
      (stateAt states (i + 1)).base = L 'o' ∧ (stateAt states (i + 1)).mod = .horn then
    setMod states i .horn
  else states

/-- `ưo` to `ươ`, and the tone relocated. -/
def hornTrailingO (modernOrtho : Bool) (states : List CharState) (i : Nat) : List CharState :=
  if (stateAt states i).base = L 'u' ∧ (stateAt states i).mod = .horn ∧
      (stateAt states (i + 1)).base = L 'o' ∧ (stateAt states (i + 1)).mod = .none then
    relocateToneToTarget modernOrtho (setMod states (i + 1) .horn)
  else states

/-- One position of the scan that completes `uơ` and `ưo` to `ươ`. -/
def autoUOAt (modernOrtho : Bool) (states : List CharState) (i : Nat) : List CharState :=
  if 0 < i ∧ (stateAt states i).base = L 'u' ∧ (stateAt states (i - 1)).base = L 'q' then states
  else hornTrailingO modernOrtho (hornLeadingU states i) i

/-- Complete `uơ` and `ưo` to `ươ` among the last four states once a letter follows them. -/
def applyAutoUO (modernOrtho : Bool) (states : List CharState) : List CharState :=
  let start := states.length - 4
  (List.range' start (states.length - 2 - start)).foldl (autoUOAt modernOrtho) states

/-! ## Stop codas -/

/-- The buffer ends in a stop consonant (`c ch k p t`) after a vowel. -/
def hasStopFinalCoda (states : List CharState) : Bool :=
  match scanDown (fun i => (stateAt states i).isVowel) states.length with
  | none => false
  | some lastVowel =>
      let codaStart := lastVowel + 1
      let codaLen := states.length - codaStart
      let c0 := towlower (stateAt states codaStart).base
      let c1 := towlower (stateAt states (codaStart + 1)).base
      if codaLen = 1 then [L 'c', L 'k', L 'p', L 't'].contains c0
      else if codaLen = 2 then c0 == L 'c' && c1 == L 'h'
      else false

/-- The tone of the buffer does not go with its stop coda. -/
def isToneStopCodaMismatch (states : List CharState) : Bool :=
  hasStopFinalCoda states &&
    ((states.find? (·.hasTone)).map fun s =>
      s.tone == .grave || s.tone == .hook || s.tone == .tilde).getD false

end VKey
