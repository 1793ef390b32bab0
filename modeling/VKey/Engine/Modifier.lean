import VKey.Engine.SpellCheck

/-!
# Modifier keys

One handler for each modifier action.  A handler either consumes the key (it changes a modifier,
inserts a letter, or takes one back and emits the key as a letter) or leaves the key to be a
letter.
-/

namespace VKey

variable [WideCType]

namespace TypingEngine

/-- Replace the states. -/
def withStates (e : TypingEngine) (states : List CharState) : TypingEngine := { e with states }

/-- The states with the tone relocated to its target. -/
def relocated (e : TypingEngine) (states : List CharState) : TypingEngine :=
  e.withStates (relocateToneToTarget e.config.modernOrtho states)

/-- The states with the tone relocated to the horned vowel. -/
def hornRelocated (e : TypingEngine) (states : List CharState) : TypingEngine :=
  e.withStates (relocateToneToHornVowel states)

/-- Take modifiers back: the new states, the key as a letter, and the escape. -/
def escapeTo (e : TypingEngine) (states : List CharState) (c : WChar) (kind : EscapeKind) :
    TypingEngine :=
  { (e.withStates states).processKeyChar c with escape := kind }

/-- The raw key before the current one is the same key. -/
def isRepeatedKey (e : TypingEngine) (c : WChar) : Bool :=
  decide (2 ≤ e.rawInput.length) &&
    towlower (e.rawInput.getD (e.rawInput.length - 2) 0) == towlower c

/-- The last state, an empty one without states. -/
def lastState (e : TypingEngine) : CharState := stateAt e.states (e.states.length - 1)

/-- The buffer ends in three vowels, the last one given, that form a triphthong. -/
def endsInTriphthong (e : TypingEngine) : Bool :=
  let n := e.states.length
  decide (3 ≤ n) && (stateAt e.states (n - 3)).isVowel && (stateAt e.states (n - 2)).isVowel &&
    isTriphthong (stateAt e.states (n - 3)).base (stateAt e.states (n - 2)).base e.lastState.base

/-! ## Inserting letters -/

/-- The key has been pressed again right after it inserted the last letter. -/
def takesInsertBack (e : TypingEngine) (base : WChar) (mod : Modifier) (c : WChar) : Bool :=
  !e.states.isEmpty && e.isRepeatedKey c && e.lastState.base == base && e.lastState.mod == mod

/-- Insert a modified letter for a key; a repeated key takes the letter back and is emitted
itself. -/
def insertLetter (e : TypingEngine) (base : WChar) (mod : Modifier) (isUpper : Bool)
    (kind : EscapeKind) (c : WChar) : TypingEngine × Bool :=
  if e.takesInsertBack base mod c then
    let popped := e.withStates e.states.dropLast
    ({ (popped.eraseConsumedRaw e.lastState.rawIdx).processKeyChar c with escape := kind }, true)
  else (e.pushState { base, mod, isUpper, rawIdx := e.nextRawIdx }, true)

/-- The bracket keys: insert `ơ` or `ư`. -/
def handleHornInsert (e : TypingEngine) (action : TypingAction) (c : WChar) :
    TypingEngine × Bool :=
  if e.config.inputMethod = .simpleTelex then (e, false)
  else
    let baseVowel := if action = .hornInsertO then L 'o' else L 'u'
    e.insertLetter baseVowel .horn e.activeKeyUppercase .horn c

/-- The letter an insert action stands for: base, modifier and case. -/
def insertedLetter : TypingAction → Option (WChar × Modifier × Bool)
  | .insertABreve => some (L 'a', .breve, false)
  | .insertABreveUpper => some (L 'a', .breve, true)
  | .insertACircumflex => some (L 'a', .circumflex, false)
  | .insertACircumflexUpper => some (L 'a', .circumflex, true)
  | .insertDStroke => some (L 'd', .stroke, false)
  | .insertDStrokeUpper => some (L 'd', .stroke, true)
  | .insertECircumflex => some (L 'e', .circumflex, false)
  | .insertECircumflexUpper => some (L 'e', .circumflex, true)
  | .insertOCircumflex => some (L 'o', .circumflex, false)
  | .insertOCircumflexUpper => some (L 'o', .circumflex, true)
  | .insertOHorn => some (L 'o', .horn, false)
  | .insertOHornUpper => some (L 'o', .horn, true)
  | .insertUHorn => some (L 'u', .horn, false)
  | .insertUHornUpper => some (L 'u', .horn, true)
  | _ => none

/-- The escape of a modifier. -/
def escapeKindOf : Modifier → EscapeKind
  | .horn => .horn
  | .circumflex => .circumflex
  | .breve => .breve
  | .stroke => .stroke
  | .none => .modifier

/-- Insert a letter of the user's key map. -/
def handleInsertChar (e : TypingEngine) (action : TypingAction) (keyChar : WChar) :
    TypingEngine × Bool :=
  match insertedLetter action with
  | none => (e, false)
  | some (base, mod, upper) => e.insertLetter base mod upper (escapeKindOf mod) keyChar

/-! ## Telex circumflex -/

/-- The buffer is the reverted `use` of a toned `u`. -/
def isLiteralUse (e : TypingEngine) : Bool :=
  let s0 := stateAt e.states 0
  let s1 := stateAt e.states 1
  let s2 := stateAt e.states 2
  e.states.length == 3 && towlower s0.base == L 'u' && s0.mod == .none &&
    towlower s1.base == L 's' && towlower s2.base == L 'e' && s2.mod == .none &&
    decide (4 ≤ e.rawInput.length) &&
    towlower (e.rawInput.getD 0 0) == L 'u' && towlower (e.rawInput.getD 1 0) == L 's' &&
    towlower (e.rawInput.getD 2 0) == L 'e'

/-- `use` + `e`: the letter `s` becomes an acute tone again, on `ê`. -/
def unrevertUse (e : TypingEngine) : TypingEngine :=
  let states := setVowelMod (e.states.eraseIdx 1) 1 .circumflex
  (e.relocated (setTone states 1 .acute (some 1))).setBias .vietnamese

/-- The last letter is the vowel of the key: circumflex it, or take its circumflex back. -/
def circumflexLast (e : TypingEngine) (targetBase c : WChar) : TypingEngine × Bool :=
  let lastIdx := e.states.length - 1
  let needsRelocate :=
    Phonology.validateSyllableState e.states e.config.allowZwjf == .validPrefix
  if e.endsInTriphthong then (e, true)
  else if e.lastState.mod = .circumflex then
    let escaped := (e.withStates (setMod e.states lastIdx .none)).processKeyChar c
    (if e.config.spellCheckEnabled then { escaped with escape := .circumflex } else escaped, true)
  else if needsRelocate && !e.wouldBeValidRelocated lastIdx .circumflex &&
      !e.keyMatchesExclusion c then (e, false)
  else if !needsRelocate && e.shouldRejectModifier lastIdx .circumflex targetBase then (e, false)
  else (e.relocated (setVowelMod e.states lastIdx .circumflex), true)

/-- Free marking of a plain vowel at an index: rejected, rejected as English, or accepted. -/
def freeMarkPlain (e : TypingEngine) (i : Nat) (targetBase : WChar) : TypingEngine × Bool :=
  let crossed := e.states.drop (i + 1)
  let needsValidation := crossed.any fun s => s.isVowel && s.base != targetBase
  let consonants := crossed.filter (!·.isVowel)
  let singleCoda := (stateAt consonants (consonants.length - 1)).base
  let accepted := e.relocated (setMod e.states i .circumflex)
  if needsValidation then
    if e.config.spellCheckEnabled then
      if e.shouldRejectModifier i .circumflex targetBase then (e, false) else (accepted, true)
    else if 1 ≤ consonants.length then (e.setBias .hardEnglish, false)
    else (accepted, true)
  else if !e.config.spellCheckEnabled && consonants.length == 1 then
    if [L 'c', L 'k', L 'm', L 'n', L 'p', L 't'].contains singleCoda then (accepted, true)
    else (e.setBias .hardEnglish, false)
  else if e.config.spellCheckEnabled && decide (1 ≤ consonants.length) then
    if e.wouldBeValidRelocated i .circumflex then (accepted, true) else (e, false)
  else (accepted, true)

/-- Free marking: the last vowel with the base of the key, across the letters after it. -/
def freeMark (e : TypingEngine) (targetBase c : WChar) : TypingEngine × Bool :=
  let n := e.states.length
  let completesTriphthong :=
    decide (2 ≤ n) && (stateAt e.states (n - 1)).isVowel && (stateAt e.states (n - 2)).isVowel &&
      isTriphthong (stateAt e.states (n - 2)).base (stateAt e.states (n - 1)).base targetBase
  if completesTriphthong then (e, false)
  else
    match scanDown (fun i => (stateAt e.states i).isVowel &&
        (stateAt e.states i).base == targetBase) n with
    | none => (e, false)
    | some i =>
        let mod := (stateAt e.states i).mod
        let needsValidation :=
          (e.states.drop (i + 1)).any fun s => s.isVowel && s.base != targetBase
        if needsValidation ∧ mod ≠ .horn ∧ mod ≠ .none ∧ mod ≠ .circumflex then (e, false)
        else if mod = .circumflex then
          (e.escapeTo (setMod e.states i .none) c .circumflex, true)
        else if mod = .breve ∧ targetBase = L 'a' then
          (e.relocated (setMod e.states i .circumflex), true)
        else if mod = .horn ∧ targetBase = L 'o' then
          (e.relocated (setVowelMod e.states i .circumflex), true)
        else if mod = .none then e.freeMarkPlain i targetBase
        else (e, false)

/-- The keys `a e o` of Telex. -/
def handleAdjacentCircumflex (e : TypingEngine) (action : TypingAction) (c : WChar) :
    TypingEngine × Bool :=
  let targetBase :=
    if e.config.inputMethod = .userDefined then actionToVowel action else towlower c
  if e.states.isEmpty then (e, false)
  else if action = .circumflexE ∧ e.isLiteralUse then (e.unrevertUse, true)
  else if e.lastState.isVowel ∧ e.lastState.base = targetBase then
    e.circumflexLast targetBase c
  else e.freeMark targetBase c

end TypingEngine

/-! ## Telex horn -/

/-- `u` of `qu`. -/
def isQUClusterU (states : List CharState) (i : Nat) : Bool :=
  decide (0 < i) && (stateAt states i).base == L 'u' && (stateAt states i).mod == .none &&
    (stateAt states (i - 1)).base == L 'q'

/-- The last modifiable vowel with a base and a modifier that satisfies a test. -/
def lastVowelWhere (states : List CharState) (base : WChar) (p : Modifier → Bool) : Option Nat :=
  scanDown (fun i => (stateAt states i).isVowel && !isQUClusterU states i &&
    (stateAt states i).base == base && p (stateAt states i).mod) states.length

/-- An adjacent pair of vowels with the given bases, the first of them modifiable. -/
def isVowelPairAt (states : List CharState) (first second : WChar) (i : Nat) : Bool :=
  (stateAt states i).isVowel && (stateAt states (i + 1)).isVowel && !isQUClusterU states i &&
    (stateAt states i).base == first && (stateAt states (i + 1)).base == second

/-- The last such pair. -/
def lastVowelPair (states : List CharState) (first second : WChar) : Option Nat :=
  scanDown (isVowelPairAt states first second) (states.length - 1)

/-- The modifier is none. -/
def Modifier.isPlain (mod : Modifier) : Bool := mod == .none

/-- The modifier is none or a circumflex. -/
def Modifier.isPlainOrCircumflex (mod : Modifier) : Bool := mod == .none || mod == .circumflex

/-- The last modifiable plain `u`. -/
def lastPlainU (states : List CharState) : Option Nat :=
  lastVowelWhere states (L 'u') Modifier.isPlain

/-- The first modifiable plain `u`. -/
def firstPlainU (states : List CharState) : Option Nat :=
  scanUp (fun i => (stateAt states i).isVowel && !isQUClusterU states i &&
    (stateAt states i).base == L 'u' && (stateAt states i).mod == .none) states.length

/-- The last `o` or `ô`. -/
def lastO (states : List CharState) : Option Nat :=
  lastVowelWhere states (L 'o') Modifier.isPlainOrCircumflex

/-- The last `a` or `â`. -/
def lastA (states : List CharState) : Option Nat :=
  lastVowelWhere states (L 'a') Modifier.isPlainOrCircumflex

/-- The last `ă`. -/
def lastBreve (states : List CharState) : Option Nat :=
  lastVowelWhere states (L 'a') (· == .breve)

/-- The last `ư` or `ơ`. -/
def lastHorned (states : List CharState) : Option Nat :=
  scanDown (fun i => ((stateAt states i).base == L 'u' || (stateAt states i).base == L 'o') &&
    (stateAt states i).isHorn) states.length

/-- Take the circumflex off the `a` at an index, if there is one. -/
def clearCircumflexAt (states : List CharState) : Option Nat → List CharState
  | some i => if (stateAt states i).mod = .circumflex then setMod states i .none else states
  | none => states

/-- What a horn key does. -/
inductive HornEffect where
  /-- Nothing: the key is left to be a letter. -/
  | reject
  /-- Replace the states. -/
  | mark (states : List CharState)
  /-- Replace the states and relocate the tone to the horned vowel. -/
  | relocate (states : List CharState)
  /-- Replace the states and emit the key as a letter. -/
  | takeBack (states : List CharState) (key : WChar) (kind : EscapeKind)
  /-- Append a letter. -/
  | insert (s : CharState)

namespace TypingEngine

/-- A letter that is no vowel follows the index. -/
def hasNonVowelAfter (e : TypingEngine) (idx : Nat) : Bool :=
  (e.states.drop (idx + 1)).any (!·.isVowel)

/-- A vowel other than the `i` after `g`. -/
def hasNonClusterVowel (e : TypingEngine) : Bool :=
  (List.range e.states.length).any fun i =>
    (stateAt e.states i).isVowel &&
      !((stateAt e.states i).base == L 'i' && decide (0 < i) &&
        (stateAt e.states (i - 1)).base == L 'g')

/-- The buffer contains `qu` with a plain `u`. -/
def isInQUCluster (e : TypingEngine) : Bool :=
  (List.range (e.states.length - 1)).any fun i =>
    (stateAt e.states i).base == L 'q' && (stateAt e.states (i + 1)).base == L 'u' &&
      (stateAt e.states (i + 1)).mod == .none

/-- P1: `ua` puts the horn on `u`. -/
def hornP1 (e : TypingEngine) : Option HornEffect :=
  match lastVowelPair e.states (L 'u') (L 'a'), lastPlainU e.states with
  | some _, some uIdx =>
      some (.relocate (clearCircumflexAt (setMod e.states uIdx .horn) (lastA e.states)))
  | _, _ => none

/-- P2: the `uo` cycle. -/
def hornP2 (e : TypingEngine) (c : WChar) : Option HornEffect :=
  match lastVowelPair e.states (L 'u') (L 'o') with
  | none => none
  | some pairU =>
      let pairO := pairU + 1
      let uMod := (stateAt e.states pairU).mod
      let oMod := (stateAt e.states pairO).mod
      let isEdge := isUOEdgeCasePrefix e.states pairU
      if uMod ≠ .horn ∧ (oMod = .none ∨ oMod = .circumflex) then
        let states := if isEdge then e.states else setMod e.states pairU .horn
        some (.relocate (setMod states pairO .horn))
      else if uMod = .horn ∧ oMod = .none then
        some (.relocate (setMod e.states pairO .horn))
      else if uMod = .none ∧ oMod = .horn ∧ isEdge then
        some (.relocate (setMod e.states pairU .horn))
      else if uMod = .horn ∧ oMod = .horn then
        some (.takeBack (setMod (setMod e.states pairU .none) pairO .none) c .horn)
      else if uMod = .none ∧ oMod = .horn then
        some (.takeBack (setMod e.states pairO .none) c .horn)
      else none

/-- P3: `oa` puts the breve on `a`. -/
def hornP3 (e : TypingEngine) : Option HornEffect :=
  match lastVowelPair e.states (L 'o') (L 'a'), lastA e.states with
  | some _, some aIdx => some (.mark (setMod e.states aIdx .breve))
  | _, _ => none

/-- P4: take a horn or a breve back. -/
def hornP4 (e : TypingEngine) (c : WChar) : Option HornEffect :=
  match lastHorned e.states, lastBreve e.states with
  | some hornedIdx, _ =>
      let horned := stateAt e.states hornedIdx
      if horned.synthetic ∧ hornedIdx = e.states.length - 1 then
        some (.takeBack (e.states.eraseIdx hornedIdx)
          (if horned.isUpper then towupper c else towlower c) .horn)
      else
        some (.takeBack (setMod (undoHornU e.states hornedIdx) hornedIdx .none) c .horn)
  | none, some brevedIdx => some (.takeBack (setMod e.states brevedIdx .none) c .breve)
  | none, none => none

/-- P5: a standalone `u` takes the horn, the first one of `uu`. -/
def hornP5 (e : TypingEngine) : Option HornEffect :=
  match lastPlainU e.states with
  | none => none
  | some uIdx =>
      let hasUU := (lastVowelPair e.states (L 'u') (L 'u')).isSome
      let targetU := if hasUU then (firstPlainU e.states).getD uIdx else uIdx
      let aIdx := lastA e.states
      if e.hasNonVowelAfter targetU && !e.wouldBeValidSyllable targetU .horn aIdx then
        some .reject
      else some (.relocate (clearCircumflexAt (setMod e.states targetU .horn) aIdx))

/-- P6: a standalone `o` takes the horn. -/
def hornP6 (e : TypingEngine) : Option HornEffect :=
  match lastO e.states, lastVowelPair e.states (L 'o') (L 'a') with
  | some oIdx, none =>
      if e.hasNonVowelAfter oIdx && !e.wouldBeValidSyllable oIdx .horn none then some .reject
      else some (.relocate (setMod e.states oIdx .horn))
  | _, _ => none

/-- P7: a standalone `a` takes the breve. -/
def hornP7 (e : TypingEngine) : Option HornEffect :=
  match lastA e.states with
  | none => none
  | some aIdx =>
      if e.hasNonVowelAfter aIdx && !e.wouldBeValidSyllable aIdx .breve none then some .reject
      else some (.mark (setMod e.states aIdx .breve))

/-- P8: without a vowel the key inserts `ư`. -/
def hornP8 (e : TypingEngine) (c : WChar) : Option HornEffect :=
  if e.config.inputMethod ≠ .simpleTelex ∧ e.config.inputMethod ≠ .userDefined ∧
      !e.isInQUCluster ∧ !e.hasNonClusterVowel then
    some (.insert { base := L 'u', mod := .horn, isUpper := iswupper c, synthetic := true,
                    rawIdx := e.nextRawIdx })
  else none

/-- What the key `w` of Telex does: the first of the eight cases that applies. -/
def hornEffect (e : TypingEngine) (c : WChar) : HornEffect :=
  let hasVowelContext := e.states.any fun s =>
    s.isVowel && (s.base == L 'a' || s.base == L 'o' || s.base == L 'u')
  if e.config.inputMethod = .simpleTelex ∧ !hasVowelContext then .reject
  else
    (e.hornP1 <|> e.hornP2 c <|> e.hornP3 <|> e.hornP4 c <|> e.hornP5 <|> e.hornP6 <|> e.hornP7 <|>
      e.hornP8 c).getD .reject

/-- The key `w` of Telex. -/
def handleHornW (e : TypingEngine) (c : WChar) : TypingEngine × Bool :=
  match e.hornEffect c with
  | .reject => (e, false)
  | .mark states => (e.withStates states, true)
  | .relocate states => (e.hornRelocated states, true)
  | .takeBack states key kind => (e.escapeTo states key kind, true)
  | .insert s => (e.pushState s, true)

/-! ## Stroke -/

/-- The stroke keys: `d` of Telex and `9` of VNI. -/
def handleStrokeD (e : TypingEngine) (c : WChar) : TypingEngine × Bool :=
  if e.escape = .stroke then (e, false)
  else
    match findStrokeDTarget e.states with
    | none => (e, false)
    | some dIdx =>
        let mod := (stateAt e.states dIdx).mod
        if mod = .none then (e.withStates (setMod e.states dIdx .stroke), true)
        else if mod = .stroke then
          if !isStrokeDEscapeAllowed e.states dIdx then (e, false)
          else if dIdx == 0 && e.keyMatchesExclusion (towlower c) then (e, false)
          else (e.escapeTo (setMod e.states dIdx .none) c .stroke, true)
        else (e, false)

/-- The key `9` of VNI. -/
def handleVniStroke (e : TypingEngine) (c : WChar) : TypingEngine × Bool := e.handleStrokeD c

/-! ## VNI vowel modifiers -/

/-- The bases a modifier goes on. -/
def eligibleBases : Modifier → List WChar
  | .circumflex => [L 'a', L 'e', L 'o']
  | .horn => [L 'o', L 'u']
  | .breve => [L 'a']
  | _ => []

/-- The last nucleus vowel that satisfies a test. -/
def lastNucleusWhere (states : List CharState) (p : CharState → Bool) : Option Nat :=
  scanDown (fun i => (stateAt states i).isVowel && p (stateAt states i) &&
    !isClusterConsonant states i) states.length

/-- The letter can switch to the modifier: `â` and `ă`, `ô` and `ơ`. -/
def canSwitch (s : CharState) (targetMod : Modifier) : Bool :=
  (s.base == L 'a' && ((s.mod == .circumflex && targetMod == .breve) ||
      (s.mod == .breve && targetMod == .circumflex))) ||
    (s.base == L 'o' && ((s.mod == .circumflex && targetMod == .horn) ||
      (s.mod == .horn && targetMod == .circumflex)))

/-- A VNI vowel key: modify the last plain vowel it goes on, else switch a modifier, else take
one back. -/
def processVniVowelModifier (e : TypingEngine) (targetMod : Modifier) (key : WChar) :
    TypingEngine × Bool :=
  let needsRelocate :=
    Phonology.validateSyllableState e.states e.config.allowZwjf == .validPrefix
  match lastNucleusWhere e.states fun s =>
      (eligibleBases targetMod).contains s.base && s.mod == .none with
  | some i =>
      if needsRelocate && !e.wouldBeValidRelocated i targetMod && !e.keyMatchesExclusion key then
        (e, false)
      else if !needsRelocate && e.shouldRejectModifier i targetMod key then (e, false)
      else if needsRelocate then (e.relocated (setVowelMod e.states i targetMod), true)
      else (e.withStates (setVowelMod e.states i targetMod), true)
  | none =>
      match lastNucleusWhere e.states (canSwitch · targetMod) with
      | some i => (e.relocated (setVowelMod e.states i targetMod), true)
      | none =>
          match lastNucleusWhere e.states (·.mod == targetMod) with
          | some i =>
              (e.escapeTo (setMod (undoHornU e.states i) i .none) key .modifier, true)
          | none => (e, false)

/-- The key `6` of VNI. -/
def handleVniCircumflex (e : TypingEngine) (c : WChar) : TypingEngine × Bool :=
  e.processVniVowelModifier .circumflex c

/-- The key `8` of VNI. -/
def handleVniBreve (e : TypingEngine) (c : WChar) : TypingEngine × Bool :=
  e.processVniVowelModifier .breve c

/-- The `uo` cycle of the key `7`. -/
def vniHornUO (e : TypingEngine) (c : WChar) : Option (TypingEngine × Bool) :=
  match lastNucleusWhere e.states (·.base == L 'u'),
    lastNucleusWhere e.states (·.base == L 'o') with
  | some uIdx, some oIdx =>
      let isEdge := isUOEdgeCasePrefix e.states uIdx
      let uHorn := (stateAt e.states uIdx).isHorn
      let oHorn := (stateAt e.states oIdx).isHorn
      if oIdx ≠ uIdx + 1 then none
      else if !uHorn && !oHorn then
        let states := if isEdge then e.states else setMod e.states uIdx .horn
        some (e.relocated (setMod states oIdx .horn), true)
      else if uHorn && !oHorn then
        some (e.relocated (setMod e.states oIdx .horn), true)
      else if isEdge && !uHorn && oHorn then
        some (e.relocated (setMod e.states uIdx .horn), true)
      else if uHorn && oHorn then
        some (e.escapeTo (setMod (setMod e.states uIdx .none) oIdx .none) c .horn, true)
      else none
  | _, _ => none

/-- The `uu` cycle of the key `7`. -/
def vniHornUU (e : TypingEngine) (c : WChar) : Option (TypingEngine × Bool) :=
  let isNucleusU := fun i => (stateAt e.states i).base == L 'u' && (stateAt e.states i).isVowel &&
    !isClusterConsonant e.states i
  match scanUp isNucleusU e.states.length, scanDown isNucleusU e.states.length with
  | some firstU, some lastU =>
      if firstU = lastU then none
      else if (stateAt e.states firstU).mod = .none ∧ (stateAt e.states lastU).mod = .none then
        some (e.relocated (setMod e.states firstU .horn), true)
      else if (stateAt e.states firstU).mod = .horn then
        some (e.escapeTo (setMod e.states firstU .none) c .horn, true)
      else none
  | _, _ => none

/-- The key `7` of VNI. -/
def handleVniHorn (e : TypingEngine) (c : WChar) : TypingEngine × Bool :=
  (e.vniHornUO c <|> e.vniHornUU c).getD (e.processVniVowelModifier .horn c)

/-! ## User-defined actions -/

/-- Horn, or insert `ư`. -/
def handleHornOrInsertU (e : TypingEngine) (action : TypingAction) (keyChar : WChar) :
    TypingEngine × Bool :=
  if action = .hornOrInsertUNoStart ∧ e.states.isEmpty then (e, false)
  else
    let horned := e.handleHornW keyChar
    if horned.2 then horned
    else if e.hasNonClusterVowel then (horned.1, false)
    else
      let inserted := horned.1.handleHornInsert .hornInsertU keyChar
      if inserted.2 ∧ horned.1.states.length < inserted.1.states.length then
        (inserted.1.withStates (inserted.1.states.modify (inserted.1.states.length - 1)
          fun s => { s with synthetic := true, isUpper := iswupper keyChar }), true)
      else inserted

/-- Clear every modifier and tone. -/
def handleUndoAllMarks (e : TypingEngine) : TypingEngine × Bool :=
  if e.states.any fun s => s.hasModifier || s.hasTone then
    ({ e with
        states := e.states.map fun s =>
          if s.hasModifier || s.hasTone then
            { s with mod := .none, tone := .none, toneRawIdx := none }
          else s
        escape := .tone }, true)
  else (e, false)

/-! ## Dispatch -/

/-- Dispatch a modifier action to its handler. -/
def processModifier (e : TypingEngine) (action : TypingAction) (c : WChar) :
    TypingEngine × Bool :=
  match action with
  | .hornInsertO | .hornInsertU => e.handleHornInsert action c
  | .hornW => e.handleHornW c
  | .circumflexA | .circumflexE | .circumflexO => e.handleAdjacentCircumflex action c
  | .strokeD => e.handleStrokeD c
  | .vniCircumflex => e.handleVniCircumflex c
  | .vniHorn => e.handleVniHorn c
  | .vniBreve => e.handleVniBreve c
  | .vniStroke => e.handleVniStroke c
  | .hornOrInsertU | .hornOrInsertUNoStart => e.handleHornOrInsertU action c
  | .undoAllMarks => e.handleUndoAllMarks
  | _ => e.handleInsertChar action c

/-- In an invalid buffer a modifier key may still take a modifier back, reach an exclusion, or
precede the repair of the tone. -/
def wouldModifierRecoverOrEscape (e : TypingEngine) (action : TypingAction)
    (keyChar lower : WChar) : Bool :=
  let last := e.lastState
  let canEscape :=
    if action.isTelexModifierAction then
      if lower = L 'w' then
        hasEscapableModifier e.states .horn false || hasEscapableModifier e.states .breve false
      else if lower = L 'd' then
        hasEscapableModifier e.states .stroke true || (findStrokeDTarget e.states).isSome
      else if isVowelChar keyChar && !e.states.isEmpty then
        last.isVowel && last.base == lower && last.mod == .circumflex
      else if (action == .hornInsertO || action == .hornInsertU) && !e.states.isEmpty &&
          decide (2 ≤ e.rawInput.length) &&
          towlower (e.rawInput.getD (e.rawInput.length - 2) 0) == lower then
        last.base == (if action = .hornInsertO then L 'o' else L 'u') && last.mod == .horn
      else false
    else
      let escMod := actionToVniModifier action
      if escMod = .stroke then
        hasEscapableModifier e.states escMod true || (findStrokeDTarget e.states).isSome
      else escMod != .none && hasEscapableModifier e.states escMod false
  canEscape || e.keyMatchesExclusion lower || isToneStopCodaMismatch e.states

/-- The bias of a word where a stroke key would make an impossible cluster. -/
def strokePrecheck (e : TypingEngine) (action strokeAction : TypingAction) : TypingEngine :=
  let blocks := (findStrokeDTarget e.states).any fun dTarget =>
    (stateAt e.states dTarget).mod == .none && shouldBlockStrokeDAsEnglish e.states dTarget
  if action = strokeAction ∧ e.engProt.bias ≠ .hardEnglish ∧ 3 ≤ e.states.length ∧ blocks then
    e.setBias .hardEnglish
  else e

/-- What follows a modifier that has been applied. -/
def finishModifier (e : TypingEngine) : TypingEngine :=
  let e := e.setBias .vietnamese
  (e.withStates (applyAutoUO e.config.modernOrtho e.states)).updateSpellState

/-- A buffer that reads `u`, `s`, `e`, where the Telex `e` is not blocked by the bias. -/
def isUseCircumflexE (e : TypingEngine) (action : TypingAction) : Bool :=
  action == .circumflexE && e.states.length == 3 && towlower (stateAt e.states 0).base == L 'u' &&
    towlower (stateAt e.states 1).base == L 's' && towlower (stateAt e.states 2).base == L 'e'

/-- A modifier key is blocked.  `biasBlocks` and `prefixBlocks` are the reasons besides an escape;
a stroke in a buffer without vowels and an exclusion lift them. -/
def isModifierBlocked (e : TypingEngine) (action strokeAction : TypingAction) (lower : WChar)
    (biasBlocks prefixBlocks : Bool) : Bool :=
  e.escape.isEscaped ||
    ((biasBlocks || prefixBlocks) &&
      !(action == strokeAction && !hasVowelState e.states) && !e.keyMatchesExclusion lower)

/-- The gates before a modifier: whether the key reaches its handler, and the engine with the bias
updated. -/
def modifierGates (e : TypingEngine) (action : TypingAction) (keyChar lower : WChar) :
    TypingEngine × Bool :=
  let method := e.config.inputMethod
  let spellGated := fun (e : TypingEngine) => e.config.effectiveSpellCheck && e.spellCheckDisabled
  let hardEnglish := fun (e : TypingEngine) =>
    !e.config.allowEnglishBypass && e.engProt.bias == .hardEnglish
  let prefixBlocked := fun (e : TypingEngine) =>
    e.config.effectiveSpellCheck && isBlockedEnglishModifier e.rawInput
  if action.isTelexModifierAction && (e.config.isTelexMode || method == .userDefined) then
    let e := e.strokePrecheck action .strokeD
    (e, !e.isModifierBlocked action .strokeD lower (hardEnglish e && !e.isUseCircumflexE action)
        (prefixBlocked e) &&
      (!spellGated e || e.wouldModifierRecoverOrEscape action keyChar lower))
  else if action.isVniModifierAction && (e.config.isVniMode || method == .userDefined) then
    let e := e.strokePrecheck action .vniStroke
    (e, !e.isModifierBlocked action .vniStroke lower (hardEnglish e) false &&
      (!spellGated e || e.wouldModifierRecoverOrEscape action keyChar lower))
  else if action.isUserDefinedOnlyAction && method == .userDefined then
    -- no stroke exception here: `none` is no user-defined action
    (e, !e.isModifierBlocked action .none lower (hardEnglish e) (prefixBlocked e))
  else (e, false)

/-- Handle a modifier key; false when the key is left to the next rule. -/
def handleModifierAction (e : TypingEngine) (action : TypingAction) (keyChar lower : WChar) :
    TypingEngine × Bool :=
  let gated := e.modifierGates action keyChar lower
  if gated.2 then
    let applied := gated.1.processModifier action keyChar
    if applied.2 then (applied.1.finishModifier, true) else applied
  else gated

end TypingEngine

end VKey
