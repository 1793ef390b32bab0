import VKey.Engine.EnglishProtection

/-!
# Phonotactics of the Vietnamese syllable

The structure of a syllable is an optional initial consonant, a vowel nucleus and an optional
final consonant.  A nucleus of one to three vowels is packed into one key, each vowel as a slot
of its base and its modifier; tables of keys list the nuclei and the codas each one allows.  The
validator tells a complete syllable from a prefix of one and from an impossible buffer.
-/

namespace VKey.Phonology

/-! ## Packed keys -/

/-- Front vowels of the `c`/`k`, `g`/`gh` and `ng`/`ngh` rules. -/
def isFrontBaseVowel (base : WChar) : Bool :=
  base == L 'e' || base == L 'i' || base == L 'y'

def kA : Nat := 0
def kE : Nat := 1
def kI : Nat := 2
def kO : Nat := 3
def kU : Nat := 4
def kY : Nat := 5

def kNone : Nat := 0
def kCirc : Nat := 1
def kBrev : Nat := 2
def kHorn : Nat := 3

/-- A vowel slot: base index and modifier in one byte. -/
def vowelSlot (base mod : Nat) : Nat := base <<< 2 ||| mod

/-- The index of a vowel base. -/
def baseIndex (base : WChar) : Option Nat :=
  if base = L 'a' then some kA
  else if base = L 'e' then some kE
  else if base = L 'i' then some kI
  else if base = L 'o' then some kO
  else if base = L 'u' then some kU
  else if base = L 'y' then some kY
  else none

/-- Keys carry their length in the top byte. -/
def key1 (s0 : Nat) : Nat := 1 <<< 24 ||| s0

def key2 (s0 s1 : Nat) : Nat := 2 <<< 24 ||| s0 <<< 8 ||| s1

def key3 (s0 s1 s2 : Nat) : Nat := 3 <<< 24 ||| s0 <<< 16 ||| s1 <<< 8 ||| s2

/-! ## Final consonants -/

/-- The final consonants. -/
inductive Final where
  | c | ch | k | m | n | ng | nh | p | t
  deriving DecidableEq, Repr

def finalsAll : List Final := [.c, .ch, .k, .m, .n, .ng, .nh, .p, .t]

def finalsNoChNh : List Final := [.c, .k, .m, .n, .ng, .p, .t]

/-- The finals allowed after `iê`, `oă`, `uô`, `uơ`, `ươ` and `yê`. -/
def finalsGlide : List Final := [.c, .m, .n, .ng, .p, .t]

/-- The finals each nucleus allows. -/
def kVCPairRules : List (Nat × List Final) :=
  [(key1 (vowelSlot kA kNone), finalsAll),
   (key1 (vowelSlot kA kCirc), finalsNoChNh),
   (key1 (vowelSlot kA kBrev), finalsNoChNh),
   (key1 (vowelSlot kE kNone), finalsAll),
   (key1 (vowelSlot kE kCirc), [.c, .ch, .m, .n, .nh, .p, .t]),
   (key1 (vowelSlot kI kNone), [.c, .ch, .k, .m, .n, .nh, .p, .t]),
   (key1 (vowelSlot kO kNone), finalsNoChNh),
   (key1 (vowelSlot kO kCirc), finalsNoChNh),
   (key1 (vowelSlot kO kHorn), [.m, .n, .p, .t]),
   (key1 (vowelSlot kU kNone), finalsNoChNh),
   (key1 (vowelSlot kU kHorn), finalsNoChNh),
   (key1 (vowelSlot kY kNone), [.t]),
   (key2 (vowelSlot kI kNone) (vowelSlot kE kCirc), finalsGlide),
   (key2 (vowelSlot kO kNone) (vowelSlot kA kNone), finalsAll),
   (key2 (vowelSlot kO kNone) (vowelSlot kA kBrev), finalsGlide),
   (key2 (vowelSlot kO kNone) (vowelSlot kE kNone), [.m, .n, .ng, .t]),
   (key2 (vowelSlot kO kNone) (vowelSlot kO kNone), [.c, .ng]),
   (key2 (vowelSlot kU kNone) (vowelSlot kA kCirc), [.n, .ng, .t]),
   (key2 (vowelSlot kU kNone) (vowelSlot kE kCirc), [.ch, .n, .nh]),
   (key2 (vowelSlot kU kNone) (vowelSlot kO kCirc), finalsGlide),
   (key2 (vowelSlot kU kNone) (vowelSlot kO kHorn), finalsGlide),
   (key2 (vowelSlot kU kNone) (vowelSlot kY kNone), [.ch, .n, .nh, .p, .t]),
   (key2 (vowelSlot kU kHorn) (vowelSlot kO kHorn), finalsGlide),
   (key2 (vowelSlot kY kNone) (vowelSlot kE kCirc), finalsGlide),
   (key3 (vowelSlot kU kNone) (vowelSlot kY kNone) (vowelSlot kE kCirc), [.n, .t])]

/-- The finals a nucleus allows; empty for a nucleus without a rule. -/
def getAllowedFinals (vowelKey : Nat) : List Final :=
  (kVCPairRules.lookup vowelKey).getD []

/-! ## The nucleus table -/

/-- A nucleus: whether a final consonant may follow, and whether one must. -/
structure VowelEntry where
  key : Nat
  canEnd : Bool
  requiresEnd : Bool := false
  deriving DecidableEq, Repr

/-- The vowel nuclei. -/
def kVowelTable : List VowelEntry :=
  [⟨key1 (vowelSlot kA kNone), true, false⟩,
   ⟨key1 (vowelSlot kA kCirc), true, true⟩,
   ⟨key1 (vowelSlot kA kBrev), true, false⟩,
   ⟨key1 (vowelSlot kE kNone), true, false⟩,
   ⟨key1 (vowelSlot kE kCirc), true, false⟩,
   ⟨key1 (vowelSlot kI kNone), true, false⟩,
   ⟨key1 (vowelSlot kO kNone), true, false⟩,
   ⟨key1 (vowelSlot kO kCirc), true, false⟩,
   ⟨key1 (vowelSlot kO kHorn), true, false⟩,
   ⟨key1 (vowelSlot kU kNone), true, false⟩,
   ⟨key1 (vowelSlot kU kHorn), true, false⟩,
   ⟨key1 (vowelSlot kY kNone), true, false⟩,
   ⟨key2 (vowelSlot kA kNone) (vowelSlot kI kNone), false, false⟩,
   ⟨key2 (vowelSlot kA kNone) (vowelSlot kO kNone), false, false⟩,
   ⟨key2 (vowelSlot kA kNone) (vowelSlot kU kNone), false, false⟩,
   ⟨key2 (vowelSlot kA kNone) (vowelSlot kY kNone), false, false⟩,
   ⟨key2 (vowelSlot kA kCirc) (vowelSlot kU kNone), false, false⟩,
   ⟨key2 (vowelSlot kA kCirc) (vowelSlot kY kNone), false, false⟩,
   ⟨key2 (vowelSlot kE kNone) (vowelSlot kO kNone), false, false⟩,
   ⟨key2 (vowelSlot kE kCirc) (vowelSlot kU kNone), false, false⟩,
   ⟨key2 (vowelSlot kI kNone) (vowelSlot kA kNone), false, false⟩,
   ⟨key2 (vowelSlot kI kNone) (vowelSlot kU kNone), false, false⟩,
   ⟨key2 (vowelSlot kO kNone) (vowelSlot kA kNone), true, false⟩,
   ⟨key2 (vowelSlot kO kNone) (vowelSlot kI kNone), false, false⟩,
   ⟨key2 (vowelSlot kO kCirc) (vowelSlot kI kNone), false, false⟩,
   ⟨key2 (vowelSlot kO kHorn) (vowelSlot kI kNone), false, false⟩,
   ⟨key2 (vowelSlot kU kNone) (vowelSlot kA kNone), false, false⟩,
   ⟨key2 (vowelSlot kU kNone) (vowelSlot kI kNone), false, false⟩,
   ⟨key2 (vowelSlot kU kHorn) (vowelSlot kA kNone), false, false⟩,
   ⟨key2 (vowelSlot kU kHorn) (vowelSlot kI kNone), false, false⟩,
   ⟨key2 (vowelSlot kU kHorn) (vowelSlot kU kNone), false, false⟩,
   ⟨key2 (vowelSlot kI kNone) (vowelSlot kE kCirc), true, false⟩,
   ⟨key2 (vowelSlot kO kNone) (vowelSlot kA kBrev), true, false⟩,
   ⟨key2 (vowelSlot kO kNone) (vowelSlot kE kNone), true, false⟩,
   ⟨key2 (vowelSlot kO kNone) (vowelSlot kO kNone), true, false⟩,
   ⟨key2 (vowelSlot kU kNone) (vowelSlot kA kCirc), true, false⟩,
   ⟨key2 (vowelSlot kU kNone) (vowelSlot kE kCirc), true, false⟩,
   ⟨key2 (vowelSlot kU kNone) (vowelSlot kO kCirc), true, false⟩,
   ⟨key2 (vowelSlot kU kNone) (vowelSlot kO kHorn), true, false⟩,
   ⟨key2 (vowelSlot kU kNone) (vowelSlot kY kNone), true, false⟩,
   ⟨key2 (vowelSlot kU kHorn) (vowelSlot kO kHorn), true, false⟩,
   ⟨key2 (vowelSlot kY kNone) (vowelSlot kE kCirc), true, false⟩,
   ⟨key3 (vowelSlot kI kNone) (vowelSlot kE kCirc) (vowelSlot kU kNone), false, false⟩,
   ⟨key3 (vowelSlot kO kNone) (vowelSlot kA kNone) (vowelSlot kI kNone), false, false⟩,
   ⟨key3 (vowelSlot kO kNone) (vowelSlot kA kNone) (vowelSlot kY kNone), false, false⟩,
   ⟨key3 (vowelSlot kO kNone) (vowelSlot kE kNone) (vowelSlot kO kNone), false, false⟩,
   ⟨key3 (vowelSlot kU kNone) (vowelSlot kA kCirc) (vowelSlot kY kNone), false, false⟩,
   ⟨key3 (vowelSlot kU kNone) (vowelSlot kO kCirc) (vowelSlot kI kNone), false, false⟩,
   ⟨key3 (vowelSlot kU kNone) (vowelSlot kY kNone) (vowelSlot kA kNone), false, false⟩,
   ⟨key3 (vowelSlot kU kNone) (vowelSlot kY kNone) (vowelSlot kU kNone), false, false⟩,
   ⟨key3 (vowelSlot kU kHorn) (vowelSlot kO kHorn) (vowelSlot kI kNone), false, false⟩,
   ⟨key3 (vowelSlot kU kHorn) (vowelSlot kO kHorn) (vowelSlot kU kNone), false, false⟩,
   ⟨key3 (vowelSlot kU kNone) (vowelSlot kY kNone) (vowelSlot kE kCirc), true, false⟩,
   ⟨key3 (vowelSlot kY kNone) (vowelSlot kE kCirc) (vowelSlot kU kNone), false, false⟩]

/-- Search the nucleus table. -/
def findVowel (key : Nat) : Option VowelEntry :=
  kVowelTable.find? (·.key == key)

/-- A key of one or two slots starts some longer nucleus of the table. -/
def isVowelPrefix (key numSlots : Nat) : Bool :=
  kVowelTable.any fun entry =>
    let entryLen := entry.key >>> 24
    if numSlots = 1 ∧ 2 ≤ entryLen then
      let entryFirst :=
        if entryLen = 2 then entry.key >>> 8 % 0x100 else entry.key >>> 16 % 0x100
      entryFirst == key % 0x100
    else if numSlots = 2 ∧ entryLen = 3 then
      entry.key >>> 8 % 0x10000 == key % 0x10000
    else false

/-! ## Parsing consonants -/

/-- The bases of a buffer. -/
abbrev bases (states : List CharState) : List WChar := states.map (·.base)

/-- The single initial consonants; `z j w f` only when allowed. -/
def isInitialConsonant (allowZwjf : Bool) (c0 : WChar) : Bool :=
  [L 'b', L 'c', L 'd', L 'g', L 'h', L 'k', L 'l', L 'm', L 'n', L 'p', L 'q', L 'r', L 's',
   L 't', L 'v', L 'x'].contains c0 ||
    (allowZwjf && [L 'z', L 'j', L 'w', L 'f'].contains c0)

/-- The letter is `đ`. -/
def isStrokeD (s : CharState) : Bool := s.isD && s.mod != .none

/-- Greedy length of the initial consonant. -/
def parseInitialConsonant (states : List CharState) (allowZwjf : Bool) : Nat :=
  let s0 := stateAt states 0
  let s1 := stateAt states 1
  let s2 := stateAt states 2
  if states.length = 0 then 0
  else if isStrokeD s0 then 1
  else if s0.isVowel then 0
  else if 3 ≤ states.length ∧ s0.base = L 'n' ∧ s1.base = L 'g' ∧ s2.base = L 'h' ∧
      !s1.isVowel ∧ !s2.isVowel then 3
  else if 2 ≤ states.length ∧ !s1.isVowel ∧ !s1.isD ∧
      [(L 'c', L 'h'), (L 'g', L 'h'), (L 'g', L 'i'), (L 'k', L 'h'), (L 'n', L 'g'),
       (L 'n', L 'h'), (L 'p', L 'h'), (L 'q', L 'u'), (L 't', L 'h'), (L 't', L 'r')].contains
        (s0.base, s1.base) then 2
  else if isInitialConsonant allowZwjf s0.base then 1
  else 0

/-- Length of the final consonant at the head of the states. -/
def parseFinalConsonant (states : List CharState) : Nat :=
  let s0 := stateAt states 0
  let s1 := stateAt states 1
  if states.length = 0 then 0
  else if s0.isVowel then 0
  else if 2 ≤ states.length ∧ !s1.isVowel ∧
      [(L 'c', L 'h'), (L 'n', L 'g'), (L 'n', L 'h')].contains (s0.base, s1.base) then 2
  else if [L 'c', L 'k', L 'm', L 'n', L 'p', L 't'].contains s0.base then 1
  else 0

/-- The final consonant of the given length at the head of the states. -/
def finalConsonantBit (states : List CharState) (finalLen : Nat) : Option Final :=
  let c0 := (stateAt states 0).base
  if finalLen = 0 then none
  else if finalLen = 2 then
    let c1 := (stateAt states 1).base
    if c0 = L 'c' ∧ c1 = L 'h' then some .ch
    else if c0 = L 'n' ∧ c1 = L 'g' then some .ng
    else if c0 = L 'n' ∧ c1 = L 'h' then some .nh
    else none
  else if c0 = L 'c' then some .c
  else if c0 = L 'k' then some .k
  else if c0 = L 'm' then some .m
  else if c0 = L 'n' then some .n
  else if c0 = L 'p' then some .p
  else if c0 = L 't' then some .t
  else none

/-- The final consonant is a stop. -/
def isStopFinal (states : List CharState) (finalLen : Nat) : Bool :=
  let c0 := (stateAt states 0).base
  if finalLen = 0 then false
  else c0 == L 'p' || c0 == L 't' || c0 == L 'c' || c0 == L 'k'

/-- The first tone of the buffer. -/
def getTone (states : List CharState) : Tone :=
  ((states.find? (·.hasTone)).map (·.tone)).getD .none

/-- The modifier of a vowel slot; the stroke counts as none. -/
def modOrdinal (mod : Modifier) : Nat :=
  if 3 < mod.ordinal then 0 else mod.ordinal

/-! ## Nuclei one modifier away -/

/-- The key of a nucleus of one to three slots. -/
def buildKey : List Nat → Nat
  | [s0] => key1 s0
  | [s0, s1] => key2 s0 s1
  | [s0, s1, s2] => key3 s0 s1 s2
  | _ => 0

/-- The base indices and the modifiers of a run of vowels. -/
def slotParts (vowelStates : List CharState) : Option (List (Nat × Nat)) :=
  vowelStates.mapM fun s => (baseIndex s.base).map fun b => (b, modOrdinal s.mod)

/-- The keys reached by putting a modifier on one plain slot, and by putting the horn on both
slots of `uo` in a nucleus of three. -/
def modifiedKeys (parts : List (Nat × Nat)) : List Nat :=
  let single := (List.range parts.length).flatMap fun vi =>
    if (parts.getD vi (0, 0)).2 ≠ kNone then []
    else [1, 2, 3].map fun tryMod =>
      buildKey ((parts.set vi ((parts.getD vi (0, 0)).1, tryMod)).map fun p => vowelSlot p.1 p.2)
  let pair :=
    match parts with
    | [(b0, m0), (b1, m1), (b2, m2)] =>
        if b0 = kU ∧ b1 = kO ∧ m0 = kNone ∧ m1 = kNone then
          [key3 (vowelSlot b0 kHorn) (vowelSlot b1 kHorn) (vowelSlot b2 m2)]
        else []
    | _ => []
  single ++ pair

/-- Adding a modifier to a plain vowel gives a nucleus that satisfies the predicate. -/
def tryModifiedVowels (vowelStates : List CharState) (pred : VowelEntry → Bool) : Bool :=
  if vowelStates.length < 1 ∨ 3 < vowelStates.length then false
  else
    match slotParts vowelStates with
    | none => false
    | some parts => (modifiedKeys parts).any fun key => ((findVowel key).map pred).getD false

/-! ## Validation -/

/-- Verdict on a buffer. -/
inductive SyllableState where
  | valid
  | validPrefix
  | invalid
  deriving DecidableEq, Repr

/-- The verdict on the states after a nucleus of the table. -/
def validateCoda (states vowelStates coda : List CharState) (vowelKey : Nat)
    (entry : VowelEntry) : SyllableState :=
  if coda.isEmpty then (if entry.requiresEnd then .validPrefix else .valid)
  else if !entry.canEnd then
    if tryModifiedVowels vowelStates fun e =>
        e.canEnd && parseFinalConsonant coda == coda.length then .validPrefix
    else .invalid
  else
    let finalLen := parseFinalConsonant coda
    let c0 := (stateAt coda 0).base
    let v0 := stateAt vowelStates 0
    let allowed := getAllowedFinals vowelKey
    let finalBit := finalConsonantBit coda finalLen
    -- a lone `c` or `n` may still grow into `ch`, `ng` or `nh`
    let grown : List Final :=
      if finalLen = 1 then
        (if c0 = L 'c' then [.ch] else if c0 = L 'n' then [.ng, .nh] else [])
      else []
    if finalLen = 0 then .invalid
    else if finalLen < coda.length then .invalid
    else if finalLen = 1 ∧ c0 = L 'k' ∧
        ¬(vowelStates.length = 1 ∧ v0.base = L 'a' ∧ modOrdinal v0.mod = kBrev) then .invalid
    else if !allowed.isEmpty ∧ finalBit.any (!allowed.contains ·) then
      if grown.any (allowed.contains ·) then .validPrefix else .invalid
    else if isStopFinal coda finalLen ∧
        ¬(getTone states = .none ∨ getTone states = .acute ∨ getTone states = .dot) then .invalid
    else .valid

/-- The verdict for one choice of the initial consonant. -/
def validateDecomposition (states : List CharState) (initialLen : Nat) : SyllableState :=
  let rhyme := states.drop initialLen
  let vowelStates := rhyme.takeWhile (·.isVowel)
  let coda := rhyme.dropWhile (·.isVowel)
  let vowelLen := vowelStates.length
  if rhyme.isEmpty then .validPrefix
  else if vowelLen = 0 ∨ 3 < vowelLen then .invalid
  else
    match slotParts vowelStates with
    | none => .invalid
    | some parts =>
        let vowelKey := buildKey (parts.map fun p => vowelSlot p.1 p.2)
        match findVowel vowelKey with
        | some entry => validateCoda states vowelStates coda vowelKey entry
        | none =>
            if vowelLen ≤ 2 ∧ isVowelPrefix vowelKey vowelLen ∧ coda.isEmpty then .validPrefix
            else if tryModifiedVowels vowelStates fun e =>
                coda.isEmpty || (e.canEnd && parseFinalConsonant coda == coda.length) then
              .validPrefix
            else .invalid

/-- A buffer of consonants only that starts a syllable. -/
def isValidConsonantPrefix (states : List CharState) (allowZwjf : Bool) : Bool :=
  let s0 := stateAt states 0
  let s1 := stateAt states 1
  let s2 := stateAt states 2
  if states.length = 0 then true
  else if states.length = 1 ∧ !s0.isVowel then
    isInitialConsonant allowZwjf s0.base || isStrokeD s0
  else if states.length = 2 ∧ !s0.isVowel ∧ !s1.isVowel then
    [(L 'c', L 'h'), (L 'g', L 'h'), (L 'k', L 'h'), (L 'n', L 'g'), (L 'n', L 'h'),
     (L 'p', L 'h'), (L 't', L 'h'), (L 't', L 'r')].contains (s0.base, s1.base)
  else
    decide (states.length = 3 ∧ s0.base = L 'n' ∧ s1.base = L 'g' ∧ s2.base = L 'h') &&
      !s0.isVowel && !s1.isVowel && !s2.isVowel

/-- The spelling rules between the initial consonant and the first vowel: `k` before front
vowels, `c` before the others, `q` before `u`, `gh` and `ngh` before front vowels. -/
def violatesOnsetVowelRule (states : List CharState) (initialLen : Nat) : Bool :=
  let firstVowel := (stateAt states initialLen).base
  let isFrontVowel := isFrontBaseVowel firstVowel
  let c0 := (stateAt states 0).base
  let c1 := (stateAt states 1).base
  let c2 := (stateAt states 2).base
  if initialLen = 1 then
    (c0 == L 'k' && !isFrontVowel) || (c0 == L 'c' && isFrontVowel) ||
      (c0 == L 'q' && firstVowel != L 'u')
  else if initialLen = 2 then c0 == L 'g' && c1 == L 'h' && !isFrontVowel
  else if initialLen = 3 then
    c0 == L 'n' && c1 == L 'g' && c2 == L 'h' && !isFrontVowel
  else false

/-- `oe` and `oă` after an initial consonant that does not take them. -/
def violatesOeOaRule (states : List CharState) (initialLen : Nat) : Bool :=
  let v0 := stateAt states initialLen
  let v1 := stateAt states (initialLen + 1)
  let c0 := (stateAt states 0).base
  let c1 := (stateAt states 1).base
  if initialLen + 1 < states.length ∧ v0.base = L 'o' ∧ v0.mod = .none ∧
      ((v1.base = L 'e' ∧ v1.mod = .none) ∨ (v1.base = L 'a' ∧ v1.mod = .breve)) then
    if initialLen = 0 then false
    else if initialLen = 1 then !([L 'h', L 'l', L 't', L 'x'].contains c0)
    else if initialLen = 2 then
      !([(L 'c', L 'h'), (L 'k', L 'h'), (L 'n', L 'g'), (L 'n', L 'h'), (L 't', L 'r')].contains
        (c0, c1))
    else true
  else false

/-- The more permissive of a verdict and another one that can only improve it. -/
def SyllableState.improve (result better : SyllableState) : SyllableState :=
  if better = .valid then .valid
  else if better = .validPrefix ∧ result ≠ .valid then .validPrefix
  else result

/-- The verdict on `gi` and `qu` buffers, whose second letter may belong to either side. -/
def validateDual (states : List CharState) (result : SyllableState) : SyllableState :=
  let s0 := stateAt states 0
  let s1 := stateAt states 1
  let followedByVowel : Bool := decide (2 < states.length) && (stateAt states 2).isVowel
  if 2 ≤ states.length ∧ s0.base = L 'g' ∧ s1.base = L 'i' ∧ s1.isVowel then
    let r1 := validateDecomposition states 1
    if followedByVowel then
      let r2 := validateDecomposition states 2
      if r2 = .valid ∨ r1 = .valid then .valid
      else if r2 = .validPrefix ∨ r1 = .validPrefix then .validPrefix
      else result
    else result.improve r1
  else if 2 ≤ states.length ∧ s0.base = L 'q' ∧ s1.base = L 'u' then
    if followedByVowel then result.improve (validateDecomposition states 2)
    else if states.length = 2 then .validPrefix
    else result
  else result

/-- The structural verdict on a buffer. -/
def validateImpl (states : List CharState) (allowZwjf : Bool) : SyllableState :=
  let s0 := stateAt states 0
  let parsedLen := parseInitialConsonant states allowZwjf
  let isPlainD := s0.isD && s0.mod == .none
  let initialLen := if parsedLen = 0 ∧ !s0.isVowel ∧ isPlainD then 1 else parsedLen
  let onsetVerdict : SyllableState :=
    if isValidConsonantPrefix states allowZwjf then .validPrefix else .invalid
  if states.length = 0 then .validPrefix
  else if parsedLen = 0 ∧ !s0.isVowel ∧ !isPlainD then .invalid
  else if 0 < initialLen ∧ initialLen = states.length then onsetVerdict
  else if 0 < initialLen ∧ initialLen < states.length ∧ !(stateAt states initialLen).isVowel then
    onsetVerdict
  else if initialLen < states.length ∧ (stateAt states initialLen).isVowel ∧
      (violatesOnsetVowelRule states initialLen ∨ violatesOeOaRule states initialLen) then .invalid
  else validateDual states (validateDecomposition states initialLen)

/-- At most one vowel carries a tone, and it is a modified vowel if there is one. -/
def checkToneModInvariant (states : List CharState) : Bool :=
  let vowels := states.filter (·.isVowel)
  let toned := vowels.filter (·.hasTone)
  match toned with
  | [] => true
  | [s] => !(vowels.any (·.hasModifier)) || s.hasModifier
  | _ => false

/-- The verdict on a buffer. -/
def validateSyllableState (states : List CharState) (allowZwjf : Bool) : SyllableState :=
  let r := validateImpl states allowZwjf
  if r ≠ .invalid ∧ !checkToneModInvariant states then .invalid else r

/-! ## Tone position -/

/-- The base letter and the modifier of a vowel of a vowel sequence; base `0` for anything
else. -/
def decompose (c : WChar) : WChar × Modifier :=
  if c = L 'a' then (L 'a', .none)
  else if c = L 'ă' then (L 'a', .breve)
  else if c = L 'â' then (L 'a', .circumflex)
  else if c = L 'e' then (L 'e', .none)
  else if c = L 'ê' then (L 'e', .circumflex)
  else if c = L 'i' then (L 'i', .none)
  else if c = L 'o' then (L 'o', .none)
  else if c = L 'ô' then (L 'o', .circumflex)
  else if c = L 'ơ' then (L 'o', .horn)
  else if c = L 'u' then (L 'u', .none)
  else if c = L 'ư' then (L 'u', .horn)
  else if c = L 'y' then (L 'y', .none)
  else (0, .none)

/-- The position of the tone by the diphthong rules, for two vowels or more. -/
def findDiphthongTone (vowels : List (WChar × Modifier)) (hasCoda modernOrtho : Bool) : Nat :=
  let count := vowels.length
  let vowelAt := fun i => (vowels.getD i (0, .none)).1
  let first := diphthongVowelIndex (vowelAt (count - 2))
  let last := diphthongVowelIndex (vowelAt (count - 1))
  -- of three vowels the first two decide if they form a diphthong
  let shift :=
    match diphthongVowelIndex (vowelAt (count - 3)), first with
    | some s, some f => decide (3 ≤ count) && diphthongRule modernOrtho s f != 0
    | _, _ => false
  let firstPos := if shift then count - 3 else count - 2
  let lastPos := firstPos + 1
  let fi := if shift then diphthongVowelIndex (vowelAt (count - 3)) else first
  let li := if shift then first else last
  match fi, li with
  | some fi, some li =>
      let rule := diphthongRule modernOrtho fi li
      let rule :=
        if rule = 3 then
          if shift ∧ vowelAt (count - 1) = vowelAt (count - 2) then 1
          else if lastPos + 1 < count ∨ hasCoda then 2
          else 1
        else rule
      if rule = 1 then firstPos else if rule = 2 then lastPos else count - 1
  | _, _ => count - 1

/-- The index, in the vowel sequence, of the vowel that takes the tone.  Only the first sixteen
vowels are looked at. -/
def findTonePosition (vowelSeq coda : List WChar) (modernOrtho : Bool) : Option Nat :=
  let vowels := ((vowelSeq.map decompose).filter (·.1 != 0)).take 16
  let count := vowels.length
  let vowelAt := fun i => vowels.getD i (0, .none)
  if count = 0 then none
  else
    match scanDown (fun i => (vowelAt i).2 == .horn) count with
    | some i => some i
    | none =>
        match scanUp (fun i => (vowelAt i).2 == .circumflex || (vowelAt i).2 == .breve) count with
        | some i => some i
        | none =>
            if count < 2 then some (count - 1)
            else if modernOrtho ∧ 3 ≤ count ∧
                isTriphthong (vowelAt (count - 3)).1 (vowelAt (count - 2)).1
                  (vowelAt (count - 1)).1 then
              some (count - 2)
            else if count = 3 ∧ (vowelAt 0).2 = .none ∧ (vowelAt 1).2 = .none ∧
                (vowelAt 2).2 = .none ∧
                isBareSmartTriphthongTail (vowelAt 0).1 (vowelAt 1).1 (vowelAt 2).1 then
              some (count - 1)
            else some (findDiphthongTone vowels (!coda.isEmpty) modernOrtho)

end VKey.Phonology
