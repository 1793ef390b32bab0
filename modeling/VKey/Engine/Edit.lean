import Mathlib.Logic.Relation
import VKey.Support.ListEdits
import VKey.Engine.Stages

/-!
# Edits

Whatever a key does to the character states and the raw keystrokes is a sequence of a few kinds of
edits.  This module says once what they are; the invariants of the engine are then checked edit by
edit, and the handlers are each shown to be sequences of edits.

A draft is a buffer in the middle of a key.  It is *pending* as long as the key is the last raw
keystroke and no state refers to it yet.
-/

namespace VKey

/-- The bases a modifier is legal on. -/
def legalBases : Modifier → List WChar
  | .circumflex => [L 'a', L 'e', L 'o']
  | .breve => [L 'a']
  | .horn => [L 'o', L 'u']
  | .stroke => [L 'd']
  | .none => []

/-- The modifier is legal on the base. -/
def LegalMod (base : WChar) (mod : Modifier) : Prop := mod = .none ∨ base ∈ legalBases mod

instance (base : WChar) (mod : Modifier) : Decidable (LegalMod base mod) :=
  inferInstanceAs (Decidable (_ ∨ _))

theorem legalMod_none (base : WChar) : LegalMod base .none := Or.inl rfl

theorem legalBases_ascii (mod : Modifier) :
    ∀ base ∈ legalBases mod, base < 0x80 ∧ asciiLower base = base := by
  cases mod <;> decide

variable [WideCType]

theorem LegalMod.towlower {base : WChar} {mod : Modifier} (h : LegalMod base mod) :
    LegalMod (towlower base) mod := by
  rcases h with rfl | h
  · exact legalMod_none _
  · obtain ⟨hascii, hlower⟩ := legalBases_ascii mod base h
    rw [WideCType.towlower_ascii base hascii, hlower]
    exact Or.inr h

/-- Without quick consonants the VNI method only appends, marks and takes back the keys typed. -/
def TypingConfig.IsPlainVni (config : TypingConfig) : Prop :=
  config.inputMethod = .vni ∧ config.quickConsonant = false ∧
    config.quickStartConsonant = false ∧ config.quickEndConsonant = false

instance (config : TypingConfig) : Decidable config.IsPlainVni :=
  inferInstanceAs (Decidable (_ ∧ _))

/-- What the edits of an action include besides the regular ones. -/
structure Hazards where
  /-- Letters that no single key stands for, and letters that are removed. -/
  beyondVni : Prop
  /-- A letter for the null character. -/
  nul : Prop
  /-- A literal behind a letter typed after it. -/
  outOfOrder : Prop
  /-- A tone relocated without its raw index. -/
  hornTone : Prop
  /-- A tone from a key that does not stand for it. -/
  foreignTone : Prop
  /-- The raw key of a remaining tone erased. -/
  lostKey : Prop
  /-- A tone put on beside another one. -/
  secondTone : Prop

/-- A state as it is appended: without a tone, lowercase, with a legal modifier. -/
structure IsLetter (hz : Hazards) (s : CharState) : Prop where
  tone_eq : s.tone = .none
  toneRawIdx_eq : s.toneRawIdx = none
  lower : towlower s.base = s.base
  legal : LegalMod s.base s.mod
  nul : s.base = 0 → hz.nul

/-- A buffer in the middle of a key. -/
structure Draft where
  pending : Bool
  states : List CharState
  rawInput : List WChar

/-- The edits of a key. -/
inductive Edit (config : TypingConfig) (hz : Hazards) (key : WChar) : Draft → Draft → Prop
  /-- Append a letter. -/
  | append {p ss raw s} (letter : IsLetter hz s) (rawIdx_eq : s.rawIdx = raw.length - 1)
      (own : (p = true ∧ s.base = towlower key) ∨ hz.beyondVni) :
      Edit config hz key ⟨p, ss, raw⟩ ⟨false, ss ++ [s], raw⟩
  /-- Change a modifier. -/
  | mark {p ss raw i mod} (legal : LegalMod (towlower (stateAt ss i).base) mod) :
      Edit config hz key ⟨p, ss, raw⟩ ⟨p, setMod ss i mod, raw⟩
  /-- Move a tone to another vowel. -/
  | relocate {p ss raw i j} (toned : (stateAt ss i).hasTone = true) (ne : j ≠ i)
      (vowel : (stateAt ss j).isVowel = true) :
      Edit config hz key ⟨p, ss, raw⟩
        ⟨p, setTone (setTone ss j (stateAt ss i).tone (stateAt ss i).toneRawIdx) i .none none, raw⟩
  /-- Move a tone and leave its raw index behind. -/
  | hornRelocate {p ss raw i j} (toned : (stateAt ss i).hasTone = true) (ne : j ≠ i)
      (vowel : (stateAt ss j).isVowel = true) (hazard : hz.hornTone) :
      Edit config hz key ⟨p, ss, raw⟩
        ⟨p, (ss.modify j fun s => { s with tone := (stateAt ss i).tone }).modify i
          fun s => { s with tone := .none }, raw⟩
  /-- Clear a tone. -/
  | clear {p ss raw i} :
      Edit config hz key ⟨p, ss, raw⟩ ⟨p, setTone ss i .none none, raw⟩
  /-- Put the tone of the key on a vowel. -/
  | tone {ss raw i tone} (tone_ne : tone ≠ .none) (vowel : (stateAt ss i).isVowel = true)
      (tone_eq : actionToTone (TypingEngine.methodAction config (towlower key)) = tone)
      (only : (∀ j, j ≠ i → (stateAt ss j).tone = .none) ∨ hz.secondTone) :
      Edit config hz key ⟨true, ss, raw⟩
        ⟨false, setTone ss i tone (some (raw.length - 1)), raw⟩
  /-- Take a tone back: the key becomes a letter in the place of the tone's first key. -/
  | putBack {ss raw i idx s} (tone_ne : (stateAt ss i).tone ≠ .none)
      (toneRawIdx_eq : (stateAt ss i).toneRawIdx = some idx) (lt : idx < raw.length)
      (tone_eq : actionToTone (TypingEngine.methodAction config (towlower key)) =
        (stateAt ss i).tone)
      (letter : IsLetter hz s) (rawIdx_eq : s.rawIdx = idx) (base_eq : s.base = towlower key) :
      Edit config hz key ⟨true, ss, raw⟩
        ⟨false, insertByRawIdx ((setTone ss i .none none).map (CharState.shiftRaw (raw.length - 1)))
            s, (raw.eraseIdx (raw.length - 1)).set idx key⟩
  /-- Turn the tone of the last letter back into its key. -/
  | literal {p ss raw t k s} (ne_nil : ss ≠ [])
      (toneRawIdx_eq : (stateAt ss (ss.length - 1)).toneRawIdx = some t) (key_eq : raw[t]? = some k)
      (order : t < (stateAt ss (ss.length - 1)).rawIdx → hz.outOfOrder)
      (letter : IsLetter hz s) (rawIdx_eq : s.rawIdx = t) (base_eq : s.base = towlower k) :
      Edit config hz key ⟨p, ss, raw⟩
        ⟨p, setTone ss (ss.length - 1) .none none ++ [s], raw⟩
  /-- Remove a letter. -/
  | remove {p ss raw i} (hazard : hz.beyondVni) :
      Edit config hz key ⟨p, ss, raw⟩ ⟨p, ss.eraseIdx i, raw⟩
  /-- Remove the last letter and its raw key. -/
  | swallow {ss raw} (ne_nil : ss ≠ []) (lt : (stateAt ss (ss.length - 1)).rawIdx < raw.length)
      (kept : (∀ s ∈ ss.dropLast, s.toneRawIdx ≠ some (stateAt ss (ss.length - 1)).rawIdx) ∨
        hz.lostKey)
      (hazard : hz.beyondVni) :
      Edit config hz key ⟨true, ss, raw⟩
        ⟨false, ss.dropLast.map (CharState.shiftRaw (stateAt ss (ss.length - 1)).rawIdx),
          raw.eraseIdx (stateAt ss (ss.length - 1)).rawIdx⟩
  /-- Clear every modifier and tone. -/
  | clearMarks {p ss raw} (hazard : hz.beyondVni) :
      Edit config hz key ⟨p, ss, raw⟩
        ⟨p, ss.map fun s =>
          if s.hasModifier || s.hasTone then
            { s with mod := .none, tone := .none, toneRawIdx := none }
          else s, raw⟩
  /-- Start again from one letter and its key. -/
  | restart {p ss raw k s} (letter : IsLetter hz s) (rawIdx_eq : s.rawIdx = 0)
      (hazard : hz.beyondVni) :
      Edit config hz key ⟨p, ss, raw⟩ ⟨true, [s], [k, key]⟩
  /-- Turn a leading letter without a tone into `w`. -/
  | revertStart {p ss raw} (tone_eq : (stateAt ss 0).tone = .none) (hazard : hz.beyondVni) :
      Edit config hz key ⟨p, ss, raw⟩
        ⟨p, ss.modify 0 fun s => { s with base := L 'w', mod := .none, synthetic := false }, raw⟩
  /-- Turn `úe` into `use`. -/
  | revertUse {p ss raw s} (length_eq : ss.length = 2)
      (rawIdx_last : (stateAt ss 1).rawIdx = raw.length - 1) (length_le : 3 ≤ raw.length)
      (order : 2 ≤ (stateAt ss 0).rawIdx → hz.outOfOrder) (letter : IsLetter hz s)
      (rawIdx_eq : s.rawIdx = 1) (hazard : hz.beyondVni) :
      Edit config hz key ⟨p, ss, raw⟩
        ⟨p, (setTone (setTone ss 0 .none none) 1 .none none).insertIdx 1 s, raw⟩
  /-- Put an acute from the second raw key on the second of two letters, an `e`. -/
  | unrevertUse {p ss raw} (length_eq : ss.length = 2)
      (base_eq : towlower (stateAt ss 1).base = L 'e') (length_le : 4 ≤ raw.length)
      (tone_eq : actionToTone (TypingEngine.methodAction config (towlower (raw.getD 1 0))) =
          .acute ∨ hz.foreignTone)
      (only : (stateAt ss 0).tone = .none ∨ hz.secondTone) (hazard : hz.beyondVni) :
      Edit config hz key ⟨p, ss, raw⟩ ⟨p, setTone ss 1 .acute (some 1), raw⟩

/-- A sequence of edits. -/
abbrev Edits (config : TypingConfig) (hz : Hazards) (key : WChar) : Draft → Draft → Prop :=
  Relation.ReflTransGen (Edit config hz key)

end VKey
