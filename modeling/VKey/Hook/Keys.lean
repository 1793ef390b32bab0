import VKey.Engine.State
import VKey.Support.CaretText

/-!
# Keys and the host

A key comes with everything its handling reads from outside the engine: the modifiers, the character
the keyboard layout gives it, and what the host and the clock say at that moment.  The host is a
text with a caret, and `press` is what a key does to it that is passed through.
-/

namespace VKey

namespace HookEngine

/-! ## Virtual keys -/

abbrev vkBack : Nat := 0x08
abbrev vkTab : Nat := 0x09
abbrev vkReturn : Nat := 0x0D
abbrev vkEscape : Nat := 0x1B
abbrev vkSpace : Nat := 0x20
abbrev vkPrior : Nat := 0x21
abbrev vkNext : Nat := 0x22
abbrev vkEnd : Nat := 0x23
abbrev vkHome : Nat := 0x24
abbrev vkLeft : Nat := 0x25
abbrev vkDown : Nat := 0x28
abbrev vkInsert : Nat := 0x2D
abbrev vkDelete : Nat := 0x2E
abbrev vkOem1 : Nat := 0xBA
abbrev vkOemPlus : Nat := 0xBB
abbrev vkOemComma : Nat := 0xBC
abbrev vkOemMinus : Nat := 0xBD
abbrev vkOemPeriod : Nat := 0xBE
abbrev vkOem3 : Nat := 0xC0
abbrev vkOem4 : Nat := 0xDB
abbrev vkOem6 : Nat := 0xDD
abbrev vkOem8 : Nat := 0xDF
abbrev vkOem102 : Nat := 0xE2

/-- The keys A to Z. -/
def isAlphaVk (vkCode : Nat) : Bool := decide (0x41 ≤ vkCode ∧ vkCode ≤ 0x5A)

/-- The digit keys of the main block. -/
def isDigitVk (vkCode : Nat) : Bool := decide (0x30 ≤ vkCode ∧ vkCode ≤ 0x39)

/-- The arrows, Home, End and the page keys. -/
def isCaretNavigationKey (vkCode : Nat) : Bool :=
  decide (vkLeft ≤ vkCode ∧ vkCode ≤ vkDown) || vkCode == vkHome || vkCode == vkEnd ||
    vkCode == vkPrior || vkCode == vkNext

/-- Enter and Tab leave the place where the committed words stand. -/
def isReplayContextBoundary (vkCode : Nat) : Bool := vkCode == vkReturn || vkCode == vkTab

/-- The punctuation keys of the main block. -/
def isOemPunctVk (vkCode : Nat) : Bool :=
  decide (vkOem1 ≤ vkCode ∧ vkCode ≤ vkOem3) || decide (vkOem4 ≤ vkCode ∧ vkCode ≤ vkOem8) ||
    vkCode == vkOemPlus || vkCode == vkOemComma || vkCode == vkOemMinus || vkCode == vkOemPeriod

/-- The keys that end a word. -/
def isCommitTrigger (vkCode : Nat) : Bool :=
  vkCode == vkSpace || vkCode == vkReturn || vkCode == vkEscape || vkCode == vkTab ||
    decide (vkLeft ≤ vkCode ∧ vkCode ≤ vkDown) || vkCode == vkHome || vkCode == vkEnd ||
    vkCode == vkPrior || vkCode == vkNext || isDigitVk vkCode ||
    decide (0x60 ≤ vkCode ∧ vkCode ≤ 0x6F) || decide (vkOem1 ≤ vkCode ∧ vkCode ≤ vkOem3) ||
    decide (vkOem4 ≤ vkCode ∧ vkCode ≤ vkOem8) || vkCode == vkOemPlus || vkCode == vkOemComma ||
    vkCode == vkOemMinus || vkCode == vkOemPeriod || vkCode == vkDelete || vkCode == vkInsert

/-- The keys that type a character. -/
def typesCharacter (vkCode : Nat) : Bool :=
  isAlphaVk vkCode || vkCode == vkSpace || isDigitVk vkCode ||
    decide (0x60 ≤ vkCode ∧ vkCode ≤ 0x6F) || isOemPunctVk vkCode || vkCode == vkOem102

/-- The modifier keys and the lock keys: none of them touches the text. -/
def isTopGuarded (vkCode : Nat) : Bool :=
  decide (0xA0 ≤ vkCode ∧ vkCode ≤ 0xA5) || vkCode == 0x5B || vkCode == 0x5C || vkCode == 0x14 ||
    vkCode == 0x90 || vkCode == 0x91

/-- The mask of the modifiers that are down. -/
def computeModMask (ctrl shift alt win : Bool) : UInt32 :=
  (if ctrl then 0x01 else 0) ||| (if shift then 0x02 else 0) ||| (if alt then 0x04 else 0) |||
    (if win then 0x08 else 0)

/-! ## A key and its surroundings -/

/-- A key that has been pressed. -/
structure Key where
  vkCode : Nat
  shift : Bool := false
  capsLock : Bool := false
  ctrl : Bool := false
  alt : Bool := false
  win : Bool := false
  /-- The character of the key in the layout of the foreground window, in lowercase. -/
  macroChar : WChar := 0
  /-- The unit that a key other than a letter key types. -/
  typed : WChar := macroChar
  /-- Where a navigation key puts the caret. -/
  caret : Nat := 0
  /-- What a key does to the text that neither types nor edits at the caret. -/
  edit : CaretText WChar → CaretText WChar := id
  /-- A sentence begins here, and its first letter is to be a capital. -/
  capitalizes : Bool := false
  /-- The host needs every letter from the injector by now. -/
  lockstep : Bool := false
  /-- The host wants to see the key before its replacement. -/
  gameReinject : Bool := false
  /-- The injector has a synchronous channel. -/
  syncChannel : Bool := false
  /-- The last commit is too long ago to be undone. -/
  commitUndoExpired : Bool := false
  /-- The last expansion is too long ago to be undone. -/
  macroUndoExpired : Bool := false
  /-- The space bar, and no other key, has the space for its character. -/
  space_iff : macroChar = L ' ' ↔ vkCode = vkSpace := by decide

namespace Key

/-- Ctrl, Alt or Win is held. -/
def shortcut (key : Key) : Bool := key.ctrl || key.alt || key.win

/-- The output of a letter key is uppercase: Shift inverts Caps Lock. -/
def upper (key : Key) : Bool := key.shift != key.capsLock

variable [WideCType]

/-- The character of a letter key. -/
def originalCh (key : Key) : WChar := if key.upper then key.vkCode else towlower key.vkCode

/-- The unit a key types. -/
def unit (key : Key) : WChar := if isAlphaVk key.vkCode then key.originalCh else key.typed

/-- What a key that reaches the host does to its text. -/
def press (key : Key) (host : CaretText WChar) : CaretText WChar :=
  if isTopGuarded key.vkCode then host
  else if key.shortcut then key.edit host
  else if key.vkCode = vkBack then host.eraseBefore 1
  else if key.vkCode = vkDelete then host.eraseAfter
  else if isCaretNavigationKey key.vkCode then host.moveTo key.caret
  else if typesCharacter key.vkCode then host.insert [key.unit]
  else key.edit host

omit [WideCType] in
theorem of_typesCharacter {vkCode : Nat} (h : typesCharacter vkCode = true) :
    isTopGuarded vkCode = false ∧ vkCode ≠ vkBack ∧ vkCode ≠ vkDelete ∧
      isCaretNavigationKey vkCode = false := by
  simp only [typesCharacter, isAlphaVk, isDigitVk, isOemPunctVk, vkSpace, vkOem1,
    vkOem3, vkOem4, vkOem8,
    vkOemPlus, vkOemComma, vkOemMinus, vkOemPeriod, vkOem102, Bool.or_eq_true, decide_eq_true_eq,
    beq_iff_eq] at h
  simp only [isTopGuarded, isCaretNavigationKey, vkBack, vkDelete, vkLeft, vkDown, vkHome,
    vkEnd, vkPrior, vkNext, Bool.or_eq_false_iff, decide_eq_false_iff_not, beq_eq_false_iff_ne]
  omega

theorem press_of_typesCharacter {key : Key} (hshortcut : key.shortcut = false)
    (htypes : typesCharacter key.vkCode = true) (host : CaretText WChar) :
    key.press host = host.insert [key.unit] := by
  obtain ⟨hguarded, hback, hdelete, hnavigation⟩ := of_typesCharacter htypes
  rw [press, if_neg (by simp [hguarded]), if_neg (by simp [hshortcut]), if_neg hback,
    if_neg hdelete, if_neg (by simp [hnavigation]), if_pos htypes]

theorem press_back {key : Key} (hshortcut : key.shortcut = false) (hback : key.vkCode = vkBack)
    (host : CaretText WChar) : key.press host = host.eraseBefore 1 := by
  rw [press, if_neg (by rw [hback]; decide), if_neg (by simp [hshortcut]), if_pos hback]

theorem press_of_isTopGuarded {key : Key} (h : isTopGuarded key.vkCode = true)
    (host : CaretText WChar) : key.press host = host := if_pos h

end Key

end HookEngine

end VKey
