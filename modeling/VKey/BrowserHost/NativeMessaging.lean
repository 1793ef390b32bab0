import VKey.Ipc.BrowserContext

/-!
# The native-messaging protocol

The browser extension sends a small JSON object to the host.  The parser is written for this one
message: it reads a key, the value that belongs to the key, and what separates the member from the
next.
-/

namespace VKey.BrowserHost

open BrowserContext (BrowserRoute BrowserMode)

/-- The bytes of an ASCII word. -/
def ascii (word : String) : List UInt8 := word.toList.map fun c => UInt8.ofNat c.toNat

/-- The longest message. -/
def kMaxNativeMessageBytes : Nat := 8 * 1024

/-- What a message says. -/
structure NativeMessage where
  protocol : Nat := 1
  browserExe : List UInt8 := []
  hostname : List UInt8 := []
  route : BrowserRoute := .default
  mode : BrowserMode := .default
  focused : Bool := false
  deriving DecidableEq, Repr

/-! ## Reading the text -/

abbrev quoteMark : UInt8 := 0x22
abbrev backslash : UInt8 := 0x5C
abbrev comma : UInt8 := 0x2C
abbrev colon : UInt8 := 0x3A
abbrev openBrace : UInt8 := 0x7B
abbrev closeBrace : UInt8 := 0x7D

/-- `isspace` of the C locale. -/
def isSpace (b : UInt8) : Bool := b == 0x20 || (decide (9 ≤ b) && decide (b ≤ 13))

/-- `isdigit`. -/
def isDigit (b : UInt8) : Bool := decide (0x30 ≤ b) && decide (b ≤ 0x39)

/-- The text behind white space. -/
def skipSpace (rest : List UInt8) : List UInt8 := rest.dropWhile isSpace

/-- The characters up to a quotation mark, and what follows it.  Escapes and control characters are
refused. -/
def readChars : List UInt8 → Option (List UInt8 × List UInt8)
  | [] => none
  | b :: rest =>
      if b = quoteMark then some ([], rest)
      else if b = backslash ∨ b < 0x20 then none
      else (readChars rest).map fun (out, rest) => (b :: out, rest)

/-- The text behind a byte, if that byte is the first one after white space. -/
def readByte (b : UInt8) (rest : List UInt8) : Option (List UInt8) :=
  match skipSpace rest with
  | [] => none
  | c :: rest => if c = b then some rest else none

/-- A string and what follows it. -/
def readString (rest : List UInt8) : Option (List UInt8 × List UInt8) :=
  (readByte quoteMark rest).bind readChars

/-- What follows a literal. -/
def readLiteral (literal rest : List UInt8) : Option (List UInt8) :=
  let rest := skipSpace rest
  if rest.take literal.length = literal then some (rest.drop literal.length) else none

/-- `from_chars` for an `int`. -/
def fromChars (digits : List UInt8) : Option Nat :=
  let value := digits.foldl (fun n b => 10 * n + (b.toNat - 0x30)) 0
  if digits.isEmpty ∨ 2147483647 < value then none else some value

/-! ## The values -/

/-- The browsers that may connect. -/
def isAllowedBrowser (value : List UInt8) : Bool :=
  ["chrome.exe", "msedge.exe", "brave.exe", "firefox.exe", "vivaldi.exe", "opera.exe"].any
    fun browser => ascii browser == value

/-- A byte that a host name may have: a small letter, a digit, a dot, a hyphen or a colon. -/
def isHostByte (b : UInt8) : Bool :=
  (decide (0x61 ≤ b) && decide (b ≤ 0x7A)) || isDigit b || b == 0x2E || b == 0x2D || b == colon

/-- The host name is short and has no other bytes. -/
def isSafeHostname (value : List UInt8) : Bool :=
  decide (value.length < 256) && value.all isHostByte

/-- The version of the protocol. -/
def protocolOf (digits : List UInt8) : Option Nat :=
  (fromChars digits).filter fun value => value == 1 || value == 2

/-- The word for a route. -/
def routeOf (word : List UInt8) : Option BrowserRoute :=
  if word = ascii "default" then some .default
  else if word = ascii "english" then some .forceEnglish
  else if word = ascii "tsf" then some .forceTsf
  else none

/-- The word for a mode. -/
def modeOf (word : List UInt8) : Option BrowserMode :=
  if word = ascii "default" then some .default
  else if word = ascii "vietnamese" then some .vietnamese
  else if word = ascii "english" then some .english
  else none

/-- A version and what follows it. -/
def readProtocol (rest : List UInt8) : Option (Nat × List UInt8) :=
  let rest := skipSpace rest
  (protocolOf (rest.takeWhile isDigit)).map fun value => (value, rest.dropWhile isDigit)

/-- A word that names a value, and what follows it. -/
def readWord {α : Type} (valueOf : List UInt8 → Option α) (rest : List UInt8) :
    Option (α × List UInt8) :=
  (readString rest).bind fun (word, rest) => (valueOf word).map fun value => (value, rest)

/-- A truth value and what follows it. -/
def readFocused (rest : List UInt8) : Option (Bool × List UInt8) :=
  match readLiteral (ascii "true") rest with
  | some rest => some (true, rest)
  | none => (readLiteral (ascii "false") rest).map fun rest => (false, rest)

/-! ## The members -/

/-- The fields read so far. -/
structure Progress where
  protocol : Option Nat := none
  browserExe : Option (List UInt8) := none
  hostname : Option (List UInt8) := none
  route : Option BrowserRoute := none
  mode : Option BrowserMode := none
  focused : Option Bool := none
  deriving DecidableEq, Repr

/-- Read the value of a field that has not been read before. -/
def readOnce {α : Type} (field : Option α) (error : String)
    (read : List UInt8 → Option (α × List UInt8)) (put : α → Progress) (rest : List UInt8) :
    Except String (Progress × List UInt8) :=
  if field.isSome then .error "duplicate_field"
  else
    match read rest with
    | none => .error error
    | some (value, rest) => .ok (put value, rest)

/-- Read the value of a key. -/
def readField (key : List UInt8) (p : Progress) (rest : List UInt8) :
    Except String (Progress × List UInt8) :=
  if key = ascii "protocol" then
    readOnce p.protocol "protocol" readProtocol
      (fun value => { p with protocol := some value }) rest
  else if key = ascii "browser" then
    readOnce p.browserExe "browser" readString
      (fun value => { p with browserExe := some value }) rest
  else if key = ascii "hostname" then
    readOnce p.hostname "hostname" readString (fun value => { p with hostname := some value }) rest
  else if key = ascii "route" then
    readOnce p.route "route" (readWord routeOf) (fun value => { p with route := some value }) rest
  else if key = ascii "mode" then
    readOnce p.mode "mode" (readWord modeOf) (fun value => { p with mode := some value }) rest
  else if key = ascii "focused" then
    readOnce p.focused "focused" readFocused (fun value => { p with focused := some value }) rest
  else .error "unknown_field"

/-- Read what separates a member from the next: whether there may be another one, and what
follows. -/
def readSeparator (rest : List UInt8) : Option (Bool × List UInt8) :=
  match skipSpace rest with
  | [] => none
  | b :: rest =>
      if b = comma then some (true, rest) else if b = closeBrace then some (false, rest) else none

/-- Read a member, or the end of the object: the fields, whether there may be another member, and
what follows. -/
def readMember (p : Progress) (rest : List UInt8) : Except String (Progress × Bool × List UInt8) :=
  match readByte closeBrace rest with
  | some rest => .ok (p, false, rest)
  | none =>
      match readString rest with
      | none => .error "json_key"
      | some (key, rest) =>
          match readByte colon rest with
          | none => .error "json_colon"
          | some rest =>
              match readField key p rest with
              | .error error => .error error
              | .ok (p, rest) =>
                  match readSeparator rest with
                  | none => .error "json_separator"
                  | some (more, rest) => .ok (p, more, rest)

/-! ## Reading makes the text shorter -/

theorem length_skipSpace_le (rest : List UInt8) : (skipSpace rest).length ≤ rest.length :=
  (List.dropWhile_sublist _).length_le

theorem length_readByte_lt {b : UInt8} {rest after : List UInt8}
    (h : readByte b rest = some after) :
    after.length < rest.length := by
  have hle := length_skipSpace_le rest
  unfold readByte at h
  split at h
  · simp at h
  · next c tail hskip =>
      split_ifs at h
      obtain rfl := Option.some.inj h
      rw [hskip, List.length_cons] at hle
      omega

theorem length_readChars_lt {rest out after : List UInt8} (h : readChars rest = some (out, after)) :
    after.length < rest.length := by
  induction rest generalizing out with
  | nil => simp [readChars] at h
  | cons b rest ih =>
      unfold readChars at h
      split_ifs at h
      · obtain ⟨-, rfl⟩ := Prod.mk.inj (Option.some.inj h)
        exact Nat.lt_succ_self _
      · obtain ⟨⟨chars, tail⟩, hchars, heq⟩ := Option.map_eq_some_iff.mp h
        obtain ⟨-, rfl⟩ := Prod.mk.inj heq
        exact Nat.lt_succ_of_lt (ih hchars)

theorem length_readString_lt {rest out after : List UInt8}
    (h : readString rest = some (out, after)) :
    after.length < rest.length := by
  obtain ⟨tail, hbyte, hchars⟩ := Option.bind_eq_some_iff.mp h
  exact Nat.lt_trans (length_readChars_lt hchars) (length_readByte_lt hbyte)

theorem length_readLiteral_le {literal rest after : List UInt8}
    (h : readLiteral literal rest = some after) : after.length ≤ rest.length := by
  have hle := length_skipSpace_le rest
  unfold readLiteral at h
  dsimp only at h
  split_ifs at h
  obtain rfl := Option.some.inj h
  rw [List.length_drop]
  omega

theorem length_readProtocol_le {rest after : List UInt8} {value : Nat}
    (h : readProtocol rest = some (value, after)) : after.length ≤ rest.length := by
  obtain ⟨v, -, heq⟩ := Option.map_eq_some_iff.mp h
  obtain ⟨-, rfl⟩ := Prod.mk.inj heq
  exact Nat.le_trans (List.dropWhile_sublist _).length_le (length_skipSpace_le rest)

theorem length_readWord_le {α : Type} {valueOf : List UInt8 → Option α} {rest after : List UInt8}
    {value : α} (h : readWord valueOf rest = some (value, after)) : after.length ≤ rest.length := by
  obtain ⟨⟨word, tail⟩, hword, hvalue⟩ := Option.bind_eq_some_iff.mp h
  obtain ⟨v, -, heq⟩ := Option.map_eq_some_iff.mp hvalue
  obtain ⟨-, rfl⟩ := Prod.mk.inj heq
  exact Nat.le_of_lt (length_readString_lt hword)

theorem length_readFocused_le {rest after : List UInt8} {value : Bool}
    (h : readFocused rest = some (value, after)) : after.length ≤ rest.length := by
  unfold readFocused at h
  split at h
  · next tail htrue =>
      obtain ⟨-, rfl⟩ := Prod.mk.inj (Option.some.inj h)
      exact length_readLiteral_le htrue
  · obtain ⟨tail, hfalse, heq⟩ := Option.map_eq_some_iff.mp h
    obtain ⟨-, rfl⟩ := Prod.mk.inj heq
    exact length_readLiteral_le hfalse

theorem length_readOnce_le {α : Type} {field : Option α} {error : String}
    {read : List UInt8 → Option (α × List UInt8)} {put : α → Progress} {rest after : List UInt8}
    {p : Progress} (hread : ∀ {value}, read rest = some (value, after) → after.length ≤ rest.length)
    (h : readOnce field error read put rest = .ok (p, after)) : after.length ≤ rest.length := by
  unfold readOnce at h
  split_ifs at h
  split at h
  · simp at h
  · next value tail hvalue =>
      obtain ⟨-, rfl⟩ := Prod.mk.inj (Except.ok.inj h)
      exact hread hvalue

theorem length_readField_le {key rest after : List UInt8} {p p' : Progress}
    (h : readField key p rest = .ok (p', after)) : after.length ≤ rest.length := by
  unfold readField at h
  split_ifs at h
  · exact length_readOnce_le length_readProtocol_le h
  · exact length_readOnce_le (fun h => Nat.le_of_lt (length_readString_lt h)) h
  · exact length_readOnce_le (fun h => Nat.le_of_lt (length_readString_lt h)) h
  · exact length_readOnce_le length_readWord_le h
  · exact length_readOnce_le length_readWord_le h
  · exact length_readOnce_le length_readFocused_le h

theorem length_readSeparator_lt {rest after : List UInt8} {more : Bool}
    (h : readSeparator rest = some (more, after)) : after.length < rest.length := by
  have hle := length_skipSpace_le rest
  unfold readSeparator at h
  split at h
  · simp at h
  · next b tail hskip =>
      rw [hskip, List.length_cons] at hle
      split_ifs at h
      · obtain ⟨-, rfl⟩ := Prod.mk.inj (Option.some.inj h)
        omega
      · obtain ⟨-, rfl⟩ := Prod.mk.inj (Option.some.inj h)
        omega

theorem length_readMember_lt {p p' : Progress} {rest after : List UInt8} {more : Bool}
    (h : readMember p rest = .ok (p', more, after)) : after.length < rest.length := by
  unfold readMember at h
  split at h
  · next tail hclose =>
      obtain ⟨-, -, rfl⟩ := by simpa using h
      exact length_readByte_lt hclose
  · split at h
    · simp at h
    · next key behindKey hkey =>
        split at h
        · simp at h
        · next behindColon hcolon =>
            split at h
            · simp at h
            · next q behindValue hvalue =>
                split at h
                · simp at h
                · next m tail hseparator =>
                    obtain ⟨-, -, rfl⟩ := by simpa using h
                    have hkey' := length_readString_lt hkey
                    have hcolon' := length_readByte_lt hcolon
                    have hvalue' := length_readField_le hvalue
                    have hseparator' := length_readSeparator_lt hseparator
                    omega

/-! ## The message -/

/-- Read members up to the end of the object. -/
def parseMembers (p : Progress) (rest : List UInt8) : Except String (Progress × List UInt8) :=
  match _hread : readMember p rest with
  | .error error => .error error
  | .ok (p, true, rest) => parseMembers p rest
  | .ok (p, false, rest) => .ok (p, rest)
termination_by rest.length
decreasing_by exact length_readMember_lt _hread

/-- What the fields say, with the defaults of a message for those that are absent. -/
def Progress.message (p : Progress) : NativeMessage :=
  { protocol := p.protocol.getD 1
    browserExe := p.browserExe.getD []
    hostname := p.hostname.getD []
    route := p.route.getD .default
    mode := p.mode.getD .default
    focused := p.focused.getD false }

/-- All fields of the version were read, and no field of another version. -/
def Progress.hasRequiredFields (p : Progress) : Bool :=
  p.protocol.isSome && p.browserExe.isSome && p.hostname.isSome && p.route.isSome &&
    p.focused.isSome && !(p.message.protocol == 2 && p.mode.isNone) &&
    !(p.message.protocol == 1 && p.mode.isSome)

/-- The message of a text, or what is wrong with it. -/
def parseMessage (json : List UInt8) : Except String NativeMessage :=
  if json.isEmpty ∨ kMaxNativeMessageBytes < json.length then .error "message_size"
  else
    match readByte openBrace json with
    | none => .error "json_object"
    | some rest =>
        match parseMembers {} rest with
        | .error error => .error error
        | .ok (p, rest) =>
            if skipSpace rest ≠ [] ∨ !p.hasRequiredFields then .error "required_fields"
            else if !isAllowedBrowser p.message.browserExe then .error "browser_allowlist"
            else if !isSafeHostname p.message.hostname then .error "hostname_chars"
            else if p.message.focused ∧ p.message.hostname.isEmpty then .error "hostname_empty"
            else .ok p.message

/-- Parse a text: whether it is a message, the caller's message afterwards, and the error. -/
def parseNativeMessage (json : List UInt8) (out : NativeMessage) : Bool × NativeMessage × String :=
  match parseMessage json with
  | .ok message => (true, message, "")
  | .error error => (false, out, error)

end VKey.BrowserHost
