import VKey.BrowserHost.NativeMessaging
import VKey.Support.Spans

/-!
# The grammar of a message

A message is the text of an object: members between braces, with white space around every token.
The strings have no escapes, the numbers are digits.  A text is the text of at most one object.  The
grammar is a little wider than JSON: it has white space that JSON does not have, numbers that start
with a zero, and objects whose last member is followed by a comma.
-/

namespace VKey.BrowserHost

open BrowserContext (BrowserRoute BrowserMode)

/-- A byte of a string that stands for itself. -/
def isPlain (b : UInt8) : Bool := b != quoteMark && b != backslash && decide (0x20 ≤ b)

abbrev Blank := SpanOf isSpace

abbrev Chars := SpanOf isPlain

/-- The digits of a number. -/
@[ext] structure Number where
  digits : SpanOf isDigit
  nonempty : digits.items ≠ []

/-- The values of the members. -/
inductive Value where
  | string (chars : Chars)
  | number (n : Number)
  | truth (value : Bool)

def Value.text : Value → List UInt8
  | .string chars => quoteMark :: (chars.items ++ [quoteMark])
  | .number n => n.digits.items
  | .truth true => ascii "true"
  | .truth false => ascii "false"

/-- A member with the white space around its tokens. -/
@[ext] structure MemberText where
  beforeKey : Blank
  key : Chars
  afterKey : Blank
  beforeValue : Blank
  value : Value
  afterValue : Blank

def MemberText.text (m : MemberText) : List UInt8 :=
  m.beforeKey.items ++ quoteMark :: (m.key.items ++ quoteMark :: (m.afterKey.items ++
    colon :: (m.beforeValue.items ++ (m.value.text ++ m.afterValue.items))))

/-- What stands between the opening brace and the closing one, which is part of it. -/
inductive Body where
  | close (blank : Blank)
  | last (m : MemberText)
  | more (m : MemberText) (rest : Body)

namespace Body

def text : Body → List UInt8
  | close blank => blank.items ++ [closeBrace]
  | last m => m.text ++ [closeBrace]
  | more m rest => m.text ++ comma :: rest.text

@[simp] theorem close_text_append (blank : Blank) (rest : List UInt8) :
    (close blank).text ++ rest = blank.items ++ closeBrace :: rest := by
  simp [text]

@[simp] theorem last_text_append (m : MemberText) (rest : List UInt8) :
    (last m).text ++ rest = m.text ++ closeBrace :: rest := by
  simp [text]

@[simp] theorem more_text_append (m : MemberText) (tail : Body) (rest : List UInt8) :
    (more m tail).text ++ rest = m.text ++ comma :: (tail.text ++ rest) := by
  simp [text]

def memberTexts : Body → List MemberText
  | close _ => []
  | last m => [m]
  | more m rest => m :: rest.memberTexts

/-- The keys with their values. -/
def members (body : Body) : List (List UInt8 × Value) :=
  body.memberTexts.map fun m => (m.key.items, m.value)

/-- The white space behind the last comma. -/
def lastBlank : Body → Blank
  | close blank => blank
  | last _ => SpanOf.nil
  | more _ rest => rest.lastBlank

/-- The last member is followed by a comma. -/
def HasTrailingComma : Body → Prop
  | close _ => False
  | last _ => False
  | more _ (close _) => True
  | more _ rest => rest.HasTrailingComma

end Body

/-- An object with the white space around it. -/
@[ext] structure ObjectText where
  before : Blank
  body : Body
  after : Blank

namespace ObjectText

def text (o : ObjectText) : List UInt8 :=
  o.before.items ++ openBrace :: (o.body.text ++ o.after.items)

def members (o : ObjectText) : List (List UInt8 × Value) := o.body.members

/-- All white space. -/
def blanks (o : ObjectText) : List Blank :=
  o.before :: o.after :: o.body.lastBlank ::
    o.body.memberTexts.flatMap fun m => [m.beforeKey, m.afterKey, m.beforeValue, m.afterValue]

end ObjectText

/-! ## Texts have one reading -/

theorem isDigit_of_isSpace {b : UInt8} (h : isSpace b = true) : isDigit b = false := by
  unfold isSpace at h
  unfold isDigit
  grind

theorem isSpace_of_isDigit {b : UInt8} (h : isDigit b = true) : isSpace b = false := by
  by_contra hspace
  rw [isDigit_of_isSpace (by simpa using hspace)] at h
  exact absurd h (by decide)

/-- A number ends where the digits end. -/
def Value.EndsBefore (after : List UInt8) : Value → Prop
  | .number _ => StopsAt isDigit after
  | _ => True

theorem Value.text_stopsAt_space (v : Value) (rest : List UInt8) :
    StopsAt isSpace (v.text ++ rest) := by
  match v with
  | .string _ => exact stopsAt_cons.mpr (by decide)
  | .truth true => exact stopsAt_cons.mpr (by decide)
  | .truth false => exact stopsAt_cons.mpr (by decide)
  | .number n =>
      rcases hdigits : n.digits.items with - | ⟨b, tail⟩
      · exact absurd hdigits n.nonempty
      · have hb : isDigit b = true := n.digits.all_items b (by simp [hdigits])
        simpa [Value.text, hdigits] using isSpace_of_isDigit hb

theorem Value.text_stopsAt_digit {v : Value} (hnumber : ∀ n, v ≠ .number n) (rest : List UInt8) :
    StopsAt isDigit (v.text ++ rest) := by
  match v with
  | .string _ => exact stopsAt_cons.mpr (by decide)
  | .truth true => exact stopsAt_cons.mpr (by decide)
  | .truth false => exact stopsAt_cons.mpr (by decide)
  | .number n => exact absurd rfl (hnumber n)

theorem Number.not_stopsAt_digit (n : Number) (rest : List UInt8) :
    ¬ StopsAt isDigit (n.digits.items ++ rest) := by
  rcases hdigits : n.digits.items with - | ⟨b, tail⟩
  · exact absurd hdigits n.nonempty
  · have hb : isDigit b = true := n.digits.all_items b (by simp [hdigits])
    simp [hb]

theorem ascii_true_ne_ascii_false {rest rest' : List UInt8} :
    ascii "true" ++ rest ≠ ascii "false" ++ rest' := by
  intro h
  exact absurd (List.cons.inj h).1 (by decide)

theorem chars_append_inj {chars chars' : Chars} {rest rest' : List UInt8}
    (h : chars.items ++ quoteMark :: rest = chars'.items ++ quoteMark :: rest') :
    chars = chars' ∧ rest = rest' := by
  obtain ⟨hchars, hrest⟩ := SpanOf.append_inj h (by simp [isPlain]) (by simp [isPlain])
  exact ⟨hchars, (List.cons.inj hrest).2⟩

theorem Value.append_inj {v v' : Value} {rest rest' : List UInt8}
    (h : v.text ++ rest = v'.text ++ rest')
    (hend : v.EndsBefore rest) (hend' : v'.EndsBefore rest') : v = v' ∧ rest = rest' := by
  by_cases hnumber : ∃ n, v = .number n
  · obtain ⟨n, rfl⟩ := hnumber
    by_cases hnumber' : ∃ n', v' = .number n'
    · obtain ⟨n', rfl⟩ := hnumber'
      obtain ⟨hdigits, hrest⟩ := SpanOf.append_inj h hend hend'
      exact ⟨congrArg _ (Number.ext hdigits), hrest⟩
    · have hstop := text_stopsAt_digit (fun n' heq => hnumber' ⟨n', heq⟩) rest'
      exact absurd (h ▸ hstop) (n.not_stopsAt_digit rest)
  · have hstop := text_stopsAt_digit (fun n heq => hnumber ⟨n, heq⟩) rest
    match v, v' with
    | .number n, _ => exact absurd ⟨n, rfl⟩ hnumber
    | _, .number n' => exact absurd (h ▸ hstop) (n'.not_stopsAt_digit rest')
    | .string chars, .string chars' =>
        have hchars : chars.items ++ quoteMark :: rest = chars'.items ++ quoteMark :: rest' := by
          simpa [text] using h
        obtain ⟨rfl, hrest⟩ := chars_append_inj hchars
        exact ⟨rfl, hrest⟩
    | .truth true, .truth true => exact ⟨rfl, List.append_cancel_left h⟩
    | .truth false, .truth false => exact ⟨rfl, List.append_cancel_left h⟩
    | .truth true, .truth false => exact absurd h ascii_true_ne_ascii_false
    | .truth false, .truth true => exact absurd h.symm ascii_true_ne_ascii_false
    | .string _, .truth true => exact absurd (List.cons.inj h).1 (by decide)
    | .string _, .truth false => exact absurd (List.cons.inj h).1 (by decide)
    | .truth true, .string _ => exact absurd (List.cons.inj h).1 (by decide)
    | .truth false, .string _ => exact absurd (List.cons.inj h).1 (by decide)

theorem Value.endsBefore_blank (v : Value) (blank : Blank) {b : UInt8} {rest : List UInt8}
    (hb : isDigit b = false) : v.EndsBefore (blank.items ++ b :: rest) := by
  cases v with
  | number _ => exact blank.stopsAt_append (fun _ => isDigit_of_isSpace) (stopsAt_cons.mpr hb)
  | _ => trivial

/-- A member is followed by a byte that is neither white space nor a digit. -/
theorem MemberText.append_inj {m m' : MemberText} {b b' : UInt8} {rest rest' : List UInt8}
    (h : m.text ++ b :: rest = m'.text ++ b' :: rest')
    (hb : isSpace b = false ∧ isDigit b = false) (hb' : isSpace b' = false ∧ isDigit b' = false) :
    m = m' ∧ b = b' ∧ rest = rest' := by
  simp only [text, List.append_assoc, List.cons_append] at h
  obtain ⟨hbeforeKey, h⟩ := SpanOf.append_inj h (by simp; decide) (by simp; decide)
  obtain ⟨hkey, h⟩ := chars_append_inj (List.cons.inj h).2
  obtain ⟨hafterKey, h⟩ := SpanOf.append_inj h (by simp; decide) (by simp; decide)
  obtain ⟨hbeforeValue, h⟩ := SpanOf.append_inj (List.cons.inj h).2
    (Value.text_stopsAt_space _ _) (Value.text_stopsAt_space _ _)
  obtain ⟨hvalue, h⟩ := Value.append_inj h
    (m.value.endsBefore_blank m.afterValue hb.2) (m'.value.endsBefore_blank m'.afterValue hb'.2)
  obtain ⟨hafterValue, h⟩ := SpanOf.append_inj h (by simp [hb.1]) (by simp [hb'.1])
  obtain ⟨hbyte, hrest⟩ := List.cons.inj h
  exact ⟨MemberText.ext hbeforeKey hkey hafterKey hbeforeValue hvalue hafterValue, hbyte, hrest⟩

/-- White space is followed by the brace that ends the object or by the quotation mark of a
member. -/
theorem close_ne_memberText {blank : Blank} {m : MemberText} {rest rest' : List UInt8} :
    blank.items ++ closeBrace :: rest ≠ m.text ++ rest' := by
  intro h
  simp only [MemberText.text, List.append_assoc, List.cons_append] at h
  obtain ⟨-, h⟩ := SpanOf.append_inj h (by simp; decide) (by simp; decide)
  exact absurd (List.cons.inj h).1 (by decide)

theorem Body.append_inj {body body' : Body} {rest rest' : List UInt8}
    (h : body.text ++ rest = body'.text ++ rest') : body = body' ∧ rest = rest' := by
  have hbrace : isSpace closeBrace = false ∧ isDigit closeBrace = false := by decide
  have hcomma : isSpace comma = false ∧ isDigit comma = false := by decide
  induction body generalizing body' with
  | close blank =>
      rw [close_text_append] at h
      cases body' with
      | close blank' =>
          rw [close_text_append] at h
          obtain ⟨rfl, htail⟩ := SpanOf.append_inj h (by simp [hbrace.1]) (by simp [hbrace.1])
          exact ⟨rfl, (List.cons.inj htail).2⟩
      | last m' =>
          rw [last_text_append] at h
          exact absurd h close_ne_memberText
      | more m' tail' =>
          rw [more_text_append] at h
          exact absurd h close_ne_memberText
  | last m =>
      rw [last_text_append] at h
      cases body' with
      | close blank' =>
          rw [close_text_append] at h
          exact absurd h.symm close_ne_memberText
      | last m' =>
          rw [last_text_append] at h
          obtain ⟨rfl, -, hrest⟩ := MemberText.append_inj h hbrace hbrace
          exact ⟨rfl, hrest⟩
      | more m' tail' =>
          rw [more_text_append] at h
          obtain ⟨-, hbyte, -⟩ := MemberText.append_inj h hbrace hcomma
          exact absurd hbyte (by decide)
  | more m tail ih =>
      rw [more_text_append] at h
      cases body' with
      | close blank' =>
          rw [close_text_append] at h
          exact absurd h.symm close_ne_memberText
      | last m' =>
          rw [last_text_append] at h
          obtain ⟨-, hbyte, -⟩ := MemberText.append_inj h hcomma hbrace
          exact absurd hbyte (by decide)
      | more m' tail' =>
          rw [more_text_append] at h
          obtain ⟨rfl, -, htail⟩ := MemberText.append_inj h hcomma hcomma
          obtain ⟨rfl, hrest⟩ := ih htail
          exact ⟨rfl, hrest⟩

theorem ObjectText.text_injective : Function.Injective ObjectText.text := by
  intro o o' h
  obtain ⟨hbefore, h⟩ := SpanOf.append_inj h (by simp; decide) (by simp; decide)
  obtain ⟨hbody, hafter⟩ := Body.append_inj (List.cons.inj h).2
  exact ObjectText.ext hbefore hbody (SpanOf.ext hafter)

/-! ## JSON -/

/-- White space in JSON. -/
def isJsonSpace (b : UInt8) : Bool := b == 0x20 || b == 0x09 || b == 0x0A || b == 0x0D

/-- In JSON a number does not start with a zero, unless it is zero. -/
def Number.IsJson (n : Number) : Prop :=
  n.digits.items.head? = some 0x30 → n.digits.items = [0x30]

/-- In JSON a comma stands between two members. -/
def Body.IsSeparated : Body → Prop
  | .close _ => True
  | .last _ => True
  | .more _ (.close _) => False
  | .more _ rest => rest.IsSeparated

/-- The text is JSON. -/
structure ObjectText.IsJson (o : ObjectText) : Prop where
  blanks : ∀ blank ∈ o.blanks, ∀ b ∈ blank.items, isJsonSpace b = true
  numbers : ∀ key n, (key, Value.number n) ∈ o.members → n.IsJson
  separated : o.body.IsSeparated

/-- White space that only `isspace` takes for it: a vertical tab or a form feed. -/
def ObjectText.HasForeignSpace (o : ObjectText) : Prop :=
  ∃ blank ∈ o.blanks, 0x0B ∈ blank.items ∨ 0x0C ∈ blank.items

/-- A number with a zero in front. -/
def ObjectText.HasLeadingZero (o : ObjectText) : Prop :=
  ∃ key n rest, (key, Value.number n) ∈ o.members ∧ n.digits.items = 0x30 :: rest ∧ rest ≠ []

theorem isSpace_and_not_isJsonSpace_iff {b : UInt8} :
    isSpace b = true ∧ isJsonSpace b = false ↔ b = 0x0B ∨ b = 0x0C := by
  unfold isSpace isJsonSpace
  grind

theorem Body.isSeparated_iff (body : Body) : body.IsSeparated ↔ ¬ body.HasTrailingComma := by
  fun_induction Body.IsSeparated body with
  | case1 => simp [HasTrailingComma]
  | case2 => simp [HasTrailingComma]
  | case3 => simp [HasTrailingComma]
  | case4 m rest hclose ih =>
      rw [ih]
      cases rest with
      | close blank => exact absurd rfl (hclose blank)
      | _ => rfl

theorem Number.not_isJson_iff (n : Number) :
    ¬ n.IsJson ↔ ∃ rest, n.digits.items = 0x30 :: rest ∧ rest ≠ [] := by
  unfold IsJson
  rcases n.digits.items with - | ⟨b, rest⟩
  · simp
  · by_cases hb : b = 0x30
    · simp [hb]
    · simp [hb]

/-- The three ways in which the grammar is wider than JSON. -/
theorem ObjectText.not_isJson_iff (o : ObjectText) :
    ¬ o.IsJson ↔ o.body.HasTrailingComma ∨ o.HasLeadingZero ∨ o.HasForeignSpace := by
  have hblanks : (¬ ∀ blank ∈ o.blanks, ∀ b ∈ blank.items, isJsonSpace b = true) ↔
      o.HasForeignSpace := by
    push Not
    constructor
    · rintro ⟨blank, hblank, b, hb, hjson⟩
      have hforeign := isSpace_and_not_isJsonSpace_iff.mp
        ⟨blank.all_items b hb, by simpa using hjson⟩
      rcases hforeign with rfl | rfl
      · exact ⟨blank, hblank, Or.inl hb⟩
      · exact ⟨blank, hblank, Or.inr hb⟩
    · rintro ⟨blank, hblank, hb | hb⟩
      · exact ⟨blank, hblank, _, hb, by decide⟩
      · exact ⟨blank, hblank, _, hb, by decide⟩
  have hnumbers : (¬ ∀ key n, (key, Value.number n) ∈ o.members → n.IsJson) ↔
      o.HasLeadingZero := by
    push Not
    constructor
    · rintro ⟨key, n, hn, hjson⟩
      obtain ⟨rest, hrest⟩ := n.not_isJson_iff.mp hjson
      exact ⟨key, n, rest, hn, hrest⟩
    · rintro ⟨key, n, rest, hn, hrest⟩
      exact ⟨key, n, hn, n.not_isJson_iff.mpr ⟨rest, hrest⟩⟩
  have hjson : o.IsJson ↔ (∀ blank ∈ o.blanks, ∀ b ∈ blank.items, isJsonSpace b = true) ∧
      (∀ key n, (key, Value.number n) ∈ o.members → n.IsJson) ∧ o.body.IsSeparated :=
    ⟨fun h => ⟨h.blanks, h.numbers, h.separated⟩, fun h => ⟨h.1, h.2.1, h.2.2⟩⟩
  rw [← hblanks, ← hnumbers, hjson, o.body.isSeparated_iff]
  tauto

/-! ## Messages -/

/-- The fields that a member may stand for. -/
inductive Field where
  | protocol
  | browser
  | hostname
  | route
  | mode
  | focused
  deriving DecidableEq, Repr

namespace Field

abbrev Content : Field → Type
  | protocol => Nat
  | browser => List UInt8
  | hostname => List UInt8
  | route => BrowserRoute
  | mode => BrowserMode
  | focused => Bool

def name : Field → String
  | protocol => "protocol"
  | browser => "browser"
  | hostname => "hostname"
  | route => "route"
  | mode => "mode"
  | focused => "focused"

def key (f : Field) : List UInt8 := ascii f.name

/-- What a value says about a field. -/
def content : (f : Field) → Value → Option f.Content
  | protocol, .number n => protocolOf n.digits.items
  | browser, .string chars => some chars.items
  | hostname, .string chars => some chars.items
  | route, .string chars => routeOf chars.items
  | mode, .string chars => modeOf chars.items
  | focused, .truth value => some value
  | _, _ => none

/-- The fields of a version of the protocol. -/
def ofVersion (version : Nat) : List Field :=
  [protocol, browser, hostname, route, focused] ++ if version = 2 then [mode] else []

theorem forall_iff {P : Field → Prop} : (∀ f, P f) ↔
    P protocol ∧ P browser ∧ P hostname ∧ P route ∧ P focused ∧ P mode := by
  constructor
  · intro h
    exact ⟨h _, h _, h _, h _, h _, h _⟩
  · rintro ⟨hprotocol, hbrowser, hhostname, hroute, hfocused, hmode⟩ f
    cases f <;> assumption

theorem key_injective : Function.Injective key := by
  intro f g h
  cases f <;> cases g <;> first | rfl | exact absurd h (by decide)

end Field

def NativeMessage.get (msg : NativeMessage) : (f : Field) → f.Content
  | .protocol => msg.protocol
  | .browser => msg.browserExe
  | .hostname => msg.hostname
  | .route => msg.route
  | .mode => msg.mode
  | .focused => msg.focused

/-- The members are those of the version, each once, and they say what the message says.  The
browser is known and the host name is safe. -/
structure IsMessage (members : List (List UInt8 × Value)) (msg : NativeMessage) : Prop where
  keys : (members.map Prod.fst).Perm ((Field.ofVersion msg.protocol).map Field.key)
  contents : ∀ f ∈ Field.ofVersion msg.protocol,
    ∃ v, (f.key, v) ∈ members ∧ f.content v = some (msg.get f)
  mode : msg.protocol = 1 → msg.mode = .default
  browser : isAllowedBrowser msg.browserExe = true
  hostname : isSafeHostname msg.hostname = true
  focused : msg.focused = true → msg.hostname ≠ []

end VKey.BrowserHost
