import VKey.BrowserHost.MessageGrammar

/-!
# The parser reads the grammar

Every reader takes the texts of its token and leaves what follows.  A member is read as a member of
the grammar, and a run over the members gives each field the content of its only member.
-/

namespace VKey.BrowserHost

open BrowserContext (BrowserRoute BrowserMode)

/-! ## Tokens -/

theorem readByte_eq_some_iff {b : UInt8} (hb : isSpace b = false) {rest after : List UInt8} :
    readByte b rest = some after ↔ ∃ blank : Blank, rest = blank.items ++ b :: after := by
  have hskip : readByte b rest = some after ↔ skipSpace rest = b :: after := by
    unfold readByte
    rcases skipSpace rest with - | ⟨c, tail⟩
    · simp
    · simp
  rw [hskip, skipSpace, dropWhile_eq_iff]
  simp [hb]

theorem readByte_blank {b : UInt8} (hb : isSpace b = false) (blank : Blank) (after : List UInt8) :
    readByte b (blank.items ++ b :: after) = some after :=
  (readByte_eq_some_iff hb).mpr ⟨blank, rfl⟩

theorem readChars_eq_some_iff {rest out after : List UInt8} :
    readChars rest = some (out, after) ↔
      ∃ chars : Chars, chars.items = out ∧ rest = chars.items ++ quoteMark :: after := by
  constructor
  · intro h
    induction rest generalizing out with
    | nil => simp [readChars] at h
    | cons b rest ih =>
        unfold readChars at h
        split_ifs at h with hquote hrefused
        · obtain ⟨rfl, rfl⟩ := Prod.mk.inj (Option.some.inj h)
          exact ⟨SpanOf.nil, rfl, by simp [hquote]⟩
        · obtain ⟨⟨tail, rest'⟩, htail, heq⟩ := Option.map_eq_some_iff.mp h
          obtain ⟨rfl, rfl⟩ := Prod.mk.inj heq
          obtain ⟨chars, rfl, rfl⟩ := ih htail
          have hplain : isPlain b = true := by
            unfold isPlain
            grind
          refine ⟨⟨b :: chars.items, ?_⟩, rfl, rfl⟩
          exact List.forall_mem_cons.mpr ⟨hplain, chars.all_items⟩
  · rintro ⟨⟨chars, hchars⟩, rfl, rfl⟩
    induction chars with
    | nil => simp [readChars]
    | cons b chars ih =>
        obtain ⟨hb, hchars⟩ := List.forall_mem_cons.mp hchars
        have htail := ih hchars
        have hquote : b ≠ quoteMark ∧ ¬ (b = backslash ∨ b < 0x20) := by
          unfold isPlain at hb
          grind
        simp [readChars, hquote, htail]

theorem readString_eq_some_iff {rest out after : List UInt8} :
    readString rest = some (out, after) ↔ ∃ (blank : Blank) (chars : Chars), chars.items = out ∧
      rest = blank.items ++ ((Value.string chars).text ++ after) := by
  have hquote : isSpace quoteMark = false := by decide
  simp only [readString, Option.bind_eq_some_iff, readByte_eq_some_iff hquote,
    readChars_eq_some_iff]
  constructor
  · rintro ⟨tail, ⟨blank, rfl⟩, chars, rfl, rfl⟩
    exact ⟨blank, chars, rfl, by simp [Value.text]⟩
  · rintro ⟨blank, chars, rfl, rfl⟩
    exact ⟨_, ⟨blank, by simp only [Value.text, List.cons_append, List.append_assoc]; rfl⟩,
      chars, rfl, rfl⟩

theorem readString_blank (blank : Blank) (chars : Chars) (after : List UInt8) :
    readString (blank.items ++ ((Value.string chars).text ++ after)) = some (chars.items, after) :=
  readString_eq_some_iff.mpr ⟨blank, chars, rfl, rfl⟩

theorem readLiteral_eq_some_iff {literal : List UInt8}
    (hspace : ∀ rest, StopsAt isSpace (literal ++ rest)) {rest after : List UInt8} :
    readLiteral literal rest = some after ↔
      ∃ blank : Blank, rest = blank.items ++ (literal ++ after) := by
  have hskip : readLiteral literal rest = some after ↔ skipSpace rest = literal ++ after := by
    unfold readLiteral
    dsimp only
    constructor
    · intro h
      split_ifs at h with htake
      obtain rfl := Option.some.inj h
      conv_lhs => rw [← List.take_append_drop literal.length (skipSpace rest), htake]
    · intro h
      rw [h]
      simp
  rw [hskip, skipSpace, dropWhile_eq_iff]
  simp [hspace after]

/-! ## Values -/

/-- A reader takes the texts of the values that have a content, behind white space. -/
def Reads {α : Type} (read : List UInt8 → Option (α × List UInt8)) (content : Value → Option α) :
    Prop :=
  ∀ rest x after, read rest = some (x, after) ↔ ∃ (blank : Blank) (v : Value),
    rest = blank.items ++ (v.text ++ after) ∧ v.EndsBefore after ∧ content v = some x

theorem reads_string {content : Value → Option (List UInt8)}
    (hcontent : ∀ v x, content v = some x ↔ ∃ chars, v = .string chars ∧ chars.items = x) :
    Reads readString content := by
  intro rest x after
  rw [readString_eq_some_iff]
  constructor
  · rintro ⟨blank, chars, rfl, rfl⟩
    exact ⟨blank, .string chars, rfl, trivial, (hcontent _ _).mpr ⟨chars, rfl, rfl⟩⟩
  · rintro ⟨blank, v, rfl, -, hv⟩
    obtain ⟨chars, rfl, rfl⟩ := (hcontent _ _).mp hv
    exact ⟨blank, chars, rfl, rfl⟩

theorem reads_word {α : Type} {valueOf : List UInt8 → Option α} {content : Value → Option α}
    (hcontent : ∀ v x, content v = some x ↔
      ∃ chars, v = .string chars ∧ valueOf chars.items = some x) :
    Reads (readWord valueOf) content := by
  intro rest x after
  simp only [readWord, Option.bind_eq_some_iff, Option.map_eq_some_iff, Prod.exists, Prod.mk.injEq,
    readString_eq_some_iff]
  constructor
  · rintro ⟨-, -, ⟨blank, chars, rfl, rfl⟩, value, hvalue, rfl, rfl⟩
    exact ⟨blank, .string chars, rfl, trivial, (hcontent _ _).mpr ⟨chars, rfl, hvalue⟩⟩
  · rintro ⟨blank, v, rfl, -, hv⟩
    obtain ⟨chars, rfl, hvalue⟩ := (hcontent _ _).mp hv
    exact ⟨_, _, ⟨blank, chars, rfl, rfl⟩, x, hvalue, rfl, rfl⟩

theorem reads_protocol : Reads readProtocol Field.protocol.content := by
  intro rest x after
  simp only [readProtocol, Option.map_eq_some_iff, Prod.mk.injEq]
  constructor
  · rintro ⟨value, hvalue, rfl, rfl⟩
    have hnone : protocolOf [] = none := rfl
    have hnonempty : (skipSpace rest).takeWhile isDigit ≠ [] := by
      intro hnil
      rw [hnil, hnone] at hvalue
      exact absurd hvalue (by simp)
    refine ⟨SpanOf.longest isSpace rest,
      .number ⟨SpanOf.longest isDigit (skipSpace rest), hnonempty⟩, ?_, stopsAt_dropWhile _, hvalue⟩
    simp [SpanOf.longest, Value.text, skipSpace]
  · rintro ⟨blank, v, rfl, hend, hv⟩
    obtain ⟨n, rfl⟩ : ∃ n, v = .number n := by
      cases v with
      | number n => exact ⟨n, rfl⟩
      | _ => exact absurd hv (by simp [Field.content])
    have hskip := blank.dropWhile_append (Value.text_stopsAt_space (.number n) after)
    refine ⟨x, ?_, rfl, ?_⟩
    · rw [skipSpace, hskip, Value.text, n.digits.takeWhile_append hend]
      exact hv
    · rw [skipSpace, hskip, Value.text, n.digits.dropWhile_append hend]

theorem reads_focused : Reads readFocused Field.focused.content := by
  have hliteral (b : Bool) {rest after : List UInt8} :
      readLiteral (Value.truth b).text rest = some after ↔
        ∃ blank : Blank, rest = blank.items ++ ((Value.truth b).text ++ after) :=
    readLiteral_eq_some_iff (Value.text_stopsAt_space _)
  intro rest x after
  constructor
  · intro h
    unfold readFocused at h
    split at h
    · next tail htrue =>
        obtain ⟨rfl, rfl⟩ := Prod.mk.inj (Option.some.inj h)
        obtain ⟨blank, hrest⟩ := (hliteral true).mp htrue
        exact ⟨blank, .truth true, hrest, trivial, rfl⟩
    · obtain ⟨tail, hfalse, heq⟩ := Option.map_eq_some_iff.mp h
      obtain ⟨rfl, rfl⟩ := Prod.mk.inj heq
      obtain ⟨blank, hrest⟩ := (hliteral false).mp hfalse
      exact ⟨blank, .truth false, hrest, trivial, rfl⟩
  · rintro ⟨blank, v, hrest, -, hv⟩
    obtain ⟨b, rfl⟩ : ∃ b, v = .truth b := by
      cases v with
      | truth b => exact ⟨b, rfl⟩
      | _ => exact absurd hv (by simp [Field.content])
    obtain rfl : b = x := Option.some.inj hv
    have hread := (hliteral b).mpr ⟨blank, hrest⟩
    cases b with
    | true =>
        rw [readFocused, show readLiteral (ascii "true") rest = some after from hread]
    | false =>
        -- what starts with the one literal does not start with the other
        have hnone : readLiteral (ascii "true") rest = none := by
          by_contra hsome
          obtain ⟨tail, htail⟩ := Option.ne_none_iff_exists'.mp hsome
          obtain ⟨blank', hrest'⟩ := (hliteral true).mp htail
          obtain ⟨-, htext⟩ := SpanOf.append_inj (hrest'.symm.trans hrest)
            (Value.text_stopsAt_space _ _) (Value.text_stopsAt_space _ _)
          exact ascii_true_ne_ascii_false htext
        rw [readFocused, hnone]
        exact Option.map_eq_some_iff.mpr ⟨after, hread, rfl⟩

/-! ## Fields -/

namespace Field

/-- The reader of a field's value. -/
def read : (f : Field) → List UInt8 → Option (f.Content × List UInt8)
  | protocol => readProtocol
  | browser => readString
  | hostname => readString
  | route => readWord routeOf
  | mode => readWord modeOf
  | focused => readFocused

theorem reads (f : Field) : Reads f.read f.content := by
  cases f with
  | protocol => exact reads_protocol
  | focused => exact reads_focused
  | browser => exact reads_string fun v x => by cases v <;> simp [content]
  | hostname => exact reads_string fun v x => by cases v <;> simp [content]
  | route => exact reads_word fun v x => by cases v <;> simp [content]
  | mode => exact reads_word fun v x => by cases v <;> simp [content]

end Field

namespace Progress

def get (p : Progress) : (f : Field) → Option f.Content
  | .protocol => p.protocol
  | .browser => p.browserExe
  | .hostname => p.hostname
  | .route => p.route
  | .mode => p.mode
  | .focused => p.focused

def put (p : Progress) : (f : Field) → f.Content → Progress
  | .protocol, value => { p with protocol := some value }
  | .browser, value => { p with browserExe := some value }
  | .hostname, value => { p with hostname := some value }
  | .route, value => { p with route := some value }
  | .mode, value => { p with mode := some value }
  | .focused, value => { p with focused := some value }

@[simp] theorem get_empty (f : Field) : ({} : Progress).get f = none := by
  cases f <;> rfl

@[simp] theorem get_put_self (p : Progress) (f : Field) (x : f.Content) :
    (p.put f x).get f = some x := by
  cases f <;> rfl

theorem get_put_of_ne (p : Progress) {f g : Field} (h : g ≠ f) (x : f.Content) :
    (p.put f x).get g = p.get g := by
  cases f <;> cases g <;> first | rfl | exact absurd rfl h

theorem ext_get {p q : Progress} (h : ∀ f, p.get f = q.get f) : p = q := by
  cases p
  cases q
  congr 1
  exacts [h .protocol, h .browser, h .hostname, h .route, h .mode, h .focused]

end Progress

/-- The error of a field is its name. -/
theorem readField_key (f : Field) (p : Progress) (rest : List UInt8) :
    readField f.key p rest = readOnce (p.get f) f.name f.read (p.put f) rest := by
  cases f <;> rfl

theorem readField_of_forall_ne {key : List UInt8} (h : ∀ f : Field, key ≠ f.key) (p : Progress)
    (rest : List UInt8) : readField key p rest = .error "unknown_field" := by
  unfold readField
  split_ifs with hprotocol hbrowser hhostname hroute hmode hfocused
  · exact absurd hprotocol (h .protocol)
  · exact absurd hbrowser (h .browser)
  · exact absurd hhostname (h .hostname)
  · exact absurd hroute (h .route)
  · exact absurd hmode (h .mode)
  · exact absurd hfocused (h .focused)
  · rfl

/-- A member gives its field a content. -/
def Assigns (p : Progress) (key : List UInt8) (v : Value) (p' : Progress) : Prop :=
  ∃ f x, key = Field.key f ∧ p.get f = none ∧ f.content v = some x ∧ p' = p.put f x

theorem readOnce_eq_ok_iff {α : Type} {field : Option α} {error : String}
    {read : List UInt8 → Option (α × List UInt8)} {put : α → Progress} {rest after : List UInt8}
    {p : Progress} :
    readOnce field error read put rest = .ok (p, after) ↔
      field = none ∧ ∃ x, read rest = some (x, after) ∧ p = put x := by
  unfold readOnce
  cases field with
  | some _ => simp
  | none =>
      rcases read rest with - | ⟨x, tail⟩
      · simp
      · simp only [Option.isSome_none, Bool.false_eq_true, if_false, Except.ok.injEq, Prod.mk.injEq,
          true_and, Option.some.injEq]
        constructor
        · rintro ⟨rfl, rfl⟩
          exact ⟨x, ⟨rfl, rfl⟩, rfl⟩
        · rintro ⟨y, ⟨rfl, rfl⟩, rfl⟩
          exact ⟨rfl, rfl⟩

theorem readField_eq_ok_iff {key rest after : List UInt8} {p p' : Progress} :
    readField key p rest = .ok (p', after) ↔ ∃ (blank : Blank) (v : Value),
      rest = blank.items ++ (v.text ++ after) ∧ v.EndsBefore after ∧ Assigns p key v p' := by
  by_cases hkey : ∃ f : Field, key = f.key
  · obtain ⟨f, rfl⟩ := hkey
    rw [readField_key, readOnce_eq_ok_iff]
    simp only [f.reads rest _ after]
    constructor
    · rintro ⟨hnone, x, ⟨blank, v, hrest, hend, hv⟩, rfl⟩
      exact ⟨blank, v, hrest, hend, f, x, rfl, hnone, hv, rfl⟩
    · rintro ⟨blank, v, hrest, hend, g, x, hg, hnone, hv, rfl⟩
      obtain rfl := Field.key_injective hg
      exact ⟨hnone, x, ⟨blank, v, hrest, hend, hv⟩, rfl⟩
  · have hne (f : Field) : key ≠ f.key := fun hf => hkey ⟨f, hf⟩
    rw [readField_of_forall_ne hne]
    constructor
    · intro h
      exact absurd h (by simp)
    · rintro ⟨-, -, -, -, f, -, hf, -⟩
      exact absurd hf (hne f)

/-! ## Members -/

/-- The byte behind a member: a comma if there may be another member. -/
def separator (more : Bool) : UInt8 := if more then comma else closeBrace

theorem separator_class (more : Bool) :
    isSpace (separator more) = false ∧ isDigit (separator more) = false := by
  cases more <;> decide

theorem readSeparator_eq_some_iff {rest after : List UInt8} {more : Bool} :
    readSeparator rest = some (more, after) ↔
      ∃ blank : Blank, rest = blank.items ++ separator more :: after := by
  have hskip :
    readSeparator rest = some (more, after) ↔ skipSpace rest = separator more :: after := by
    unfold readSeparator separator
    rcases skipSpace rest with - | ⟨b, tail⟩
    · simp
    · have hne : comma ≠ closeBrace := by decide
      cases more <;> grind
  rw [hskip, skipSpace, dropWhile_eq_iff]
  simp [(separator_class more).1]

/-- What is read is the end of the object or a member. -/
theorem readMember_eq_ok_iff {p p' : Progress} {rest after : List UInt8} {more : Bool} :
    readMember p rest = .ok (p', more, after) ↔
      (∃ blank : Blank, rest = blank.items ++ closeBrace :: after ∧ p' = p ∧ more = false) ∨
      ∃ m : MemberText, rest = m.text ++ separator more :: after ∧
        Assigns p m.key.items m.value p' := by
  have hbrace : isSpace closeBrace = false := by decide
  have hcolon : isSpace colon = false := by decide
  constructor
  · intro h
    unfold readMember at h
    split at h
    · next tail hclose =>
        obtain ⟨rfl, rfl, rfl⟩ := by simpa using h
        obtain ⟨blank, hrest⟩ := (readByte_eq_some_iff hbrace).mp hclose
        exact Or.inl ⟨blank, hrest, rfl, rfl⟩
    · split at h
      · simp at h
      · next key behindKey hkey =>
          obtain ⟨beforeKey, key, rfl, rfl⟩ := readString_eq_some_iff.mp hkey
          split at h
          · simp at h
          · next behindColon hcolon' =>
              obtain ⟨afterKey, rfl⟩ := (readByte_eq_some_iff hcolon).mp hcolon'
              split at h
              · simp at h
              · next q behindValue hvalue =>
                  obtain ⟨beforeValue, value, rfl, -, hassigns⟩ := readField_eq_ok_iff.mp hvalue
                  split at h
                  · simp at h
                  · next m tail hseparator =>
                      obtain ⟨rfl, rfl, rfl⟩ := by simpa using h
                      obtain ⟨afterValue, rfl⟩ := readSeparator_eq_some_iff.mp hseparator
                      refine Or.inr ⟨⟨beforeKey, key, afterKey, beforeValue, value, afterValue⟩, ?_,
                        hassigns⟩
                      simp [MemberText.text, Value.text]
  · rintro (⟨blank, hrest, rfl, rfl⟩ | ⟨m, hrest, hassigns⟩)
    · have hclose := (readByte_eq_some_iff hbrace).mpr ⟨blank, hrest⟩
      simp only [readMember, hclose]
    · have hclose : readByte closeBrace rest = none := by
        by_contra hsome
        obtain ⟨tail, htail⟩ := Option.ne_none_iff_exists'.mp hsome
        obtain ⟨blank, hrest'⟩ := (readByte_eq_some_iff hbrace).mp htail
        exact close_ne_memberText (hrest'.symm.trans hrest)
      have hseparator : readSeparator (m.afterValue.items ++ separator more :: after) =
          some (more, after) := readSeparator_eq_some_iff.mpr ⟨m.afterValue, rfl⟩
      have hend : m.value.EndsBefore (m.afterValue.items ++ separator more :: after) :=
        m.value.endsBefore_blank m.afterValue (separator_class more).2
      have hvalue := readField_eq_ok_iff.mpr ⟨m.beforeValue, m.value, rfl, hend, hassigns⟩
      have htext : rest = m.beforeKey.items ++ ((Value.string m.key).text ++ (m.afterKey.items ++
          colon :: (m.beforeValue.items ++ (m.value.text ++ (m.afterValue.items ++
            separator more :: after))))) := by
        simp [hrest, MemberText.text, Value.text]
      rw [htext] at hclose ⊢
      simp only [readMember, hclose, readString_blank, readByte_blank hcolon, hvalue, hseparator]

/-! ## Runs over the members -/

/-- Members give their fields contents, one after the other. -/
inductive AssignsAll : Progress → List (List UInt8 × Value) → Progress → Prop where
  | nil (p : Progress) : AssignsAll p [] p
  | cons {p q p' : Progress} {key : List UInt8} {v : Value} {members : List (List UInt8 × Value)}
      (first : Assigns p key v q) (rest : AssignsAll q members p') :
      AssignsAll p ((key, v) :: members) p'

theorem parseMembers_of_end {p q : Progress} {rest after : List UInt8}
    (hread : readMember p rest = .ok (q, false, after)) : parseMembers p rest = .ok (q, after) := by
  unfold parseMembers
  split
  · next error herror => simp [hread] at herror
  · next hmore => simp [hread] at hmore
  · next hend =>
      obtain ⟨rfl, rfl⟩ := by simpa [hread] using hend
      rfl

theorem parseMembers_of_more {p q : Progress} {rest tail : List UInt8}
    (hread : readMember p rest = .ok (q, true, tail)) :
    parseMembers p rest = parseMembers q tail := by
  rw [parseMembers]
  split
  · next error herror => simp [hread] at herror
  · next hmore =>
      obtain ⟨rfl, rfl⟩ := by simpa [hread] using hmore
      rfl
  · next hend => simp [hread] at hend

theorem parseMembers_eq_ok_iff {p p' : Progress} {rest after : List UInt8} :
    parseMembers p rest = .ok (p', after) ↔
      ∃ body : Body, rest = body.text ++ after ∧ AssignsAll p body.members p' := by
  constructor
  · intro h
    fun_induction parseMembers p rest with
    | case1 p rest error hread => simp at h
    | case2 p rest q tail hread ih =>
        obtain ⟨body, rfl, hbody⟩ := ih h
        obtain ⟨-, -, -, hmore⟩ | ⟨m, rfl, hassigns⟩ := readMember_eq_ok_iff.mp hread
        · exact absurd hmore (by decide)
        · exact ⟨.more m body, by rw [Body.more_text_append]; rfl, .cons hassigns hbody⟩
    | case3 p rest q tail hread =>
        obtain ⟨rfl, rfl⟩ := by simpa using h
        obtain ⟨blank, rfl, rfl, -⟩ | ⟨m, rfl, hassigns⟩ := readMember_eq_ok_iff.mp hread
        · exact ⟨.close blank, by rw [Body.close_text_append], .nil _⟩
        · exact ⟨.last m, by rw [Body.last_text_append]; rfl, .cons hassigns (.nil _)⟩
  · rintro ⟨body, rfl, hbody⟩
    induction body generalizing p with
    | close blank =>
        obtain rfl : p = p' := by
          cases hbody
          rfl
        exact parseMembers_of_end (readMember_eq_ok_iff.mpr
          (Or.inl ⟨blank, Body.close_text_append .., rfl, rfl⟩))
    | last m =>
        rcases hbody with - | ⟨hassigns, hnil⟩
        cases hnil
        exact parseMembers_of_end (readMember_eq_ok_iff.mpr
          (Or.inr ⟨m, Body.last_text_append .., hassigns⟩))
    | more m tail ih =>
        rcases hbody with - | ⟨hassigns, htail⟩
        rw [parseMembers_of_more (readMember_eq_ok_iff.mpr
          (Or.inr ⟨m, Body.more_text_append .., hassigns⟩))]
        exact ih htail

end VKey.BrowserHost
