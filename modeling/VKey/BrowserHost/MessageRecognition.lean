import Mathlib.Data.List.Nodup
import VKey.BrowserHost.MessageParser

/-!
# Which texts are accepted

The parser accepts the texts of the grammar whose members are a message.  That is JSON, apart from
three kinds of texts.
-/

namespace VKey.BrowserHost

/-! ## What the members say -/

/-- The fields after the members: every key is that of a field without content, and stands once. -/
structure Filled (p : Progress) (members : List (List UInt8 × Value)) (p' : Progress) : Prop where
  once : (members.map Prod.fst).Nodup
  contents : ∀ key v, (key, v) ∈ members →
    ∃ f x, key = Field.key f ∧ p.get f = none ∧ f.content v = some x ∧ p'.get f = some x
  absent : ∀ f : Field, f.key ∉ members.map Prod.fst → p'.get f = p.get f

namespace Filled

variable {p p' : Progress} {key : List UInt8} {v : Value} {members : List (List UInt8 × Value)}

theorem cons {f : Field} {x : f.Content} (hnone : p.get f = none) (hv : f.content v = some x)
    (h : Filled (p.put f x) members p') : Filled p ((f.key, v) :: members) p' := by
  have hne {g : Field} (hg : (p.put f x).get g = none) : g ≠ f := by
    rintro rfl
    simp at hg
  have hnotin : f.key ∉ members.map Prod.fst := by
    intro hmem
    obtain ⟨⟨key, w⟩, hw, hkey⟩ := List.mem_map.mp hmem
    obtain ⟨g, -, hg, hgnone, -⟩ := h.contents key w hw
    exact hne hgnone (Field.key_injective (hg.symm.trans hkey))
  refine ⟨List.nodup_cons.mpr ⟨hnotin, h.once⟩, ?_, ?_⟩
  · intro key w hmem
    rcases List.mem_cons.mp hmem with heq | hmem
    · obtain ⟨rfl, rfl⟩ := Prod.mk.inj heq
      exact ⟨f, x, rfl, hnone, hv, (h.absent f hnotin).trans (p.get_put_self f x)⟩
    · obtain ⟨g, y, rfl, hgnone, hw, hget⟩ := h.contents key w hmem
      exact ⟨g, y, rfl, by rwa [p.get_put_of_ne (hne hgnone)] at hgnone, hw, hget⟩
  · intro g hg
    obtain ⟨hkey, hg⟩ := not_or.mp (fun hmem => hg (List.mem_cons.mpr hmem))
    have hgf : g ≠ f := by
      rintro rfl
      exact hkey rfl
    rw [h.absent g hg, p.get_put_of_ne hgf]

theorem uncons (h : Filled p ((key, v) :: members) p') :
    ∃ f x, key = Field.key f ∧ p.get f = none ∧ f.content v = some x ∧
      Filled (p.put f x) members p' := by
  obtain ⟨f, x, rfl, hnone, hv, hget⟩ := h.contents key v List.mem_cons_self
  obtain ⟨hnotin, honce⟩ := List.nodup_cons.mp h.once
  refine ⟨f, x, rfl, hnone, hv, honce, ?_, ?_⟩
  · intro key w hmem
    obtain ⟨g, y, rfl, hgnone, hw, hgetg⟩ := h.contents key w (List.mem_cons_of_mem _ hmem)
    have hgf : g ≠ f := by
      rintro rfl
      exact hnotin (List.mem_map.mpr ⟨_, hmem, rfl⟩)
    exact ⟨g, y, rfl, by rw [p.get_put_of_ne hgf, hgnone], hw, hgetg⟩
  · intro g hg
    by_cases hgf : g = f
    · subst hgf
      rw [hget, p.get_put_self]
    · rw [p.get_put_of_ne hgf]
      refine h.absent g fun hmem => ?_
      rcases List.mem_cons.mp hmem with hkey | hmem
      · exact hgf (Field.key_injective hkey)
      · exact hg hmem

end Filled

theorem assignsAll_iff {p p' : Progress} {members : List (List UInt8 × Value)} :
    AssignsAll p members p' ↔ Filled p members p' := by
  constructor
  · intro h
    induction h with
    | nil p => exact ⟨List.nodup_nil, by simp, fun _ _ => rfl⟩
    | cons first rest ih =>
        obtain ⟨f, x, rfl, hnone, hv, rfl⟩ := first
        exact ih.cons hnone hv
  · intro h
    induction members generalizing p with
    | nil =>
        obtain rfl : p' = p := Progress.ext_get fun f => h.absent f (by simp)
        exact .nil p'
    | cons member members ih =>
        obtain ⟨f, x, hkey, hnone, hv, hrest⟩ := h.uncons
        exact .cons ⟨f, x, hkey, hnone, hv, rfl⟩ (ih hrest)

/-! ## Messages -/

namespace Filled

variable {p : Progress} {members : List (List UInt8 × Value)}

theorem isSome_get_iff (h : Filled {} members p) (f : Field) :
    (p.get f).isSome ↔ f.key ∈ members.map Prod.fst := by
  constructor
  · intro hsome
    by_contra hmem
    rw [h.absent f hmem, Progress.get_empty] at hsome
    exact absurd hsome (by simp)
  · intro hmem
    obtain ⟨⟨key, v⟩, hv, hkey⟩ := List.mem_map.mp hmem
    obtain ⟨g, x, hg, -, -, hget⟩ := h.contents key v hv
    obtain rfl := Field.key_injective (hg.symm.trans hkey)
    rw [hget]
    rfl

theorem exists_content (h : Filled {} members p) {f : Field} {x : f.Content}
    (hget : p.get f = some x) :
    ∃ v, (f.key, v) ∈ members ∧ f.content v = some x := by
  obtain ⟨⟨key, v⟩, hv, hkey⟩ := List.mem_map.mp ((h.isSome_get_iff f).mp (by rw [hget]; rfl))
  obtain rfl : key = f.key := hkey
  obtain ⟨g, y, hg, -, hcontent, hgetg⟩ := h.contents _ v hv
  obtain rfl := Field.key_injective hg
  obtain rfl := Option.some.inj (hget.symm.trans hgetg)
  exact ⟨v, hv, hcontent⟩

end Filled

theorem version_of_content {v : Value} {version : Nat}
    (h : Field.protocol.content v = some version) :
    version = 1 ∨ version = 2 := by
  cases v with
  | number n =>
      have hfilter : protocolOf n.digits.items = some version := h
      simpa using (Option.filter_eq_some_iff.mp hfilter).2
  | _ => exact absurd h (by simp [Field.content])

namespace Progress

theorem message_get {p : Progress} {f : Field} {x : f.Content} (h : p.get f = some x) :
    p.message.get f = x := by
  cases f <;> simp_all [get, message, NativeMessage.get]

theorem hasRequiredFields_iff {p : Progress}
    (hversion : p.message.protocol = 1 ∨ p.message.protocol = 2) :
    p.hasRequiredFields = true ↔
      ∀ f, (p.get f).isSome ↔ f ∈ Field.ofVersion p.message.protocol := by
  rw [Field.forall_iff]
  rcases hversion with hversion | hversion
  · simp [hasRequiredFields, get, Field.ofVersion, hversion, and_assoc]
  · simp [hasRequiredFields, get, Field.ofVersion, hversion, and_assoc]

/-- The fields that a message comes from. -/
def ofMessage (msg : NativeMessage) : Progress :=
  { protocol := some msg.protocol
    browserExe := some msg.browserExe
    hostname := some msg.hostname
    route := some msg.route
    mode := if msg.protocol = 2 then some msg.mode else none
    focused := some msg.focused }

theorem get_ofMessage (msg : NativeMessage) (f : Field) :
    (ofMessage msg).get f = if f ∈ Field.ofVersion msg.protocol then some
    (msg.get f) else none := by
  cases f <;> simp [ofMessage, get, Field.ofVersion, NativeMessage.get]

theorem message_ofMessage {msg : NativeMessage} (hmode : msg.protocol ≠ 2 → msg.mode = .default) :
    (ofMessage msg).message = msg := by
  have hmode' : (if msg.protocol = 2 then some msg.mode else none).getD .default = msg.mode := by
    split_ifs with hversion
    · rfl
    · exact (hmode hversion).symm
  simp only [message, ofMessage, Option.getD_some, hmode']

end Progress

theorem Field.nodup_ofVersion (version : Nat) : ((ofVersion version).map key).Nodup := by
  refine List.Nodup.map key_injective ?_
  unfold ofVersion
  split_ifs <;> decide

theorem Filled.version {p : Progress} {members : List (List UInt8 × Value)}
    (h : Filled {} members p)
    (hfields : p.hasRequiredFields = true) : p.message.protocol = 1 ∨ p.message.protocol = 2 := by
  have hsome : (p.get .protocol).isSome := by
    simp only [Progress.hasRequiredFields, Bool.and_eq_true, and_assoc] at hfields
    exact hfields.1
  obtain ⟨x, hx⟩ := Option.isSome_iff_exists.mp hsome
  obtain ⟨v, -, hv⟩ := h.exists_content hx
  obtain rfl : p.message.protocol = x := Progress.message_get hx
  exact version_of_content hv

theorem IsMessage.version {members : List (List UInt8 × Value)} {msg : NativeMessage}
    (h : IsMessage members msg) : msg.protocol = 1 ∨ msg.protocol = 2 := by
  obtain ⟨v, -, hv⟩ := h.contents .protocol (by simp [Field.ofVersion])
  exact version_of_content hv

theorem IsMessage.filled {members : List (List UInt8 × Value)} {msg : NativeMessage}
    (h : IsMessage members msg) : Filled {} members (Progress.ofMessage msg) := by
  have hkeys (f : Field) : f.key ∈ members.map Prod.fst ↔ f ∈ Field.ofVersion msg.protocol := by
    rw [h.keys.mem_iff, List.mem_map_of_injective Field.key_injective]
  have honce : (members.map Prod.fst).Nodup := h.keys.nodup_iff.mpr (Field.nodup_ofVersion _)
  refine ⟨honce, ?_, ?_⟩
  · intro key v hv
    obtain ⟨f, hf, rfl⟩ := List.mem_map.mp (h.keys.mem_iff.mp (List.mem_map_of_mem hv))
    obtain ⟨w, hw, hcontent⟩ := h.contents f hf
    -- the key stands once
    obtain rfl : w = v := (Prod.mk.inj (List.inj_on_of_nodup_map honce hw hv rfl)).2
    exact ⟨f, msg.get f, rfl, Progress.get_empty f, hcontent, by
      rw [Progress.get_ofMessage, if_pos hf]⟩
  · intro f hf
    rw [Progress.get_ofMessage, if_neg fun hmem => hf ((hkeys f).mpr hmem), Progress.get_empty]

/-- The fields whose presence the parser asks for are those of a message. -/
theorem Filled.isMessage {p : Progress} {members : List (List UInt8 × Value)}
    (h : Filled {} members p)
    (hfields : p.hasRequiredFields = true) (hbrowser : isAllowedBrowser p.message.browserExe = true)
    (hhostname : isSafeHostname p.message.hostname = true)
    (hfocused : ¬ (p.message.focused = true ∧ p.message.hostname.isEmpty = true)) :
    IsMessage members p.message := by
  have hsome := (Progress.hasRequiredFields_iff (h.version hfields)).mp hfields
  have hkeys (f : Field) : f.key ∈ members.map Prod.fst ↔ f ∈ Field.ofVersion p.message.protocol :=
    (h.isSome_get_iff f).symm.trans (hsome f)
  refine ⟨?_, ?_, ?_, hbrowser, hhostname, ?_⟩
  · refine (List.perm_ext_iff_of_nodup h.once (Field.nodup_ofVersion _)).mpr fun key => ?_
    constructor
    · intro hmem
      obtain ⟨⟨key, v⟩, hv, rfl⟩ := List.mem_map.mp hmem
      obtain ⟨f, -, rfl, -⟩ := h.contents key v hv
      exact List.mem_map_of_mem ((hkeys f).mp hmem)
    · intro hmem
      obtain ⟨f, hf, rfl⟩ := List.mem_map.mp hmem
      exact (hkeys f).mpr hf
  · intro f hf
    obtain ⟨x, hx⟩ := Option.isSome_iff_exists.mp ((hsome f).mpr hf)
    rw [Progress.message_get hx]
    exact h.exists_content hx
  · intro hone
    have hmode : p.mode = none := by
      have hnot : ¬ (p.get .mode).isSome := by
        rw [hsome .mode, hone]
        decide
      simpa [Progress.get] using hnot
    simp [Progress.message, hmode]
  · intro hmsg hempty
    exact hfocused ⟨hmsg, List.isEmpty_iff.mpr hempty⟩

theorem isMessage_iff {members : List (List UInt8 × Value)} {msg : NativeMessage} :
    IsMessage members msg ↔ ∃ p : Progress, Filled {} members p ∧ p.hasRequiredFields = true ∧
      isAllowedBrowser msg.browserExe = true ∧ isSafeHostname msg.hostname = true ∧
      ¬ (msg.focused = true ∧ msg.hostname.isEmpty = true) ∧ p.message = msg := by
  constructor
  · intro h
    have hmode : msg.protocol ≠ 2 → msg.mode = .default := fun hversion =>
      h.mode (h.version.resolve_right hversion)
    have hmessage := Progress.message_ofMessage hmode
    refine ⟨Progress.ofMessage msg, h.filled, ?_, h.browser, h.hostname, ?_, hmessage⟩
    · rw [Progress.hasRequiredFields_iff (by rw [hmessage]; exact h.version), hmessage]
      intro f
      rw [Progress.get_ofMessage]
      split_ifs with hf
      · simp [hf]
      · simp [hf]
    · rintro ⟨hfocused, hempty⟩
      exact h.focused hfocused (List.isEmpty_iff.mp hempty)
  · rintro ⟨p, hp, hfields, hbrowser, hhostname, hfocused, rfl⟩
    exact hp.isMessage hfields hbrowser hhostname hfocused

theorem skipSpace_eq_nil_iff {rest : List UInt8} :
    skipSpace rest = [] ↔ ∃ blank : Blank, rest = blank.items := by
  rw [skipSpace, dropWhile_eq_iff]
  simp

/-- The parser accepts the texts of the objects that are messages. -/
theorem parseMessage_eq_ok_iff {json : List UInt8} {msg : NativeMessage} :
    parseMessage json = .ok msg ↔ ∃ o : ObjectText, o.text = json ∧
      json.length ≤ kMaxNativeMessageBytes ∧ IsMessage o.members msg := by
  have hbrace : isSpace openBrace = false := by decide
  constructor
  · intro h
    unfold parseMessage at h
    split_ifs at h with hsize
    split at h
    · simp at h
    · next rest hopen =>
        split at h
        · simp at h
        · next p after hmembers =>
            split_ifs at h with hfields hbrowser hhostname hfocused
            obtain rfl := Except.ok.inj h
            obtain ⟨before, rfl⟩ := (readByte_eq_some_iff hbrace).mp hopen
            obtain ⟨body, rfl, hbody⟩ := parseMembers_eq_ok_iff.mp hmembers
            obtain ⟨hafter, hrequired⟩ := not_or.mp hfields
            obtain ⟨after, rfl⟩ := skipSpace_eq_nil_iff.mp (not_not.mp hafter)
            refine ⟨⟨before, body, after⟩, rfl, Nat.le_of_not_lt (not_or.mp hsize).2, ?_⟩
            exact isMessage_iff.mpr ⟨p, assignsAll_iff.mp hbody, by simpa using hrequired,
              by simpa using hbrowser, by simpa using hhostname, hfocused, rfl⟩
  · rintro ⟨o, rfl, hlength, hmessage⟩
    obtain ⟨p, hp, hfields, hbrowser, hhostname, hfocused, rfl⟩ := isMessage_iff.mp hmessage
    have hsize : ¬ (o.text.isEmpty = true ∨ kMaxNativeMessageBytes < o.text.length) := by
      rintro (hempty | hlong)
      · simp [ObjectText.text] at hempty
      · exact Nat.not_lt_of_le hlength hlong
    have hopen : readByte openBrace o.text = some (o.body.text ++ o.after.items) :=
      readByte_blank hbrace o.before _
    have hmembers : parseMembers {} (o.body.text ++ o.after.items) = .ok (p, o.after.items) :=
      parseMembers_eq_ok_iff.mpr ⟨o.body, rfl, assignsAll_iff.mpr hp⟩
    have hafter : skipSpace o.after.items = [] := skipSpace_eq_nil_iff.mpr ⟨o.after, rfl⟩
    unfold parseMessage
    rw [if_neg hsize]
    simp only [hopen, hmembers, hafter, hfields, hbrowser, hhostname, hfocused, ne_eq,
      not_true_eq_false, Bool.not_true, Bool.false_eq_true, or_self, if_false]

/-! ## JSON -/

/-- A text is a message if it is a JSON object of a message, and not too long. -/
def IsMessageText (json : List UInt8) : Prop :=
  ∃ (o : ObjectText) (msg : NativeMessage), o.IsJson ∧ o.text = json ∧
    json.length ≤ kMaxNativeMessageBytes ∧ IsMessage o.members msg

/-- A text is a message but for a comma behind the last member, a zero in front of a number, or
white space that JSON does not have. -/
def IsLooseMessageText (json : List UInt8) : Prop :=
  ∃ (o : ObjectText) (msg : NativeMessage), o.text = json ∧
    json.length ≤ kMaxNativeMessageBytes ∧ IsMessage o.members msg ∧
    (o.body.HasTrailingComma ∨ o.HasLeadingZero ∨ o.HasForeignSpace)

theorem parseNativeMessage_of_ok {json : List UInt8} {msg : NativeMessage}
    (h : parseMessage json = .ok msg) (out : NativeMessage) :
    parseNativeMessage json out = (true, msg, "") := by
  simp only [parseNativeMessage, h]

theorem parseNativeMessage_fst_iff {json : List UInt8} (out : NativeMessage) :
    (parseNativeMessage json out).1 = true ↔ ∃ msg, parseMessage json = .ok msg := by
  unfold parseNativeMessage
  rcases parseMessage json with error | msg
  · simp
  · simp

theorem parseNativeMessage_of_fst {json : List UInt8} {out : NativeMessage}
    (h : (parseNativeMessage json out).1 = false) : (parseNativeMessage json out).2.1 = out := by
  cases hparse : parseMessage json with
  | error error => simp only [parseNativeMessage, hparse]
  | ok msg =>
      rw [parseNativeMessage_of_ok hparse] at h
      simp at h

theorem IsMessage.of_perm {members members' : List (List UInt8 × Value)} {msg : NativeMessage}
    (h : IsMessage members msg) (hperm : members.Perm members') : IsMessage members' msg where
  keys := (hperm.map Prod.fst).symm.trans h.keys
  contents := fun f hf => by
    obtain ⟨v, hv, hcontent⟩ := h.contents f hf
    exact ⟨v, hperm.mem_iff.mp hv, hcontent⟩
  mode := h.mode
  browser := h.browser
  hostname := h.hostname
  focused := h.focused

/-- Two texts of the same members, in any order, are read alike. -/
theorem parseNativeMessage_of_perm {o o' : ObjectText}
    (hlength : o.text.length ≤ kMaxNativeMessageBytes)
    (hlength' : o'.text.length ≤ kMaxNativeMessageBytes) (hperm : o.members.Perm o'.members)
    (out : NativeMessage) :
    (parseNativeMessage o.text out).1 = (parseNativeMessage o'.text out).1 ∧
      (parseNativeMessage o.text out).2.1 = (parseNativeMessage o'.text out).2.1 := by
  have hok (msg : NativeMessage) :
    parseMessage o.text = .ok msg ↔ parseMessage o'.text = .ok msg := by
    rw [parseMessage_eq_ok_iff, parseMessage_eq_ok_iff]
    constructor
    · rintro ⟨u, hu, -, hmessage⟩
      obtain rfl := ObjectText.text_injective hu
      exact ⟨o', rfl, hlength', hmessage.of_perm hperm⟩
    · rintro ⟨u, hu, -, hmessage⟩
      obtain rfl := ObjectText.text_injective hu
      exact ⟨o, rfl, hlength, hmessage.of_perm hperm.symm⟩
  by_cases haccepted : ∃ msg, parseMessage o.text = .ok msg
  · obtain ⟨msg, hmsg⟩ := haccepted
    rw [parseNativeMessage_of_ok hmsg, parseNativeMessage_of_ok ((hok msg).mp hmsg)]
    exact ⟨rfl, rfl⟩
  · have haccepted' : ¬ ∃ msg, parseMessage o'.text = .ok msg := fun ⟨msg, hmsg⟩ =>
      haccepted ⟨msg, (hok msg).mpr hmsg⟩
    have hfalse := Bool.eq_false_iff.mpr (mt (parseNativeMessage_fst_iff out).mp haccepted)
    have hfalse' := Bool.eq_false_iff.mpr (mt (parseNativeMessage_fst_iff out).mp haccepted')
    rw [hfalse, hfalse', parseNativeMessage_of_fst hfalse, parseNativeMessage_of_fst hfalse']
    exact ⟨rfl, rfl⟩

theorem isLooseMessageText_iff {json : List UInt8} :
    IsLooseMessageText json ↔ (∃ msg, parseMessage json = .ok msg) ∧ ¬ IsMessageText json := by
  constructor
  · rintro ⟨o, msg, htext, hlength, hmessage, hloose⟩
    refine ⟨⟨msg, parseMessage_eq_ok_iff.mpr ⟨o, htext, hlength, hmessage⟩⟩, ?_⟩
    rintro ⟨o', -, hjson, htext', -⟩
    obtain rfl := ObjectText.text_injective (htext.trans htext'.symm)
    exact o.not_isJson_iff.mpr hloose hjson
  · rintro ⟨⟨msg, hmsg⟩, hnot⟩
    obtain ⟨o, htext, hlength, hmessage⟩ := parseMessage_eq_ok_iff.mp hmsg
    have hjson : ¬ o.IsJson := fun hjson => hnot ⟨o, msg, hjson, htext, hlength, hmessage⟩
    exact ⟨o, msg, htext, hlength, hmessage, o.not_isJson_iff.mp hjson⟩

/-- The parser accepts a text exactly if it is a message, unless the text is one but for a comma, a
zero or white space.  A text that is not accepted leaves the caller's message alone, and the order
of the members does not matter. -/
theorem parseNativeMessage_exact_iff (json : List UInt8) (out : NativeMessage) :
    (((parseNativeMessage json out).1 = true ↔ IsMessageText json) ∧
      ((parseNativeMessage json out).1 = false → (parseNativeMessage json out).2.1 = out) ∧
      ∀ o o' : ObjectText, o.text = json → json.length ≤ kMaxNativeMessageBytes →
        o'.text.length ≤ kMaxNativeMessageBytes → o.members.Perm o'.members →
        (parseNativeMessage json out).1 = (parseNativeMessage o'.text out).1 ∧
          (parseNativeMessage json out).2.1 = (parseNativeMessage o'.text out).2.1) ↔
      ¬ IsLooseMessageText json := by
  rw [isLooseMessageText_iff, ← parseNativeMessage_fst_iff out]
  constructor
  · rintro ⟨haccepted, -, -⟩ ⟨htrue, hnot⟩
    exact hnot (haccepted.mp htrue)
  · intro hloose
    refine ⟨⟨fun htrue => by_contra fun hnot => hloose ⟨htrue, hnot⟩, ?_⟩,
      parseNativeMessage_of_fst, ?_⟩
    · rintro ⟨o, msg, -, htext, hlength, hmessage⟩
      exact (parseNativeMessage_fst_iff out).mpr
        ⟨msg, parseMessage_eq_ok_iff.mpr ⟨o, htext, hlength, hmessage⟩⟩
    · rintro o o' rfl hlength hlength' hperm
      exact parseNativeMessage_of_perm hlength hlength' hperm out

/-- A member without white space. -/
def MemberText.tight (key : Chars) (value : Value) : MemberText :=
  ⟨SpanOf.nil, key, SpanOf.nil, SpanOf.nil, value, SpanOf.nil⟩

/-- A message with a comma behind its last member. -/
def commaObject : ObjectText where
  before := SpanOf.nil
  body :=
    .more (.tight (.ofAll (ascii "protocol") rfl) (.number ⟨.ofAll (ascii "1") rfl, by decide⟩)) <|
    .more (.tight (.ofAll (ascii "browser") rfl) (.string (.ofAll (ascii "chrome.exe") rfl))) <|
    .more (.tight (.ofAll (ascii "hostname") rfl) (.string (.ofAll (ascii "voz.vn") rfl))) <|
    .more (.tight (.ofAll (ascii "route") rfl) (.string (.ofAll (ascii "tsf") rfl))) <|
    .more (.tight (.ofAll (ascii "focused") rfl) (.truth true)) <|
    .close SpanOf.nil
  after := SpanOf.nil

def commaText : List UInt8 :=
  ascii ("\x7b\"protocol\":1,\"browser\":\"chrome.exe\",\"hostname\":\"voz.vn\"," ++
    "\"route\":\"tsf\",\"focused\":true,\x7d")

theorem commaObject_text : commaObject.text = commaText := by
  decide

theorem isMessage_commaObject : IsMessage commaObject.members
    { protocol := 1, browserExe := ascii "chrome.exe", hostname := ascii "voz.vn",
      route := .forceTsf, focused := true } where
  keys := by decide
  contents := by
    intro f hf
    cases f with
    | protocol => exact ⟨_, .head _, rfl⟩
    | browser => exact ⟨_, .tail _ (.head _), rfl⟩
    | hostname => exact ⟨_, .tail _ (.tail _ (.head _)), rfl⟩
    | route => exact ⟨_, .tail _ (.tail _ (.tail _ (.head _))), rfl⟩
    | focused => exact ⟨_, .tail _ (.tail _ (.tail _ (.tail _ (.head _)))), rfl⟩
    | mode => exact absurd hf (by decide)
  mode := fun _ => rfl
  browser := by decide
  hostname := by decide
  focused := fun _ => by decide

/-- The message is accepted and is not JSON. -/
theorem not_parseNativeMessage_comma :
    ¬ ((parseNativeMessage commaText {}).1 = true ↔ IsMessageText commaText) := by
  have hlength : commaText.length ≤ kMaxNativeMessageBytes := by decide
  obtain ⟨haccepted, hnot⟩ := isLooseMessageText_iff.mp
    ⟨commaObject, _, commaObject_text, hlength, isMessage_commaObject, Or.inl trivial⟩
  intro h
  exact hnot (h.mp ((parseNativeMessage_fst_iff _).mpr haccepted))

end VKey.BrowserHost
