import VKey.Support.Brackets
import VKey.Text.WideChar

/-!
# Keyboard events

The injectors build batches of keyboard events and hand them to `SendInput`, which may take only the
first events of a batch.  A desktop says how many it takes, and which keys are held, after
everything that was done before.  The callback that counts synthetic events is told of every event
before it is sent, and of those that were not taken.
-/

namespace VKey.Output

/-! ## Events -/

abbrev vkBack : Nat := 0x08
abbrev vkShift : Nat := 0x10
abbrev vkControl : Nat := 0x11
abbrev vkMenu : Nat := 0x12
abbrev vkLWin : Nat := 0x5B
abbrev vkRWin : Nat := 0x5C
abbrev vkLShift : Nat := 0xA0
abbrev vkRShift : Nat := 0xA1
abbrev vkLControl : Nat := 0xA2
abbrev vkRControl : Nat := 0xA3
abbrev vkLMenu : Nat := 0xA4
abbrev vkRMenu : Nat := 0xA5

/-- A keyboard event. -/
structure Input where
  wVk : Nat := 0
  wScan : Nat := 0
  /-- `KEYEVENTF_KEYUP`. -/
  keyup : Bool := false
  /-- `KEYEVENTF_EXTENDEDKEY`. -/
  extended : Bool := false
  /-- `KEYEVENTF_UNICODE`. -/
  unicode : Bool := false
  dwExtraInfo : Nat := 0
  deriving DecidableEq, Repr

/-- The mark of the events that the program sends itself. -/
def kVKeyExtraInfo : Nat := 0x4E4B

/-- The keys whose events carry the extended flag. -/
def isExtendedKey (vk : Nat) : Bool :=
  vk == vkRControl || vk == vkRMenu || vk == vkLWin || vk == vkRWin

/-- One action of an injector. -/
inductive Action where
  /-- A batch, of which the first `sent` events were taken; `restoring` marks the batch that presses
  released modifiers again. -/
  | sendInput (restoring : Bool) (events : List Input) (sent : Nat)
  | sleep (ms : Nat)
  deriving DecidableEq, Repr

/-- The events of an action that were taken. -/
def Action.delivered : Action → List Input
  | .sendInput _ events sent => events.take sent
  | .sleep _ => []

/-- The events that were taken, in order. -/
def delivered (actions : List Action) : List Input := actions.flatMap Action.delivered

/-- What the injectors call. -/
structure Desktop where
  /-- `MapVirtualKeyW`. -/
  mapVirtualKey : Nat → Nat
  /-- The high bit of `GetAsyncKeyState`. -/
  keyDown : List Action → Nat → Bool
  /-- The number of events that `SendInput` takes. -/
  accepts : List Action → List Input → Nat
  accepts_le : ∀ history events, accepts history events ≤ events.length
  /-- The callback that counts synthetic events is set. -/
  hasSynthCounter : Bool

/-- A key event. -/
def keyEvent (d : Desktop) (vk : Nat) (keyup : Bool) (extraInfo : Nat) : Input :=
  { wVk := vk
    wScan := d.mapVirtualKey vk % 0x10000
    keyup
    extended := isExtendedKey vk
    dwExtraInfo := extraInfo }

/-- A modifier pressed or released. -/
def makeModifierEvent (d : Desktop) (vk : Nat) (keyup : Bool) : Input :=
  keyEvent d vk keyup kVKeyExtraInfo

/-! ## Sending -/

/-- What has been done so far, and the sum of what the counting callback was told. -/
structure Trace where
  actions : List Action := []
  synthCount : Int := 0

/-- Send a batch: whether all of it was taken, and how many events were. -/
def trackedSendInput (d : Desktop) (restoring : Bool) (events : List Input) (t : Trace) :
    Bool × Nat × Trace :=
  let count := events.length
  let synthCount := if d.hasSynthCounter ∧ 0 < count then t.synthCount + count else t.synthCount
  let sent := d.accepts t.actions events
  let synthCount :=
    if sent < count ∧ d.hasSynthCounter then synthCount - (count - sent : Nat) else synthCount
  (sent == count, sent, ⟨t.actions ++ [.sendInput restoring events sent], synthCount⟩)

@[simp] theorem trackedSendInput_fst (d : Desktop) (restoring : Bool) (events : List Input)
    (t : Trace) : (trackedSendInput d restoring events t).1 =
      (d.accepts t.actions events == events.length) := rfl

@[simp] theorem trackedSendInput_sent (d : Desktop) (restoring : Bool) (events : List Input)
    (t : Trace) : (trackedSendInput d restoring events t).2.1 = d.accepts t.actions events := rfl

@[simp] theorem trackedSendInput_actions (d : Desktop) (restoring : Bool) (events : List Input)
    (t : Trace) : (trackedSendInput d restoring events t).2.2.actions =
      t.actions ++ [.sendInput restoring events (d.accepts t.actions events)] := rfl

/-! ## Held modifiers -/

/-- The modifier keys that a replacement releases. -/
def modifierKeys : List Nat :=
  [vkLShift, vkRShift, vkLControl, vkRControl, vkLMenu, vkRMenu, vkLWin, vkRWin]

/-- Held modifiers: each key once, in the order of the query. -/
structure HeldModifiers where
  vks : List Nat
  sublist : vks.Sublist modifierKeys

namespace HeldModifiers

/-- The number of keys. -/
def count (held : HeldModifiers) : Nat := held.vks.length

theorem nodup (held : HeldModifiers) : held.vks.Nodup :=
  (by decide : modifierKeys.Nodup).sublist held.sublist

theorem count_le (held : HeldModifiers) : held.count ≤ 8 := held.sublist.length_le

end HeldModifiers

/-- The sides on which a modifier is held; the left one if the keyboard does not say which. -/
def heldSides (keyDown : Nat → Bool) (vk left right : Nat) : List Nat :=
  if keyDown vk then
    let hasLeft := keyDown left
    let hasRight := keyDown right
    (if hasLeft then [left] else []) ++ (if hasRight then [right] else []) ++
      (if !hasLeft && !hasRight then [left] else [])
  else []

/-- A key, if it is held. -/
def heldKey (keyDown : Nat → Bool) (vk : Nat) : List Nat := if keyDown vk then [vk] else []

theorem heldSides_sublist (keyDown : Nat → Bool) (vk left right : Nat) :
    (heldSides keyDown vk left right).Sublist [left, right] := by
  unfold heldSides
  cases keyDown vk <;> cases keyDown left <;> cases keyDown right <;> simp

theorem heldKey_sublist (keyDown : Nat → Bool) (vk : Nat) :
    (heldKey keyDown vk).Sublist [vk] := by
  unfold heldKey
  cases keyDown vk <;> simp

/-- The held modifiers that would change the meaning of what is sent.  Shift matters for
backspaces only. -/
def queryHeldModifiers (keyDown : Nat → Bool) (bsCount : UInt64) (text : List WChar)
    (hasReinject : Bool) : HeldModifiers where
  vks :=
    let hasTextOrReinject := !text.isEmpty || hasReinject
    (if bsCount ≠ 0 then heldSides keyDown vkShift vkLShift vkRShift else []) ++
      (if bsCount ≠ 0 ∨ hasTextOrReinject then
        heldSides keyDown vkControl vkLControl vkRControl ++
          heldSides keyDown vkMenu vkLMenu vkRMenu ++ heldKey keyDown vkLWin ++
          heldKey keyDown vkRWin
      else [])
  sublist := by
    have hshift : (if bsCount ≠ 0 then heldSides keyDown vkShift vkLShift vkRShift else
        []).Sublist [vkLShift, vkRShift] := by
      split_ifs
      · exact heldSides_sublist ..
      · exact List.nil_sublist _
    have hothers : (if bsCount ≠ 0 ∨ (!text.isEmpty || hasReinject) then
        heldSides keyDown vkControl vkLControl vkRControl ++
          heldSides keyDown vkMenu vkLMenu vkRMenu ++ heldKey keyDown vkLWin ++
          heldKey keyDown vkRWin
        else []).Sublist [vkLControl, vkRControl, vkLMenu, vkRMenu, vkLWin, vkRWin] := by
      split_ifs
      · exact (((heldSides_sublist ..).append (heldSides_sublist ..)).append
          (heldKey_sublist ..)).append (heldKey_sublist ..)
      · exact List.nil_sublist _
    exact hshift.append hothers

/-- Press those modifiers again that a partly taken batch has released and not pressed. -/
def restoreModifiersAfterPartialSend (d : Desktop) (held : HeldModifiers)
    (sent releaseStart restoreStart : Nat) (t : Trace) : Trace :=
  let restore :=
    (leftOpen held.vks sent releaseStart restoreStart).map fun vk => makeModifierEvent d vk false
  if 0 < restore.length then (trackedSendInput d true restore t).2.2 else t

/-! ## The bait -/

/-- A replacement is led by a bait character in front of a suggestion. -/
def shouldEmitBait (needsBaitCharPrefix : Bool) (bsCount : UInt64) (text : List WChar)
    (suggestKeepChars : Bool) : Bool :=
  if !needsBaitCharPrefix || bsCount == 0 then false
  else if suggestKeepChars && text.isEmpty then false
  else true

end VKey.Output
