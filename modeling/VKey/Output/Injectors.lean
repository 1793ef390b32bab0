import VKey.Output.Internal

/-!
# The injectors

An injector replaces text in front of the caret by sending backspaces and characters.  One sends
everything in a single batch; the other sends the backspaces and the characters in two batches with
a pause in between, and asks for the held modifiers before each.
-/

namespace VKey.Output

/-- The most events of a batch. -/
def kMaxBatch : Nat := 256

/-- A key pressed or released. -/
def makeKeyEvent (d : Desktop) (vk : Nat) (keyup : Bool) : Input :=
  keyEvent d vk keyup kVKeyExtraInfo

/-- A character pressed or released. -/
def makeUnicodeChar (ch : WChar) (keyup : Bool) : Input :=
  { wScan := ch % 0x10000, keyup, unicode := true, dwExtraInfo := kVKeyExtraInfo }

/-- A key tapped. -/
def tapKey (d : Desktop) (vk : Nat) : List Input :=
  [makeKeyEvent d vk false, makeKeyEvent d vk true]

/-- A character tapped. -/
def tapChar (ch : WChar) : List Input := [makeUnicodeChar ch false, makeUnicodeChar ch true]

/-- The key that is passed on in front of a replacement; it is not released. -/
def reinjectEvents (d : Desktop) (reinjectVk : Nat) : List Input :=
  if reinjectVk ≠ 0 then [makeKeyEvent d reinjectVk false] else []

/-- The number of backspaces to send: one more for a bait. -/
def backspaces (emitBait : Bool) (bsCount : UInt64) : UInt64 :=
  if emitBait then bsCount + 1 else bsCount

/-- Fill a batch: the key passed on, the modifiers released, the bait, the backspaces, the
characters, and the modifiers pressed. -/
def fillBatch (d : Desktop) (held : HeldModifiers) (emitBait : Bool) (bsCount : UInt64)
    (text : List WChar) (reinjectVk : Nat) : Option (List Input) := do
  let buf := reinjectEvents d reinjectVk
  let buf ← pushAll kMaxBatch (held.vks.map fun vk => [makeKeyEvent d vk true]) buf
  let buf ← pushAll kMaxBatch (if emitBait then [tapChar 0x202F] else []) buf
  let buf ← pushAll kMaxBatch
    (List.replicate (backspaces emitBait bsCount).toNat (tapKey d vkBack)) buf
  let buf ← pushAll kMaxBatch (text.map tapChar) buf
  pushAll kMaxBatch (held.vks.map fun vk => [makeKeyEvent d vk false]) buf

/-- Send a filled batch; if only a part of it is taken, press the released modifiers again. -/
def sendBatch (d : Desktop) (held : HeldModifiers) (batch : List Input) (reinjectVk : Nat)
    (t : Trace) : Bool × Trace :=
  let (wasDelivered, sent, t) := trackedSendInput d false batch t
  if !wasDelivered && decide (0 < held.count) && decide (0 < sent) then
    (wasDelivered, restoreModifiersAfterPartialSend d held sent (if reinjectVk ≠ 0 then 1 else 0)
      (batch.length - held.count) t)
  else (wasDelivered, t)

/-! ## One batch -/

/-- The injector for most windows. -/
structure Win32SendInputInjector where
  needsBaitCharPrefix : Bool
  suggestKeepChars : Bool := false

namespace Win32SendInputInjector

/-- The held modifiers that a replacement releases. -/
def heldModifiers (d : Desktop) (bsCount : UInt64) (text : List WChar) (reinjectVk : Nat)
    (t : Trace) : HeldModifiers :=
  queryHeldModifiers (d.keyDown t.actions) bsCount text (decide (reinjectVk ≠ 0))

/-- The replacement is led by a bait. -/
def emitsBait (injector : Win32SendInputInjector) (bsCount : UInt64) (text : List WChar) : Bool :=
  shouldEmitBait injector.needsBaitCharPrefix bsCount text injector.suggestKeepChars

/-- Replace `bsCount` characters in front of the caret by a text. -/
def replace (injector : Win32SendInputInjector) (d : Desktop) (bsCount : UInt64)
    (text : List WChar) (reinjectVk : Nat) (t : Trace) : Bool × Trace :=
  let heldMods := heldModifiers d bsCount text reinjectVk t
  match fillBatch d heldMods (injector.emitsBait bsCount text) bsCount text reinjectVk with
  | none => (false, t)
  | some batch =>
      if batch.isEmpty then (true, t) else sendBatch d heldMods batch reinjectVk t

end Win32SendInputInjector

/-! ## Two batches -/

/-- The injector for windows that lose the second half of a long batch. -/
structure SplitDispatchInjector where
  sleepMs : Int
  needsBaitCharPrefix : Bool := false
  suggestKeepChars : Bool := false

namespace SplitDispatchInjector

/-- The held modifiers that the first batch releases. -/
def heldModifiers (d : Desktop) (bsCount : UInt64) (reinjectVk : Nat) (t : Trace) :
    HeldModifiers :=
  queryHeldModifiers (d.keyDown t.actions) bsCount [] (decide (reinjectVk ≠ 0))

/-- The held modifiers that the second batch releases. -/
def charModifiers (d : Desktop) (text : List WChar) (t : Trace) : HeldModifiers :=
  queryHeldModifiers (d.keyDown t.actions) 0 text false

/-- The replacement is led by a bait. -/
def emitsBait (injector : SplitDispatchInjector) (bsCount : UInt64) (text : List WChar) : Bool :=
  shouldEmitBait injector.needsBaitCharPrefix bsCount text injector.suggestKeepChars

/-- Send the characters, after a pause if backspaces were sent. -/
def sendChars (injector : SplitDispatchInjector) (d : Desktop) (bsCount : UInt64)
    (text : List WChar) (t : Trace) : Bool × Trace :=
  if text.isEmpty then (true, t)
  else
    let t : Trace :=
      if bsCount ≠ 0 then
        { t with actions := t.actions ++ [.sleep (injector.sleepMs % 0x100000000).toNat] }
      else t
    let charMods := charModifiers d text t
    let releases := charMods.vks.map fun vk => makeKeyEvent d vk true
    match pushAll (kMaxBatch + 16) (text.map tapChar) releases with
    | none => (false, t)
    | some chars =>
        let batch := chars ++ charMods.vks.map fun vk => makeKeyEvent d vk false
        if batch.isEmpty then (true, t)
        else
          let (wasDelivered, sent, t) := trackedSendInput d false batch t
          if !wasDelivered then
            (false, restoreModifiersAfterPartialSend d charMods sent 0 chars.length t)
          else (true, t)

/-- Replace `bsCount` characters in front of the caret by a text. -/
def replace (injector : SplitDispatchInjector) (d : Desktop) (bsCount : UInt64)
    (text : List WChar) (reinjectVk : Nat) (t : Trace) : Bool × Trace :=
  if kMaxBatch / 2 < text.length then (false, t)
  else
    let heldMods := heldModifiers d bsCount reinjectVk t
    let emitBait := injector.emitsBait bsCount text
    match fillBatch d heldMods emitBait bsCount [] reinjectVk with
    | none => (false, t)
    | some batch =>
        if batch.isEmpty then injector.sendChars d (backspaces emitBait bsCount) text t
        else
          match sendBatch d heldMods batch reinjectVk t with
          | (false, t) => (false, t)
          | (true, t) => injector.sendChars d (backspaces emitBait bsCount) text t

end SplitDispatchInjector

end VKey.Output
