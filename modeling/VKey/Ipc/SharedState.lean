import Mathlib.Logic.Function.Basic
import VKey.Support.Run

/-!
# The shared state

The application and the text services of other processes share a block of memory.  Its flags are
changed by interlocked operations, and by the application when it writes back the whole block it has
read.  Every access of the flags and of the owner is one step.
-/

namespace VKey

namespace SharedStateManager

abbrev Flags := BitVec 32

abbrev ProcessId := BitVec 32

namespace SharedFlags

def vietnameseMode : Flags := 0x0001

def engineEnabled : Flags := 0x0002

def tsfNativeConvertReady : Flags := 0x0800

end SharedFlags

/-- The fields that identify a block. -/
structure Header where
  magic : BitVec 32
  structVersion : Nat
  structSize : Nat
  deriving DecidableEq, Repr

namespace Header

def magicValue : BitVec 32 := 0x59454B4E

def currentVersion : Nat := 4

def IsValid (header : Header) : Prop :=
  header.magic = magicValue ∧ header.structVersion ≤ currentVersion ∧ 24 ≤ header.structSize

/-- The header of `InitDefaults`. -/
def initDefaults : Header where
  magic := magicValue
  structVersion := currentVersion
  structSize := 1104

end Header

/-- The flags of `InitDefaults`. -/
def initDefaults : Flags := SharedFlags.vietnameseMode ||| SharedFlags.engineEnabled

/-- What `Read` returns, without the epoch and the owner; `config` stands for the other fields. -/
structure Snapshot (κ : Type) where
  header : Header
  flags : Flags
  config : κ

/-- Where the process stands that reads and writes the block. -/
inductive Writing (κ : Type) where
  | idle
  /-- In `Read`, before the epoch is loaded. -/
  | attempting (retry : Nat)
  | copying (retry : Nat) (before : BitVec 32)
  | comparing (retry : Nat) (before : BitVec 32) (state : Snapshot κ)
  /-- `Read` has returned. -/
  | holding (state : Snapshot κ)
  /-- In `Write`, before the epoch is made odd. -/
  | beginning (state : Snapshot κ)
  | storingHeader (state : Snapshot κ) (seq : BitVec 32)
  | loadingFlags (state : Snapshot κ) (seq : BitVec 32)
  | storingFlags (state : Snapshot κ) (seq : BitVec 32) (loaded : Flags)
  | storingConfig (state : Snapshot κ) (seq : BitVec 32)
  | ending (seq : BitVec 32)

/-- Where a process stands in `PublishNativeConvertCapability`. -/
inductive Publishing where
  | idle
  /-- Before it stores its identifier. -/
  | exchanging
  /-- Before it sets the bit. -/
  | setting
  /-- Before it loads the owner. -/
  | checking
  /-- Before it clears the bit. -/
  | clearing
  /-- Before it releases the ownership. -/
  | releasing
  deriving DecidableEq, Repr

structure State (κ : Type) where
  header : Header
  epoch : BitVec 32
  flags : Flags
  config : κ
  owner : ProcessId
  writing : Writing κ
  publishing : ProcessId → Publishing
  /-- What the last call of each process says. -/
  declared : ProcessId → Bool

inductive Event (κ : Type) where
  /-- A step of the process that reads and writes. -/
  | write
  /-- The caller of `Read` calls `Write`. -/
  | callWrite (config : κ)
  | storeFlags
  | setOrClearFlag (flagBit : Flags) (set : Bool)
  | toggleFlag (flagBit : Flags)
  | callPublish (processId : ProcessId) (ready : Bool)
  /-- A step of a process that publishes. -/
  | publish (processId : ProcessId)
  | setReady (processId : ProcessId)

variable {κ : Type}

/-- The flags that `Write` stores. -/
def writtenFlags (state loaded : Flags) : Flags :=
  state &&& ~~~SharedFlags.tsfNativeConvertReady ||| loaded &&& SharedFlags.tsfNativeConvertReady

def State.writeTo (s : State κ) (writing : Writing κ) : State κ := { s with writing := writing }

def State.publishTo (s : State κ) (processId : ProcessId) (publishing : Publishing) : State κ :=
  { s with publishing := Function.update s.publishing processId publishing }

def State.declare (s : State κ) (processId : ProcessId) (ready : Bool) : State κ :=
  { s with declared := Function.update s.declared processId ready }

/-- The fields that `Read` copies.  Nobody else changes them while the process reads, except the
flags, which are copied at once. -/
def State.snapshot (s : State κ) : Snapshot κ := ⟨s.header, s.flags, s.config⟩

inductive Step : State κ → Event κ → State κ → Prop
  | read {s : State κ} (hwriting : s.writing = .idle)
      (hmagic : s.header.magic = Header.magicValue) :
      Step s .write (s.writeTo (.attempting 0))
  | loadEpoch {s : State κ} {retry : Nat} (hwriting : s.writing = .attempting retry)
      (hretry : retry < 3) : Step s .write (s.writeTo (.copying retry s.epoch))
  | copy {s : State κ} {retry : Nat} {before : BitVec 32}
      (hwriting : s.writing = .copying retry before) :
      Step s .write (s.writeTo (.comparing retry before s.snapshot))
  | accept {s : State κ} {retry : Nat} {before : BitVec 32} {state : Snapshot κ}
      (hwriting : s.writing = .comparing retry before state) (hsame : s.epoch = before)
      (heven : before &&& 1 = 0) : Step s .write (s.writeTo (.holding state))
  | retry {s : State κ} {retry : Nat} {before : BitVec 32} {state : Snapshot κ}
      (hwriting : s.writing = .comparing retry before state)
      (hchanged : s.epoch ≠ before ∨ before &&& 1 ≠ 0) :
      Step s .write (s.writeTo (.attempting (retry + 1)))
  /-- `Read` returns an empty block, and the caller gives up. -/
  | giveUp {s : State κ} (hwriting : s.writing = .attempting 3) : Step s .write (s.writeTo .idle)
  | callWrite {s : State κ} {state : Snapshot κ} (config : κ)
      (hwriting : s.writing = .holding state) (hvalid : state.header.IsValid) :
      Step s (.callWrite config) (s.writeTo (.beginning { state with config := config }))
  | beginWrite {s : State κ} {state : Snapshot κ} (hwriting : s.writing = .beginning state) :
      Step s .write
        ({ s with epoch := s.epoch + 1 }.writeTo (.storingHeader state (s.epoch + 1)))
  | storeHeader {s : State κ} {state : Snapshot κ} {seq : BitVec 32}
      (hwriting : s.writing = .storingHeader state seq) :
      Step s .write ({ s with header := state.header }.writeTo (.loadingFlags state seq))
  | loadFlags {s : State κ} {state : Snapshot κ} {seq : BitVec 32}
      (hwriting : s.writing = .loadingFlags state seq) :
      Step s .write (s.writeTo (.storingFlags state seq s.flags))
  | storeFlags {s : State κ} {state : Snapshot κ} {seq : BitVec 32} {loaded : Flags}
      (hwriting : s.writing = .storingFlags state seq loaded) :
      Step s .storeFlags
        ({ s with flags := writtenFlags state.flags loaded }.writeTo (.storingConfig state seq))
  | storeConfig {s : State κ} {state : Snapshot κ} {seq : BitVec 32}
      (hwriting : s.writing = .storingConfig state seq) :
      Step s .write ({ s with config := state.config }.writeTo (.ending seq))
  | endWrite {s : State κ} {seq : BitVec 32} (hwriting : s.writing = .ending seq) :
      Step s .write ({ s with epoch := seq + 1 }.writeTo .idle)
  | setOrClearFlag {s : State κ} (flagBit : Flags) (set : Bool)
      (hmagic : s.header.magic = Header.magicValue) :
      Step s (.setOrClearFlag flagBit set)
        { s with flags := if set then s.flags ||| flagBit else s.flags &&& ~~~flagBit }
  | toggleFlag {s : State κ} (flagBit : Flags) (hmagic : s.header.magic = Header.magicValue) :
      Step s (.toggleFlag flagBit) { s with flags := s.flags ^^^ flagBit }
  | callPublish {s : State κ} {processId : ProcessId} (ready : Bool)
      (hpublishing : s.publishing processId = .idle) (hmagic : s.header.magic = Header.magicValue)
      (hprocess : processId ≠ 0) :
      Step s (.callPublish processId ready)
        ((s.declare processId ready).publishTo processId
          (if ready then .exchanging else .checking))
  | exchange {s : State κ} {processId : ProcessId}
        (hpublishing : s.publishing processId = .exchanging) :
      Step s (.publish processId) ({ s with owner := processId }.publishTo processId .setting)
  | setReady {s : State κ} {processId : ProcessId}
        (hpublishing : s.publishing processId = .setting) :
      Step s (.setReady processId)
        ({ s with flags := s.flags ||| SharedFlags.tsfNativeConvertReady }.publishTo
          processId .idle)
  | check {s : State κ} {processId : ProcessId} (hpublishing : s.publishing processId = .checking) :
      Step s (.publish processId)
        (s.publishTo processId (if s.owner = processId then .clearing else .idle))
  | clearReady {s : State κ} {processId : ProcessId}
        (hpublishing : s.publishing processId = .clearing) :
      Step s (.publish processId)
        ({ s with flags := s.flags &&& ~~~SharedFlags.tsfNativeConvertReady }.publishTo processId
          .releasing)
  | release {s : State κ} {processId : ProcessId}
        (hpublishing : s.publishing processId = .releasing) :
      Step s (.publish processId)
        ({ s with owner := if s.owner = processId then 0 else s.owner }.publishTo processId .idle)

/-- After `Create`. -/
def State.initial (config : κ) : State κ where
  header := .initDefaults
  epoch := 2
  flags := initDefaults
  config := config
  owner := 0
  writing := .idle
  publishing _ := .idle
  declared _ := false

/-- No operation is under way. -/
def Quiescent (s : State κ) : Prop :=
  s.writing = .idle ∧ ∀ processId, s.publishing processId = .idle

end SharedStateManager

end VKey
