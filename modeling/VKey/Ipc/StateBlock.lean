import VKey.Ipc.SharedState
import VKey.Support.SeqlockWriters

/-!
# The block of the shared state and its readers

The settings, the application and the text services create, write and read one block of shared
memory without a mutex.  The configuration has the epoch as its count, and the context anchor has a
generation of its own. Every load and store of a field is one step, and a process may die between
two of them.
-/

namespace VKey

namespace StateBlock

open Seqlock

/-- The fields of the block, without the epoch and the anchor. -/
inductive ConfigCell where
  | magic
  | structVersion
  | structSize
  | flags
  | inputMethod
  | spellCheck
  | optimizeLevel
  | featureFlags (i : Nat)
  | extFeatureFlags
  | codeTable
  | hotkeyMods
  | hotkeyKeyLo
  | hotkeyKeyHi
  | convertMods
  | convertKeyLo
  | convertKeyHi
  | configGeneration
  | diagFlags
  | reserved (i : Nat)
  deriving DecidableEq, Repr

/-- The fields of the anchor, without the generation. -/
inductive AnchorCell where
  | isAvailable
  | isSentenceStart
  | isLineStart
  | isWordStart
  | syllableLen
  | currentSyllable (i : Nat)
  deriving DecidableEq, Repr

abbrev Config := Seqlock.Memory ConfigCell Nat

abbrev Anchor := Seqlock.Memory AnchorCell Nat

/-- `reserved` has the identifier of a process from here on, in four bytes. -/
def nativeConvertOwnerOffset : Nat := 5

def reservedSize : Nat := 1024

/-- `SharedState::InitDefaults` -/
def initDefaults : Config
  | .magic => SharedStateManager.Header.magicValue.toNat
  | .structVersion => SharedStateManager.Header.currentVersion
  | .structSize => SharedStateManager.Header.initDefaults.structSize
  | .flags => SharedStateManager.initDefaults.toNat
  | .featureFlags 0 => 0x0004 ||| 0x0001
  | _ => 0

/-- `SharedState::IsValid` -/
def IsValid (state : Config) : Prop :=
  state .magic = SharedStateManager.Header.magicValue.toNat ∧
    state .structVersion ≤ SharedStateManager.Header.currentVersion ∧ 24 ≤ state .structSize

/-- The fields from `inputMethod` to `reserved`, without the owner. -/
def Claimed : ConfigCell → Prop
  | .magic => False
  | .structVersion => False
  | .structSize => False
  | .flags => False
  | .featureFlags i => i < 2
  | .reserved i => i < reservedSize ∧
      ¬(nativeConvertOwnerOffset ≤ i ∧ i < nativeConvertOwnerOffset + 4)
  | _ => True

def AnchorClaimed : AnchorCell → Prop
  | .currentSyllable i => i < 16
  | _ => True

/-! ## The writers -/

/-- The offsets of `reserved` around the owner, in the order they are copied. -/
def reservedOffsets : List Nat :=
  List.range nativeConvertOwnerOffset ++
    List.range' (nativeConvertOwnerOffset + 4) (reservedSize - (nativeConvertOwnerOffset + 4))

/-- The fields that are plain copies in `Write`, in their order, without the header. -/
def copiedCells : List ConfigCell :=
  [.inputMethod, .spellCheck, .optimizeLevel, .featureFlags 0, .featureFlags 1,
    .extFeatureFlags, .codeTable,
    .hotkeyMods, .hotkeyKeyLo, .hotkeyKeyHi, .convertMods, .convertKeyLo,
      .convertKeyHi, .configGeneration,
    .diagFlags] ++ reservedOffsets.map .reserved

/-- Store a field of a state. -/
def copy {Cell : Type} (state : Seqlock.Memory Cell Nat) (cell : Cell) : Store Cell Nat :=
  (cell, fun _ => state cell)

/-- The stores of `Write`, between the two stores of the epoch.  The flag of the text service is
kept. -/
def writeStores (state : Config) : List (Store ConfigCell Nat) :=
  [copy state .magic, copy state .structVersion, copy state .structSize,
    (.flags, fun config =>
      (SharedStateManager.writtenFlags (BitVec.ofNat 32 (state .flags))
        (BitVec.ofNat 32 (config .flags))).toNat)] ++
  copiedCells.map (copy state)

def anchorCells : List AnchorCell :=
  [.isAvailable, .isSentenceStart, .isLineStart, .isWordStart, .syllableLen] ++
    (List.range 16).map .currentSyllable

/-- One store of a writer of the configuration. -/
inductive Access where
  | config (store : Store ConfigCell Nat)
  /-- The epoch, once more with its odd value. -/
  | epoch
  /-- The generation of a new anchor. -/
  | generation
  | anchor (store : Store AnchorCell Nat)

/-- The fields in the order they are loaded and copied. -/
def readCells : List ConfigCell :=
  [.magic, .structVersion, .structSize, .flags, .inputMethod, .spellCheck,
    .optimizeLevel, .featureFlags 0,
    .featureFlags 1, .extFeatureFlags, .codeTable, .hotkeyMods, .hotkeyKeyLo,
      .hotkeyKeyHi, .convertMods,
    .convertKeyLo, .convertKeyHi, .configGeneration,
      .diagFlags] ++ (List.range reservedSize).map .reserved

/-- The stores of `Create`, between the two of the epoch: the magic is away while the whole
structure is copied, the anchor with it. -/
def createAccesses : List Access :=
  [.config (.magic, fun _ => 0), .config (.magic, fun _ => 0),
    .config (copy initDefaults .structVersion), .config (copy initDefaults .structSize), .epoch] ++
  (readCells.drop 3).map (fun cell => .config (copy initDefaults cell)) ++
  [.generation] ++ anchorCells.map (fun cell => .anchor (cell, fun _ => 0)) ++
  [.config (copy initDefaults .magic)]

/-- A call of one of the writers of the configuration. -/
inductive Call where
  | create
  | write (state : Config)

namespace Call

/-- What the writer stores. -/
def fields : Call → Config
  | .create => initDefaults
  | .write state => state

def accesses : Call → List Access
  | .create => createAccesses
  | .write state => (writeStores state).map .config

/-- The epoch while the writer stores. -/
def seq (epoch : BitVec 32) : Call → BitVec 32
  | .create => epoch ||| 1
  | .write _ => epoch + 1

end Call

/-! ## The processes -/

/-- Where a process stands. -/
inductive Doing where
  | idle
  | dead
  /-- The epoch has been loaded and not yet stored. -/
  | locking (call : Call) (seq : BitVec 32)
  | storing (call : Call) (seq : BitVec 32) (accesses : List Access)
  /-- In `Read`, before the epoch is loaded. -/
  | attempting (retry : Nat)
  | copying (retry : Nat) (before : BitVec 32) (reading : Reading ConfigCell Nat)
        (cells : List ConfigCell)
  | anchoring (anchor : Anchor) (stores : List (Store AnchorCell Nat))
  /-- In `ReadAnchorSeqlock`, before the generation is loaded. -/
  | anchorAttempting (retry : Nat)
  | anchorCopying (retry : Nat) (g1 : BitVec 32) (reading : Reading AnchorCell Nat)
        (cells : List AnchorCell)

/-- The block and the processes. -/
structure State (ι : Type) where
  config : Lock ConfigCell Nat
  anchor : Lock AnchorCell Nat
  doing : ι → Doing

variable {ι : Type} [DecidableEq ι]

def State.epoch (s : State ι) : BitVec 32 := s.config.word

def State.generation (s : State ι) : BitVec 32 := s.anchor.word

/-- A process moves on. -/
def State.moveTo (s : State ι) (i : ι) (doing : Doing) : State ι :=
  { s with doing := Function.update s.doing i doing }

theorem State.doing_moveTo_self (s : State ι) (i : ι) (doing : Doing) :
    (s.moveTo i doing).doing i = doing :=
  Function.update_self ..

theorem State.doing_moveTo_of_ne (s : State ι) {i j : ι} (h : j ≠ i) (doing : Doing) :
    (s.moveTo i doing).doing j = s.doing j := Function.update_of_ne h ..

/-- What has been loaded. -/
def loadedState {Cell : Type} [DecidableEq Cell] (loaded : List (Cell × Nat)) :
    Seqlock.Memory Cell Nat :=
  fun cell => (loaded.lookup cell).getD 0

/-- One store of a writer of the configuration. -/
def State.access (s : State ι) (seq : BitVec 32) : Access → State ι
  | .config store => { s with config := s.config.store store }
  | .epoch => { s with config := s.config.setWord seq }
  | .generation => { s with anchor := { s.anchor with word := 0, increments := 0 } }
  | .anchor store => { s with anchor := s.anchor.store store }

/-- What a process has done. -/
inductive Event (ι : Type) where
  | beginCreate (i : ι)
  | beginWrite (i : ι) (state : Config)
  | step (i : ι)
  | finish (i : ι)
  | read (i : ι)
  | loadEpoch (i : ι)
  | retry (i : ι)
  | readReturns (i : ι) (state : Config)
  | beginAnchor (i : ι) (anchor : Anchor)
  | finishAnchor (i : ι)
  | readAnchor (i : ι)
  | loadGeneration (i : ι)
  | anchorReturns (i : ι) (anchor : Option Anchor)
  | die (i : ι)

/-- After `Create` has begun the anchor counts as not written. -/
inductive Step : State ι → Event ι → State ι → Prop
  | beginCreate {s : State ι} {i : ι} (hi : s.doing i = .idle) :
      Step s (.beginCreate i)
        ({ s with anchor := { s.anchor with completed := [] } }.moveTo i
          (.locking .create (Call.create.seq s.epoch)))
  | beginWrite {s : State ι} {i : ι} {state : Config} (hi : s.doing i = .idle) :
      Step s (.beginWrite i state)
        (s.moveTo i (.locking (.write state) ((Call.write state).seq s.epoch)))
  | lock {s : State ι} {i : ι} {call : Call} {seq : BitVec 32}
        (hi : s.doing i = .locking call seq) :
      Step s (.step i)
        ({ s with config := s.config.setWord seq }.moveTo i (.storing call seq call.accesses))
  | access {s : State ι} {i : ι} {call : Call} {seq : BitVec 32} {access : Access}
        {accesses : List Access}
      (hi : s.doing i = .storing call seq (access :: accesses)) :
      Step s (.step i) ((s.access seq access).moveTo i (.storing call seq accesses))
  | finish {s : State ι} {i : ι} {call : Call} {seq : BitVec 32}
        (hi : s.doing i = .storing call seq []) :
      Step s (.finish i)
        ({ s with config := (s.config.setWord (seq + 1)).complete call.fields }.moveTo i .idle)
  | read {s : State ι} {i : ι} (hi : s.doing i = .idle)
      (hmagic : s.config.memory .magic = SharedStateManager.Header.magicValue.toNat) :
      Step s (.read i) (s.moveTo i (.attempting 0))
  | noMagic {s : State ι} {i : ι} (hi : s.doing i = .idle)
      (hmagic : s.config.memory .magic ≠ SharedStateManager.Header.magicValue.toNat) :
      Step s (.readReturns i fun _ => 0) s
  | loadEpoch {s : State ι} {i : ι} {retry : Nat} (hi : s.doing i = .attempting retry)
        (hretry : retry < 3) :
      Step s (.loadEpoch i)
        (s.moveTo i (.copying retry s.epoch ⟨s.config.increments, []⟩ readCells))
  | load {s : State ι} {i : ι} {retry : Nat} {before : BitVec 32} {reading : Reading ConfigCell Nat}
      {cell : ConfigCell} {cells : List ConfigCell}
        (hi : s.doing i = .copying retry before reading (cell :: cells)) :
      Step s (.step i) (s.moveTo i (.copying retry before
        { reading with loaded := (cell, s.config.memory cell) :: reading.loaded } cells))
  | accept {s : State ι} {i : ι} {retry : Nat} {before : BitVec 32}
        {reading : Reading ConfigCell Nat}
      (hi : s.doing i = .copying retry before reading []) (hsame : before = s.epoch)
      (heven : before &&& 1 = 0) :
        Step s (.readReturns i (loadedState reading.loaded)) (s.moveTo i .idle)
  | retry {s : State ι} {i : ι} {retry : Nat} {before : BitVec 32}
        {reading : Reading ConfigCell Nat}
      (hi : s.doing i = .copying retry before reading [])
        (hchanged : before ≠ s.epoch ∨ before &&& 1 ≠ 0) :
      Step s (.retry i) (s.moveTo i (.attempting (retry + 1)))
  | fail {s : State ι} {i : ι} (hi : s.doing i = .attempting 3) :
      Step s (.readReturns i fun _ => 0) (s.moveTo i .idle)
  | beginAnchor {s : State ι} {i : ι} {anchor : Anchor} (hi : s.doing i = .idle) :
      Step s (.beginAnchor i anchor)
        ({ s with anchor := s.anchor.setWord (s.generation + 1) }.moveTo i
          (.anchoring anchor (anchorCells.map (copy anchor))))
  | storeAnchor {s : State ι} {i : ι} {anchor : Anchor} {store : Store AnchorCell Nat}
      {stores : List (Store AnchorCell Nat)}
        (hi : s.doing i = .anchoring anchor (store :: stores)) :
      Step s (.step i)
        ({ s with anchor := s.anchor.store store }.moveTo i (.anchoring anchor stores))
  | finishAnchor {s : State ι} {i : ι} {anchor : Anchor} (hi : s.doing i = .anchoring anchor []) :
      Step s (.finishAnchor i)
        ({ s with anchor := (s.anchor.setWord (s.generation + 1)).complete anchor }.moveTo i .idle)
  | readAnchor {s : State ι} {i : ι} (hi : s.doing i = .idle) :
      Step s (.readAnchor i) (s.moveTo i (.anchorAttempting 0))
  | loadGeneration {s : State ι} {i : ι} {retry : Nat} (hi : s.doing i = .anchorAttempting retry)
      (hretry : retry < 3) (heven : s.generation &&& 1 = 0) :
      Step s (.loadGeneration i)
        (s.moveTo i (.anchorCopying retry s.generation ⟨s.anchor.increments, []⟩ anchorCells))
  | anchorOdd {s : State ι} {i : ι} {retry : Nat} (hi : s.doing i = .anchorAttempting retry)
      (hretry : retry < 3) (hodd : s.generation &&& 1 ≠ 0) :
      Step s (.retry i) (s.moveTo i (.anchorAttempting (retry + 1)))
  | loadAnchor {s : State ι} {i : ι} {retry : Nat} {g1 : BitVec 32}
        {reading : Reading AnchorCell Nat}
      {cell : AnchorCell} {cells : List AnchorCell}
        (hi : s.doing i = .anchorCopying retry g1 reading (cell :: cells)) :
      Step s (.step i) (s.moveTo i (.anchorCopying retry g1
        { reading with loaded := (cell, s.anchor.memory cell) :: reading.loaded } cells))
  | acceptAnchor {s : State ι} {i : ι} {retry : Nat} {g1 : BitVec 32}
        {reading : Reading AnchorCell Nat}
      (hi : s.doing i = .anchorCopying retry g1 reading []) (hsame : g1 = s.generation) :
      Step s (.anchorReturns i (some (loadedState reading.loaded))) (s.moveTo i .idle)
  | anchorChanged {s : State ι} {i : ι} {retry : Nat} {g1 : BitVec 32}
        {reading : Reading AnchorCell Nat}
      (hi : s.doing i = .anchorCopying retry g1 reading []) (hchanged : g1 ≠ s.generation) :
      Step s (.retry i) (s.moveTo i (.anchorAttempting (retry + 1)))
  | failAnchor {s : State ι} {i : ι} (hi : s.doing i = .anchorAttempting 3) :
      Step s (.anchorReturns i none) (s.moveTo i .idle)
  | die {s : State ι} {i : ι} : Step s (.die i) (s.moveTo i .dead)

/-- A new mapping, filled with zeros. -/
def State.initial : State ι where
  config := ⟨0, fun _ => 0, 0, []⟩
  anchor := ⟨0, fun _ => 0, 0, []⟩
  doing _ := .idle

end StateBlock

end VKey
