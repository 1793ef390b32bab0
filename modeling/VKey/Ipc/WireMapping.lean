import VKey.Ipc.LexiconWireBlock
import VKey.Support.SeqlockWriters

/-!
# The mapping of the lexicon wire, its publishers and its readers

One manager at a time holds the mutex of the writer and publishes staged buffers into the mapping.
When it dies the mapping survives with its readers, and the next manager attaches to it as it is.  A
copy moves one byte after the other, in any order.
-/

namespace VKey

namespace WireMapping

open Seqlock Wire

/-! ## The bytes of the mapping -/

/-- Where the count is. -/
def seqlockOffset : Nat := 0x0C

/-- Where the bytes behind the count begin. -/
def generationOffset : Nat := 0x10

/-- A byte of the mapping that is not of the count. -/
def Claimed (a : Nat) : Prop := a < wireTotalSize ∧ ¬(seqlockOffset ≤ a ∧ a < generationOffset)

/-- The magic of a block. -/
def magicOf (buffer : Memory) : Nat := buffer.readLE 0x00 4

/-- Copy a byte of a staged buffer. -/
def copyByte (stagedBuffer : Memory) (a : Nat) : Store Nat UInt8 := (a, fun _ => stagedBuffer a)

/-- A `memcpy` of the bytes at some addresses. -/
def IsCopy (stagedBuffer : Memory) (addresses : List Nat) (stores : List (Store Nat UInt8)) :
    Prop :=
  ∃ order : List Nat, order.Perm addresses ∧ stores = order.map (copyByte stagedBuffer)

/-- The two copies of `PublishStagedBufferToWire`, before the count and behind it. -/
def IsPublish (stagedBuffer : Memory) (stores : List (Store Nat UInt8)) : Prop :=
  ∃ before behind, IsCopy stagedBuffer (List.range seqlockOffset) before ∧
    IsCopy stagedBuffer (List.range' generationOffset (wireTotalSize - generationOffset)) behind ∧
    stores = before ++ behind

/-! ## The processes -/

/-- Where the manager stands. -/
inductive Publisher where
  /-- Nobody holds the mutex of the writer. -/
  | absent
  | attached
  /-- Between the two increments of the count, with some bytes still to be copied. -/
  | publishing (stagedBuffer : Memory) (stores : List (Store Nat UInt8))

/-- Where a reader stands in `ReadWireToLocalBuffer`. -/
inductive Reader where
  | idle
  | attempting (attempt maxRetries : Nat)
  /-- The count has been loaded, and some bytes are still to be copied. -/
  | copying (attempt maxRetries : Nat) (startSeq : BitVec 32) (reading : Reading Nat UInt8)
      (addresses : List Nat)

/-- The mapping and the processes. -/
structure State (ι : Type) where
  wire : Lock Nat UInt8
  publisher : Publisher
  reader : ι → Reader
  localBuffer : ι → Memory

variable {ι : Type} [DecidableEq ι]

def State.seqlock (s : State ι) : BitVec 32 := s.wire.word

/-- The bytes of the mapping, with those of the count. -/
def State.srcBytes (s : State ι) : Memory :=
  Memory.write s.wire.memory seqlockOffset (encodeLE 4 s.seqlock.toNat)

/-- The count has not moved since it was loaded, and it is even. -/
def State.SeqlockValidateRead (s : State ι) (startSeq : BitVec 32) : Prop :=
  startSeq = s.seqlock ∧ startSeq &&& 1 = 0

/-- A reader moves on. -/
def State.moveTo (s : State ι) (i : ι) (reader : Reader) : State ι :=
  { s with reader := Function.update s.reader i reader }

/-- A reader has other bytes in its buffer. -/
def State.setBuffer (s : State ι) (i : ι) (buffer : Memory) : State ι :=
  { s with localBuffer := Function.update s.localBuffer i buffer }

/-- What a process has done. -/
inductive Event (ι : Type) where
  | create
  | beginPublish (params : LexiconWireSerializeParams)
  | store
  | endPublish
  | die
  | read (i : ι) (maxRetries : Nat)
  | beginCopy (i : ι)
  | load (i : ι)
  | retry (i : ι)
  | returns (i : ι) (ok : Bool)

/-- The manager publishes. -/
def Event.Publishes : Event ι → Prop
  | .beginPublish _ | .store | .endPublish => True
  | _ => False

/-- A reader copies. -/
def Event.Copies : Event ι → Prop
  | .beginCopy _ | .load _ | .retry _ => True
  | _ => False

/-- `Create` on a mapping that has survived, `Publish`, and `ReadWireToLocalBuffer`.  A manager that
closes the mapping goes like one that dies. -/
inductive Step : State ι → Event ι → State ι → Prop
  | create {s : State ι} (h : s.publisher = .absent) :
      Step s .create { s with publisher := .attached }
  | beginPublish {s : State ι} {params : LexiconWireSerializeParams}
      {outBuffer stagedBuffer : Memory}
      {stores : List (Store Nat UInt8)} (h : s.publisher = .attached)
      (hserialize : serialize params outBuffer wireTotalSize = .ok stagedBuffer)
      (hstores : IsPublish stagedBuffer stores) :
      Step s (.beginPublish params)
        { s with
          wire := s.wire.setWord (s.seqlock + 1)
          publisher := .publishing stagedBuffer stores }
  | store {s : State ι} {stagedBuffer : Memory} {store : Store Nat UInt8}
      {stores : List (Store Nat UInt8)}
      (h : s.publisher = .publishing stagedBuffer (store :: stores)) :
      Step s .store
        { s with wire := s.wire.store store, publisher := .publishing stagedBuffer stores }
  | endPublish {s : State ι} {stagedBuffer : Memory}
      (h : s.publisher = .publishing stagedBuffer []) :
      Step s .endPublish
        { s with
          wire := (s.wire.setWord (s.seqlock + 1)).complete stagedBuffer
          publisher := .attached }
  | die {s : State ι} : Step s .die { s with publisher := .absent }
  | read {s : State ι} {i : ι} {maxRetries : Nat} (hi : s.reader i = .idle) :
      Step s (.read i maxRetries) (s.moveTo i (.attempting 0 maxRetries))
  | odd {s : State ι} {i : ι} {attempt maxRetries : Nat}
      (hi : s.reader i = .attempting attempt maxRetries)
      (hattempt : attempt < maxRetries) (hodd : s.seqlock &&& 1 ≠ 0) :
      Step s (.retry i) (s.moveTo i (.attempting (attempt + 1) maxRetries))
  | beginCopy {s : State ι} {i : ι} {attempt maxRetries : Nat} {addresses : List Nat}
      (hi : s.reader i = .attempting attempt maxRetries) (hattempt : attempt < maxRetries)
      (heven : s.seqlock &&& 1 = 0) (haddresses : addresses.Perm (List.range wireTotalSize)) :
      Step s (.beginCopy i)
        (s.moveTo i (.copying attempt maxRetries s.seqlock ⟨s.wire.increments, []⟩ addresses))
  | load {s : State ι} {i : ι} {attempt maxRetries : Nat} {startSeq : BitVec 32}
      {reading : Reading Nat UInt8} {a : Nat} {addresses : List Nat}
      (hi : s.reader i = .copying attempt maxRetries startSeq reading (a :: addresses)) :
      Step s (.load i)
        ((s.setBuffer i (Function.update (s.localBuffer i) a (s.srcBytes a))).moveTo i
          (.copying attempt maxRetries startSeq
            { reading with loaded := (a, s.wire.memory a) :: reading.loaded }
            addresses))
  | accept {s : State ι} {i : ι} {attempt maxRetries : Nat} {startSeq : BitVec 32}
      {reading : Reading Nat UInt8}
      (hi : s.reader i = .copying attempt maxRetries startSeq reading [])
      (hvalid : s.SeqlockValidateRead startSeq) (hmagic : magicOf (s.localBuffer i) = wireMagic) :
      Step s (.returns i true)
        ((s.setBuffer i ((s.localBuffer i).write seqlockOffset
          (encodeLE 4 startSeq.toNat))).moveTo i .idle)
  | noMagic {s : State ι} {i : ι} {attempt maxRetries : Nat} {startSeq : BitVec 32}
      {reading : Reading Nat UInt8}
      (hi : s.reader i = .copying attempt maxRetries startSeq reading [])
      (hvalid : s.SeqlockValidateRead startSeq) (hmagic : magicOf (s.localBuffer i) ≠ wireMagic) :
      Step s (.returns i false) (s.moveTo i .idle)
  | changed {s : State ι} {i : ι} {attempt maxRetries : Nat} {startSeq : BitVec 32}
      {reading : Reading Nat UInt8}
      (hi : s.reader i = .copying attempt maxRetries startSeq reading [])
      (hchanged : ¬s.SeqlockValidateRead startSeq) :
      Step s (.retry i) (s.moveTo i (.attempting (attempt + 1) maxRetries))
  | fail {s : State ι} {i : ι} {attempt maxRetries : Nat}
      (hi : s.reader i = .attempting attempt maxRetries)
      (hattempt : maxRetries ≤ attempt) : Step s (.returns i false) (s.moveTo i .idle)

/-- The mapping that the first manager has created, filled with zeros. -/
def State.initial (localBuffer : ι → Memory) : State ι where
  wire := ⟨0, fun _ => 0, 0, []⟩
  publisher := .attached
  reader _ := .idle
  localBuffer := localBuffer

end WireMapping

end VKey
