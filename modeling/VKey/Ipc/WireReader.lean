import VKey.Ipc.WireMapping

/-!
# The reader of the lexicon wire and its cached identity

A reader keeps the generation and the checksum of its last snapshot, and copies the block again only
when those of the wire are others.  It copies into the buffer of its caller, which has the last
snapshot until then.
-/

namespace VKey

namespace WireReader

open Seqlock Wire

structure LexiconSnapshotIdentity where
  sharedStateEpoch : UInt32 := 0
  wireGeneration : Nat := 0
  wireCrc32 : Nat := 0
  deriving DecidableEq, Repr

/-- The fast path, with the bytes that have been loaded and the addresses still to be loaded. -/
structure Inspection where
  epoch : UInt32
  seq1 : BitVec 32
  reading : Reading Nat UInt8
  bytes : Memory
  addresses : List Nat

/-- A byte of the wire is loaded. -/
def Inspection.load (inspection : Inspection) (wire : Memory) (a : Nat) (addresses : List Nat) :
    Inspection where
  epoch := inspection.epoch
  seq1 := inspection.seq1
  reading := { inspection.reading with loaded := (a, wire a) :: inspection.reading.loaded }
  bytes := Function.update inspection.bytes a (wire a)
  addresses := addresses

/-- Where the reader stands. -/
inductive Call where
  | idle
  /-- In `ReadSnapshotFast`, where the magic is loaded. -/
  | checking (inspection : Inspection)
  /-- In `ReadSnapshotFast`, where the generation and the checksum are loaded. -/
  | inspecting (inspection : Inspection)
  /-- In `ReadSnapshot`. -/
  | copying (epoch : UInt32)

/-- The mapping with one reader, and the view of its caller.  The buffer or the view is `written`
when it may have changed after the last read that gave the caller a snapshot. -/
structure State where
  mapping : WireMapping.State Unit
  isOpen : Bool
  cachedIdentity : LexiconSnapshotIdentity
  outView : Option LexiconWireView
  call : Call
  written : Bool

namespace State

/-- The buffer of the caller. -/
def localBuffer (s : State) : Memory := s.mapping.localBuffer ()

/-- The bytes of the wire. -/
def wire (s : State) : Memory := s.mapping.wire.memory

/-- The publishes that have been completed, newest first. -/
def published (s : State) : List Memory := s.mapping.wire.completed

end State

/-- What has been done. -/
inductive Event where
  | mapping (event : WireMapping.Event Unit)
  | open
  | readSnapshot (epoch : UInt32)
  | readSnapshotFast (epoch : UInt32)
  | load
  | inspect
  | miss
  | unchanged
  | updated
  | fails
  | reset

/-- A byte of the buffer is written. -/
def writtenBy (written : Bool) : WireMapping.Event Unit → Bool
  | .load _ => true
  | _ => written

/-- The addresses of the magic. -/
def magicAddresses : List Nat := List.range 4

/-- The addresses of the generation and of the checksum. -/
def identityAddresses : List Nat := List.range' 0x10 12

/-- The wire still has the identity that the reader keeps. -/
def Inspection.Hits (s : State) (inspection : Inspection) : Prop :=
  s.mapping.SeqlockValidateRead inspection.seq1 ∧
    inspection.bytes.readLE 0x10 8 = s.cachedIdentity.wireGeneration ∧
    inspection.bytes.readLE 0x18 4 = s.cachedIdentity.wireCrc32

/-- `ReadSnapshot` and `ReadSnapshotFast`, with the publishes of one manager. -/
inductive Step (size : SizeT) : State → Event → State → Prop
  | publish {s : State} {event : WireMapping.Event Unit} {mapping : WireMapping.State Unit}
      (hevent : event.Publishes) (hstep : WireMapping.Step s.mapping event mapping) :
      Step size s (.mapping event) { s with mapping := mapping }
  | copy {s : State} {event : WireMapping.Event Unit} {mapping : WireMapping.State Unit}
      (hevent : event.Copies) (hstep : WireMapping.Step s.mapping event mapping) :
      Step size s (.mapping event)
        { s with mapping := mapping, written := writtenBy s.written event }
  | open {s : State} (hopen : s.isOpen = false) : Step size s .open { s with isOpen := true }
  | notOpen {s : State} (hcall : s.call = .idle) (hopen : s.isOpen = false) : Step size s .fails s
  | readSnapshot {s : State} {epoch : UInt32} {mapping : WireMapping.State Unit}
        (hcall : s.call = .idle)
      (hopen : s.isOpen = true) (hstep : WireMapping.Step s.mapping (.read () 5) mapping) :
      Step size s (.readSnapshot epoch) { s with mapping := mapping, call := .copying epoch }
  | readFull {s : State} {epoch : UInt32} {mapping : WireMapping.State Unit}
        (hcall : s.call = .idle)
      (hopen : s.isOpen = true)
      (hfull : s.cachedIdentity.wireGeneration = 0 ∨ s.mapping.seqlock &&& 1 ≠ 0)
      (hstep : WireMapping.Step s.mapping (.read () 5) mapping) :
      Step size s (.readSnapshotFast epoch) { s with mapping := mapping, call := .copying epoch }
  | readFast {s : State} {epoch : UInt32} {bytes : Memory} {addresses : List Nat}
        (hcall : s.call = .idle)
      (hopen : s.isOpen = true) (hcached : 0 < s.cachedIdentity.wireGeneration)
      (heven : s.mapping.seqlock &&& 1 = 0) (haddresses : addresses.Perm magicAddresses) :
      Step size s (.readSnapshotFast epoch) { s with
        call := .checking
          ⟨epoch, s.mapping.seqlock, ⟨s.mapping.wire.increments, []⟩, bytes, addresses⟩ }
  | loadMagic {s : State} {inspection : Inspection} {a : Nat} {addresses : List Nat}
      (hcall : s.call = .checking inspection) (haddresses : inspection.addresses = a :: addresses) :
      Step size s .load { s with call := .checking (inspection.load s.wire a addresses) }
  | inspect {s : State} {inspection : Inspection} {addresses : List Nat}
      (hcall : s.call = .checking inspection) (hdone : inspection.addresses = [])
      (hmagic : WireMapping.magicOf inspection.bytes = wireMagic)
      (haddresses : addresses.Perm identityAddresses) :
      Step size s .inspect { s with call := .inspecting { inspection with addresses := addresses } }
  | noMagic {s : State} {inspection : Inspection} {mapping : WireMapping.State Unit}
      (hcall : s.call = .checking inspection) (hdone : inspection.addresses = [])
      (hmagic : WireMapping.magicOf inspection.bytes ≠ wireMagic)
      (hstep : WireMapping.Step s.mapping (.read () 5) mapping) :
      Step size s .miss { s with mapping := mapping, call := .copying inspection.epoch }
  | loadIdentity {s : State} {inspection : Inspection} {a : Nat} {addresses : List Nat}
      (hcall : s.call = .inspecting inspection)
        (haddresses : inspection.addresses = a :: addresses) :
      Step size s .load { s with call := .inspecting (inspection.load s.wire a addresses) }
  | hit {s : State} {inspection : Inspection} (hcall : s.call = .inspecting inspection)
      (hdone : inspection.addresses = []) (hhit : inspection.Hits s) :
      Step size s .unchanged { s with
        cachedIdentity := { s.cachedIdentity with sharedStateEpoch := inspection.epoch }
        call := .idle }
  | miss {s : State} {inspection : Inspection} {mapping : WireMapping.State Unit}
      (hcall : s.call = .inspecting inspection) (hdone : inspection.addresses = [])
      (hmiss : ¬inspection.Hits s) (hstep : WireMapping.Step s.mapping (.read () 5) mapping) :
      Step size s .miss { s with mapping := mapping, call := .copying inspection.epoch }
  | accept {s : State} {epoch : UInt32} {mapping : WireMapping.State Unit} {view : LexiconWireView}
      (hcall : s.call = .copying epoch)
        (hstep : WireMapping.Step s.mapping (.returns () true) mapping)
      (hview : validateAndInspect size (mapping.localBuffer ()) wireTotalSize = .ok view) :
      Step size s .updated { s with
        mapping := mapping
        cachedIdentity := {
          sharedStateEpoch := epoch
          wireGeneration := (LexiconWireHeader.load (mapping.localBuffer ())).generation
          wireCrc32 := (LexiconWireHeader.load (mapping.localBuffer ())).crc32 }
        outView := some view
        call := .idle
        written := false }
  | reject {s : State} {epoch : UInt32} {mapping : WireMapping.State Unit} {error : String}
      (hcall : s.call = .copying epoch)
        (hstep : WireMapping.Step s.mapping (.returns () true) mapping)
      (herror : validateAndInspect size (mapping.localBuffer ()) wireTotalSize = .error error) :
      Step size s .fails
        { s with mapping := mapping, outView := none, call := .idle, written := true }
  | fail {s : State} {epoch : UInt32} {mapping : WireMapping.State Unit}
        (hcall : s.call = .copying epoch)
      (hstep : WireMapping.Step s.mapping (.returns () false) mapping) :
      Step size s .fails { s with mapping := mapping, call := .idle }
  | reset {s : State} (hcall : s.call = .idle) : Step size s .reset { s with cachedIdentity := {} }

/-- A reader that has not read yet, and the mapping of the first manager. -/
def State.initial (localBuffer : Memory) : State where
  mapping := .initial fun _ => localBuffer
  isOpen := false
  cachedIdentity := {}
  outView := none
  call := .idle
  written := false

end WireReader

end VKey
