import Mathlib.Algebra.Ring.Nat
import Mathlib.Data.List.Basic
import VKey.Support.Run
import VKey.Support.Seqlock

/-!
# The browser context

Browser extensions tell the hook which page has the focus, through a block of shared memory with a
sequence lock.  The writers hold a mutex; a writer may die while it holds it, and the next one
obtains it as abandoned.  Every load and store of the block is one step.
-/

namespace VKey

namespace BrowserContext

open Seqlock

/-- The fields of the block, without its generation; the strings byte by byte. -/
inductive Cell where
  | magic
  | version
  | structSize
  | ownerProcessId
  | ownerNonce
  | updatedTickMs
  | modeEventSequence
  | modeEventOwnerProcessId
  | modeEventOwnerNonce
  | focused
  | route
  | mode
  | modeEventMode
  | reserved (i : Nat)
  | browserExe (i : Nat)
  | hostname (i : Nat)
  | modeEventHostname (i : Nat)
  deriving DecidableEq, Repr

/-- The fields as numbers. -/
abbrev Block := Seqlock.Memory Cell Nat

def kBrowserContextMagic : Nat := 0x42594B56

def kBrowserContextVersion : Nat := 2

/-- The size of the block in bytes. -/
def sizeOfState : Nat := 600

inductive BrowserRoute where
  | default
  | forceEnglish
  | forceTsf
  deriving DecidableEq, Repr

def BrowserRoute.toNat : BrowserRoute → Nat
  | .default => 0
  | .forceEnglish => 1
  | .forceTsf => 2

inductive BrowserMode where
  | default
  | vietnamese
  | english
  deriving DecidableEq, Repr

def BrowserMode.toNat : BrowserMode → Nat
  | .default => 0
  | .vietnamese => 1
  | .english => 2

/-- The header is that of a block of this version. -/
def HasValidHeader (block : Block) : Prop :=
  block .magic = kBrowserContextMagic ∧ block .version = kBrowserContextVersion ∧
    block .structSize = sizeOfState

instance (block : Block) : Decidable (HasValidHeader block) :=
  inferInstanceAs (Decidable (_ ∧ _ ∧ _))

/-! ## The writers -/

/-- What `Publish` is called with.  Other calls are refused. -/
structure PublishRequest where
  ownerProcessId : Nat
  ownerNonce : Nat
  updatedTickMs : Nat
  focused : Bool
  route : BrowserRoute
  mode : BrowserMode
  browserExe : List Nat
  hostname : List Nat
  ownerProcessId_ne : ownerProcessId ≠ 0
  ownerNonce_ne : ownerNonce ≠ 0
  browserExe_ne : browserExe ≠ []
  browserExe_lt : browserExe.length < 32
  hostname_lt : hostname.length < 256

/-- A call of one of the writers. -/
inductive Writer where
  | publish (request : PublishRequest)
  | publishModeEvent (vietnamese : Bool)
  | clearIfOwned (ownerProcessId ownerNonce updatedTickMs : Nat)

/-- Store a value. -/
def put (cell : Cell) (value : Nat) : Store Cell Nat := (cell, fun _ => value)

/-- Store a value that is computed from the block. -/
def compute (cell : Cell) (value : Block → Nat) : Store Cell Nat := (cell, value)

/-- Fill a string with zeros. -/
def memset (cell : Nat → Cell) (size : Nat) : List (Store Cell Nat) :=
  (List.range size).map fun i => put (cell i) 0

/-- Copy some bytes to a string. -/
def memcpy (cell : Nat → Cell) (bytes : List Nat) : List (Store Cell Nat) :=
  bytes.mapIdx fun i byte => put (cell i) byte

/-- Store a string over an old one. -/
def storeString (cell : Nat → Cell) (size : Nat) (bytes : List Nat) : List (Store Cell Nat) :=
  memset cell size ++ memcpy cell bytes

namespace Writer

/-- The stores of a writer, between the two increments. -/
def stores : Writer → List (Store Cell Nat)
  | .publish request =>
      [put .magic kBrowserContextMagic,
        put .version kBrowserContextVersion,
        put .structSize sizeOfState,
        put .ownerProcessId request.ownerProcessId,
        put .ownerNonce request.ownerNonce,
        put .updatedTickMs request.updatedTickMs,
        put .focused (if request.focused then 1 else 0),
        put .route (if request.focused then request.route.toNat else BrowserRoute.default.toNat),
        put .mode (if request.focused then request.mode.toNat else BrowserMode.default.toNat)] ++
      storeString .browserExe 32 request.browserExe ++ storeString .hostname 256 request.hostname
  | .publishModeEvent vietnamese =>
      [compute .modeEventSequence fun block => (block .modeEventSequence + 1) % 2 ^ 32,
        compute .modeEventSequence fun block =>
          if block .modeEventSequence = 0 then 1 else block .modeEventSequence,
        compute .modeEventOwnerProcessId fun block => block .ownerProcessId,
        compute .modeEventOwnerNonce fun block => block .ownerNonce,
        put .modeEventMode
          (if vietnamese then BrowserMode.vietnamese.toNat else BrowserMode.english.toNat)] ++
      memset .modeEventHostname 256 ++
      (List.range 255).map fun i => compute (.modeEventHostname i) fun block => block (.hostname i)
  | .clearIfOwned _ _ updatedTickMs =>
      [put .focused 0,
        put .route BrowserRoute.default.toNat,
        put .mode BrowserMode.default.toNat,
        put .updatedTickMs updatedTickMs]

/-- The check of a writer that holds the mutex. -/
def Admits (block : Block) : Writer → Prop
  | .publish _ => True
  | .publishModeEvent _ =>
      HasValidHeader block ∧ block .focused ≠ 0 ∧ block .ownerProcessId ≠ 0 ∧
        block .ownerNonce ≠ 0 ∧ block (.hostname 0) ≠ 0
  | .clearIfOwned ownerProcessId ownerNonce _ =>
      ownerProcessId ≠ 0 ∧ ownerNonce ≠ 0 ∧ block .ownerProcessId = ownerProcessId ∧
        block .ownerNonce = ownerNonce

end Writer

/-- The stores of the constructor of a new block, after that of its generation. -/
def initialStores : List (Store Cell Nat) :=
  [put .magic kBrowserContextMagic,
    put .version kBrowserContextVersion,
    put .structSize sizeOfState,
    put .ownerProcessId 0,
    put .ownerNonce 0,
    put .updatedTickMs 0,
    put .modeEventSequence 0,
    put .modeEventOwnerProcessId 0,
    put .modeEventOwnerNonce 0,
    put .focused 0,
    put .route BrowserRoute.default.toNat,
    put .mode BrowserMode.default.toNat,
    put .modeEventMode BrowserMode.default.toNat] ++
  memset .reserved 4 ++ memset .browserExe 32 ++ memset .hostname 256 ++
    memset .modeEventHostname 256

/-! ## The reader -/

/-- The cells in the order they are loaded. -/
def readCells : List Cell :=
  [.magic, .version, .structSize, .ownerProcessId, .ownerNonce, .updatedTickMs, .modeEventSequence,
    .modeEventOwnerProcessId, .modeEventOwnerNonce, .focused, .route, .mode, .modeEventMode] ++
  (List.range 4).map .reserved ++ (List.range 32).map .browserExe ++
  (List.range 256).map .hostname ++ (List.range 256).map .modeEventHostname

/-- The block that has been loaded, with its strings terminated. -/
def readBlock (loaded : List (Cell × Nat)) : Block := fun cell =>
  if cell = .browserExe 31 ∨ cell = .hostname 255 ∨ cell = .modeEventHostname 255 then 0
  else (loaded.lookup cell).getD 0

/-! ## Fields -/

/-- The owner, the route, the mode, the executable and the host name. -/
def Claimed : Cell → Prop
  | .ownerProcessId => True
  | .ownerNonce => True
  | .updatedTickMs => True
  | .focused => True
  | .route => True
  | .mode => True
  | .browserExe i => i < 32
  | .hostname i => i < 256
  | _ => False

/-- The two blocks have the same owner, route, mode, executable and host name. -/
def Agree (block block' : Block) : Prop := ∀ cell, Claimed cell → block cell = block' cell

/-- What a request says. -/
def PublishRequest.fields (request : PublishRequest) : Block
  | .ownerProcessId => request.ownerProcessId
  | .ownerNonce => request.ownerNonce
  | .updatedTickMs => request.updatedTickMs
  | .focused => if request.focused then 1 else 0
  | .route => if request.focused then request.route.toNat else BrowserRoute.default.toNat
  | .mode => if request.focused then request.mode.toNat else BrowserMode.default.toNat
  | .browserExe i => (request.browserExe[i]?).getD 0
  | .hostname i => (request.hostname[i]?).getD 0
  | _ => 0

/-- Some fields after `ClearIfOwned`. -/
def cleared (updatedTickMs : Nat) (fields : Block) : Block
  | .focused => 0
  | .route => BrowserRoute.default.toNat
  | .mode => BrowserMode.default.toNat
  | .updatedTickMs => updatedTickMs
  | cell => fields cell

/-- The fields that a completed writer leaves, newest first. -/
def Writer.leave (left : List Block) : Writer → List Block
  | .publish request => request.fields :: left
  | .publishModeEvent _ => left
  | .clearIfOwned _ _ updatedTickMs => (left.head?.map (cleared updatedTickMs)).toList ++ left

/-! ## The processes -/

/-- Where a process stands. -/
inductive Doing where
  /-- Not attached to the block, or dead. -/
  | away
  | idle
  /-- The creator, before it stores the generation. -/
  | constructing
  /-- The creator, before its other stores. -/
  | initialising (stores : List (Store Cell Nat))
  /-- Before the mutex is obtained. -/
  | waiting (writer : Writer)
  /-- Before the check and the first increment. -/
  | checking (writer : Writer)
  | writing (writer : Writer) (stores : List (Store Cell Nat))
  /-- Before the mutex is released. -/
  | leaving
  /-- Before the generation is loaded. -/
  | attempting (attempt : Nat)
  | reading (attempt : Nat) (before : BitVec 32) (reading : Reading Cell Nat) (cells : List Cell)

/-- The block, its mutex and the processes. -/
structure State (ι : Type) where
  mapped : Bool
  generation : BitVec 32
  block : Block
  holder : Option ι
  doing : ι → Doing
  /-- The increments of the generation so far. -/
  increments : Nat
  /-- What the completed writers have left, newest first. -/
  left : List Block
  /-- A `Publish` has changed the fields and not completed. -/
  dirty : Prop

variable {ι : Type} [DecidableEq ι]

/-- What a process has done. -/
inductive Event (ι : Type) where
  | create (i : ι)
  | step (i : ι)
  | call (i : ι) (writer : Writer)
  | obtain (i : ι)
  | begin (i : ι) (writer : Writer)
  | refuse (i : ι)
  | finish (i : ι) (writer : Writer)
  | release (i : ι)
  | read (i : ι)
  | beginRead (i : ι)
  | retry (i : ι)
  | readReturns (i : ι) (out : Option Block)
  | die (i : ι)
  | unmap

/-- A process moves on. -/
def State.moveTo (s : State ι) (i : ι) (doing : Doing) : State ι :=
  { s with doing := Function.update s.doing i doing }

/-- The first increment: a generation that a dead writer has left odd stays odd. -/
def State.beginSeqlockWrite (s : State ι) : State ι :=
  if s.generation &&& 1 = 0 then
    { s with generation := s.generation + 1, increments := s.increments + 1 }
  else s

def State.endSeqlockWrite (s : State ι) : State ι :=
  { s with generation := s.generation + 1, increments := s.increments + 1 }

/-- A new block, filled with zeros. -/
def State.fresh (s : State ι) : State ι :=
  { s with
    mapped := true
    generation := 0
    block := fun _ => 0
    holder := none
    increments := 0
    left := []
    dirty := False }

/-- A `Publish` changes a field. -/
def Writer.dirties (writer : Writer) (block : Block) (store : Store Cell Nat) : Prop :=
  match writer with
  | .publish _ => applyStore block store ≠ block
  | _ => False

/-- Whether a `Publish` is incomplete after a writer has completed. -/
def Writer.leaveDirty (dirty : Prop) : Writer → Prop
  | .publish _ => False
  | _ => dirty

inductive Step : State ι → Event ι → State ι → Prop
  | create {s : State ι} {i : ι} (hi : s.doing i = .away) (hmapped : s.mapped = false) :
      Step s (.create i) (s.fresh.moveTo i .constructing)
  | reopen {s : State ι} {i : ι} (hi : s.doing i = .away) (hmapped : s.mapped = true) :
      Step s (.create i) (s.moveTo i .idle)
  | construct {s : State ι} {i : ι} (hi : s.doing i = .constructing) :
      Step s (.step i) ({ s with generation := 0 }.moveTo i (.initialising initialStores))
  | initialise {s : State ι} {i : ι} {store : Store Cell Nat} {stores : List (Store Cell Nat)}
      (hi : s.doing i = .initialising (store :: stores)) :
      Step s (.step i)
        ({ s with block := applyStore s.block store }.moveTo i (.initialising stores))
  | initialised {s : State ι} {i : ι} (hi : s.doing i = .initialising []) :
      Step s (.step i) (s.moveTo i .idle)
  | call {s : State ι} {i : ι} (writer : Writer) (hi : s.doing i = .idle) :
      Step s (.call i writer) (s.moveTo i (.waiting writer))
  | timeOut {s : State ι} {i : ι} {writer : Writer} (hi : s.doing i = .waiting writer) :
      Step s (.step i) (s.moveTo i .idle)
  | obtain {s : State ι} {i : ι} {writer : Writer} (hi : s.doing i = .waiting writer)
      (hfree : s.holder = none) :
      Step s (.obtain i) ({ s with holder := some i }.moveTo i (.checking writer))
  | begin {s : State ι} {i : ι} {writer : Writer} (hi : s.doing i = .checking writer)
      (hadmits : writer.Admits s.block) :
      Step s (.begin i writer) (s.beginSeqlockWrite.moveTo i (.writing writer writer.stores))
  | refuse {s : State ι} {i : ι} {writer : Writer} (hi : s.doing i = .checking writer)
      (hadmits : ¬writer.Admits s.block) :
      Step s (.refuse i) (s.moveTo i .leaving)
  | store {s : State ι} {i : ι} {writer : Writer} {store : Store Cell Nat}
      {stores : List (Store Cell Nat)} (hi : s.doing i = .writing writer (store :: stores)) :
      Step s (.step i)
        ({ s with
            block := applyStore s.block store
            dirty := s.dirty ∨ writer.dirties s.block store }.moveTo i (.writing writer stores))
  | finish {s : State ι} {i : ι} {writer : Writer} (hi : s.doing i = .writing writer []) :
      Step s (.finish i writer)
        ({ s.endSeqlockWrite with
            left := writer.leave s.left
            dirty := writer.leaveDirty s.dirty }.moveTo i .leaving)
  | release {s : State ι} {i : ι} (hi : s.doing i = .leaving) :
      Step s (.release i) ({ s with holder := none }.moveTo i .idle)
  | read {s : State ι} {i : ι} (hi : s.doing i = .idle) :
      Step s (.read i) (s.moveTo i (.attempting 0))
  | beginRead {s : State ι} {i : ι} {attempt : Nat} (hi : s.doing i = .attempting attempt)
      (hlt : attempt < 3) (heven : s.generation &&& 1 = 0) :
      Step s (.beginRead i)
        (s.moveTo i (.reading attempt s.generation ⟨s.increments, []⟩ readCells))
  | locked {s : State ι} {i : ι} {attempt : Nat} (hi : s.doing i = .attempting attempt)
      (hlt : attempt < 3) (hodd : s.generation &&& 1 ≠ 0) :
      Step s (.retry i) (s.moveTo i (.attempting (attempt + 1)))
  | load {s : State ι} {i : ι} {attempt : Nat} {before : BitVec 32} {reading : Reading Cell Nat}
      {cell : Cell} {cells : List Cell}
      (hi : s.doing i = .reading attempt before reading (cell :: cells)) :
      Step s (.step i) (s.moveTo i (.reading attempt before
        { reading with loaded := (cell, s.block cell) :: reading.loaded } cells))
  | validate {s : State ι} {i : ι} {attempt : Nat} {before : BitVec 32} {reading : Reading Cell Nat}
      (hi : s.doing i = .reading attempt before reading []) (hsame : s.generation = before) :
      Step s (.readReturns i (if HasValidHeader (readBlock reading.loaded) then
        some (readBlock reading.loaded) else none)) (s.moveTo i .idle)
  | changed {s : State ι} {i : ι} {attempt : Nat} {before : BitVec 32} {reading : Reading Cell Nat}
      (hi : s.doing i = .reading attempt before reading []) (hsame : s.generation ≠ before) :
      Step s (.retry i) (s.moveTo i (.attempting (attempt + 1)))
  | giveUp {s : State ι} {i : ι} (hi : s.doing i = .attempting 3) :
      Step s (.readReturns i none) (s.moveTo i .idle)
  | die {s : State ι} {i : ι} :
      Step s (.die i)
        ({ s with holder := if s.holder = some i then none else s.holder }.moveTo i .away)
  | unmap {s : State ι} (haway : ∀ i, s.doing i = .away) : Step s .unmap { s with mapped := false }

/-- Before the first process. -/
def State.initial : State ι where
  mapped := false
  generation := 0
  block _ := 0
  holder := none
  doing _ := .away
  increments := 0
  left := []
  dirty := False

end BrowserContext

end VKey
