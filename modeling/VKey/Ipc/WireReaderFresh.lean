import VKey.Ipc.WireIdentity
import VKey.Ipc.WireReader

/-!
# Snapshots of a reader are those of the wire

The fast path trusts the generation and the checksum.  The snapshot of the caller is the one on the
wire as long as no publish repeats generation and payload of an earlier one with another flag, and
as no read that has failed leaves its bytes in the buffer while the reader keeps an identity.
-/

namespace VKey

namespace WireReader

open Seqlock Wire WireMapping

/-- Blocks with the same checksum have the same payload. -/
def ChecksumInjective (published : List Memory) : Prop :=
  ∀ block ∈ published, ∀ block' ∈ published,
    computeCrc32 (payloadOf block) = computeCrc32 (payloadOf block') →
      payloadOf block = payloadOf block'

/-- Blocks with the same generation and the same checksum have the same flags. -/
def FlagsFollow (block block' : Memory) : Prop :=
  (LexiconWireHeader.load block).generation = (LexiconWireHeader.load block').generation →
    (LexiconWireHeader.load block).crc32 = (LexiconWireHeader.load block').crc32 →
      (LexiconWireHeader.load block).flags = (LexiconWireHeader.load block').flags

/-- The count moves by less than `2 ^ 32` during a read, as it does with fewer than `2 ^ 31`
publishes. -/
def Paced (s : State) : Event → Prop
  | .unchanged => ∀ inspection, s.call = .inspecting inspection →
      s.mapping.wire.increments < inspection.reading.begun + 2 ^ 32
  | .updated => WireMapping.Paced s.mapping (.returns () true)
  | _ => True

/-- No publish repeats the identity of an earlier one with other flags, and the fast path does not
end while the buffer is written. -/
def Faithful (s : State) : Event → Prop
  | .mapping (.beginPublish params) => ∀ outBuffer stagedBuffer,
      serialize params outBuffer wireTotalSize = .ok stagedBuffer →
        ∀ snapshot ∈ s.published, FlagsFollow snapshot stagedBuffer
  | .unchanged => s.written = false
  | _ => True

def Orderly (s : State) (event : Event) : Prop := Paced s event ∧ Faithful s event

/-- A read that reports success leaves a published snapshot, with the content of the wire. -/
def Mirrors (s s' : State) : Event → Prop
  | .unchanged | .updated =>
      (∃ snapshot ∈ s.published, AgreeOn Claimed s'.localBuffer snapshot) ∧
        s'.outView = some (viewOf (.load s'.localBuffer)) ∧
        (extract s'.localBuffer (viewOf (.load s'.localBuffer))).value =
          (extract s.wire (viewOf (.load s.wire))).value
  | _ => True

/-! ## Identities of blocks -/

/-- A block of parameters that fit. -/
def IsBlock (buffer : Memory) : Prop :=
  ∃ params outBuffer, Serializable params ∧ buffer = block params outBuffer

theorem isBlock_of_serialize {params : LexiconWireSerializeParams} {outBuffer stagedBuffer : Memory}
    (h : serialize params outBuffer wireTotalSize = .ok stagedBuffer) : IsBlock stagedBuffer := by
  obtain ⟨-, hparams, rfl⟩ := serialize_eq_ok.mp h
  exact ⟨params, outBuffer, hparams, rfl⟩

theorem crc32_load_block {params : LexiconWireSerializeParams} (h : Serializable params)
    (outBuffer : Memory) :
    (LexiconWireHeader.load (block params outBuffer)).crc32 =
      (computeCrc32 (payloadOf (block params outBuffer))).toNat := by
  rw [payloadOf, load_block h]
  exact congrArg (fun bytes => (computeCrc32 bytes).toNat)
    (payload_write_header (blockHeader params (blockCrc32 params outBuffer)) (Nat.le_refl _)).symm

theorem spellSuggestEnabled_of_flags {params params' : LexiconWireSerializeParams}
    {crc32 crc32' : Nat}
    (h : (blockHeader params crc32).flags = (blockHeader params' crc32').flags) :
    params.spellSuggestEnabled = params'.spellSuggestEnabled := by
  simp only [blockHeader, headerOf] at h
  revert h
  cases params.spellSuggestEnabled <;> cases params'.spellSuggestEnabled <;> decide

/-- Copies of two published blocks with the same identity have the same content. -/
theorem extract_eq {published : List Memory} {block₁ block₂ buffer₁ buffer₂ : Memory}
    (hcrc : ChecksumInjective published) (h₁ : IsBlock block₁) (h₂ : IsBlock block₂)
    (hmem₁ : block₁ ∈ published) (hmem₂ : block₂ ∈ published)
    (hgeneration : (LexiconWireHeader.load block₁).generation =
      (LexiconWireHeader.load block₂).generation)
    (hcrc32 : (LexiconWireHeader.load block₁).crc32 = (LexiconWireHeader.load block₂).crc32)
    (hflags : FlagsFollow block₁ block₂) (hagree₁ : AgreeOn Claimed buffer₁ block₁)
    (hagree₂ : AgreeOn Claimed buffer₂ block₂) :
    (extract buffer₁ (viewOf (.load buffer₁))).value =
      (extract buffer₂ (viewOf (.load buffer₂))).value := by
  have hflag := hflags hgeneration hcrc32
  obtain ⟨params₁, outBuffer₁, hparams₁, rfl⟩ := h₁
  obtain ⟨params₂, outBuffer₂, hparams₂, rfl⟩ := h₂
  rw [extract_of_agreeOn hparams₁ hagree₁, extract_of_agreeOn hparams₂ hagree₂]
  rw [crc32_load_block hparams₁, crc32_load_block hparams₂] at hcrc32
  have hpayload := hcrc _ hmem₁ _ hmem₂ (UInt32.toNat_inj.mp hcrc32)
  have hsame := samePayload_of_payloadOf hparams₁ hparams₂ hpayload
  rw [load_block hparams₁, load_block hparams₂] at hgeneration hflag
  have hgen : params₁.generation.toNat = params₂.generation.toNat := hgeneration
  rw [paramsContent, paramsContent, hsame.lines_eq hparams₁ hparams₂,
    hsame.sortedWords_eq hparams₁ hparams₂, hgen, spellSuggestEnabled_of_flags hflag]

/-! ## The publishes -/

/-- The published blocks, while one manager publishes. -/
structure Published (mapping : WireMapping.State Unit) : Prop where
  safe : Safe mapping
  attached : mapping.publisher = .attached → mapping.seqlock &&& 1 = 0
  blocks : ∀ snapshot ∈ mapping.wire.completed, IsBlock snapshot
  staged : ∀ stagedBuffer stores, mapping.publisher = .publishing stagedBuffer stores →
    IsBlock stagedBuffer ∧ ∀ snapshot ∈ mapping.wire.completed, FlagsFollow snapshot stagedBuffer
  flags : ∀ snapshot ∈ mapping.wire.completed, ∀ snapshot' ∈ mapping.wire.completed,
    FlagsFollow snapshot snapshot'

theorem FlagsFollow.symm {block block' : Memory} (h : FlagsFollow block block') :
    FlagsFollow block' block :=
  fun hgeneration hcrc32 => (h hgeneration.symm hcrc32.symm).symm

theorem Published.initial (localBuffer : Unit → Memory) : Published (.initial localBuffer) where
  safe := Safe.initial localBuffer
  attached _ := by
    show (0 : BitVec 32) &&& 1 = 0
    decide
  blocks _ h := absurd h List.not_mem_nil
  staged _ _ h := by cases h
  flags _ h := absurd h List.not_mem_nil

section Mapping

variable {mapping mapping' : WireMapping.State Unit} {event : WireMapping.Event Unit}

/-- The manager publishes, and repeats no identity with other flags. -/
theorem Published.publish (h : Published mapping) (hevent : event.Publishes)
    (hflags : ∀ params, event = .beginPublish params → ∀ outBuffer stagedBuffer,
      serialize params outBuffer wireTotalSize = .ok stagedBuffer →
        ∀ snapshot ∈ mapping.wire.completed, FlagsFollow snapshot stagedBuffer)
    (hstep : WireMapping.Step mapping event mapping') : Published mapping' := by
  have hsafe :
    (∀ params, event = .beginPublish params → mapping.seqlock &&& 1 = 0) → Safe mapping' :=
    fun hbegin => h.safe.step hbegin hstep
  cases hstep with
  | beginPublish hattached hserialize =>
      exact
        { safe := hsafe fun _ _ => h.attached hattached
          attached := by
            intro hidle
            cases hidle
          blocks := h.blocks
          staged := by
            intro _ _ hpublisher
            cases hpublisher
            exact ⟨isBlock_of_serialize hserialize, hflags _ rfl _ _ hserialize⟩
          flags := h.flags }
  | store hpublisher =>
      exact
        { safe := by
            apply hsafe
            intro _ hbegin
            cases hbegin
          attached := by
            intro hidle
            cases hidle
          blocks := h.blocks
          staged := by
            intro _ _ hpublisher'
            cases hpublisher'
            exact h.staged _ _ hpublisher
          flags := h.flags }
  | @endPublish stagedBuffer hpublisher =>
      obtain ⟨hblock, hfollow⟩ := h.staged _ _ hpublisher
      have hphase : mapping.phase none = .holding [] stagedBuffer := by
        rw [WireMapping.State.phase, hpublisher, Publisher.phase]
      have hodd := (h.safe.sound.holding none _ _ hphase).1
      have hsafe' := hsafe (by intro _ hbegin; cases hbegin)
      exact
        { safe := hsafe'
          attached := by
            intro _
            rw [hsafe'.even_iff]
            dsimp only
            rw [h.safe.setWord]
            show (mapping.wire.increments + 1) % 2 = 0
            omega
          blocks := List.forall_mem_cons.mpr ⟨hblock, h.blocks⟩
          staged := by
            intro _ _ hpublisher'
            cases hpublisher'
          flags := by
            refine List.forall_mem_cons.mpr ⟨List.forall_mem_cons.mpr ⟨fun _ _ => rfl, ?_⟩, ?_⟩
            · exact fun snapshot hmem => (hfollow snapshot hmem).symm
            · exact fun snapshot hmem =>
                List.forall_mem_cons.mpr ⟨hfollow snapshot hmem, h.flags snapshot hmem⟩ }
  | _ => exact hevent.elim

/-- A step of the reader. -/
def Reads : WireMapping.Event Unit → Prop
  | .create | .beginPublish _ | .store | .endPublish | .die => False
  | _ => True

theorem wire_of_reads (hstep : WireMapping.Step mapping event mapping') (hevent : Reads event) :
    mapping'.wire = mapping.wire ∧ mapping'.publisher = mapping.publisher := by
  cases hstep with
  | create | beginPublish | store | endPublish | die => exact hevent.elim
  | _ => exact ⟨rfl, rfl⟩

theorem Published.read (h : Published mapping) (hstep : WireMapping.Step mapping event mapping')
    (hevent : Reads event) : Published mapping' := by
  have hbegin : ∀ params, event = .beginPublish params → mapping.seqlock &&& 1 = 0 := by
    rintro params rfl
    exact hevent.elim
  have hsafe := h.safe.step hbegin hstep
  obtain ⟨hwire, hpublisher⟩ := wire_of_reads hstep hevent
  refine ⟨hsafe, ?_, ?_, ?_, ?_⟩
  · rw [hpublisher, WireMapping.State.seqlock, hwire]
    exact h.attached
  · rw [hwire]
    exact h.blocks
  · rw [hpublisher, hwire]
    exact h.staged
  · rw [hwire]
    exact h.flags

end Mapping

/-! ## The reader -/

/-- The caller has the snapshot of the cached identity. -/
def Held (s : State) : Prop :=
  ∃ snapshot ∈ s.published, AgreeOn Claimed s.localBuffer snapshot ∧
    s.outView = some (viewOf (.load s.localBuffer)) ∧
    s.cachedIdentity.wireGeneration = (LexiconWireHeader.load snapshot).generation ∧
    s.cachedIdentity.wireCrc32 = (LexiconWireHeader.load snapshot).crc32

/-- What the fast path knows of the count. -/
structure Inspection.Fits (identity : LexiconSnapshotIdentity) (wire : Lock Nat UInt8)
    (inspection : Inspection) : Prop where
  cached : 0 < identity.wireGeneration
  seq1 : inspection.seq1 = BitVec.ofNat 32 inspection.reading.begun
  valid : inspection.reading.Valid wire.increments wire.memory

/-- The bytes of the identity are loaded, up to some. -/
def Inspection.Covers (inspection : Inspection) : Prop :=
  ∀ a ∈ identityAddresses, a ∈ inspection.addresses ∨
    (a, inspection.bytes a) ∈ inspection.reading.loaded

def Call.Fits (identity : LexiconSnapshotIdentity) (wire : Lock Nat UInt8) : Call → Prop
  | .checking inspection => inspection.Fits identity wire
  | .inspecting inspection => inspection.Fits identity wire ∧ inspection.Covers
  | _ => True

/-- The published blocks are sound, and the caller has a snapshot while nothing is written. -/
structure Tracked (s : State) : Prop where
  published : Published s.mapping
  held : 0 < s.cachedIdentity.wireGeneration → s.written = false → Held s
  call : s.call.Fits s.cachedIdentity s.mapping.wire

theorem Tracked.initial (localBuffer : Memory) : Tracked (State.initial localBuffer) where
  published := Published.initial _
  held h := absurd h (Nat.lt_irrefl 0)
  call := trivial

section Steps

variable {size : SizeT} {s s' : State} {event : Event} {mapping : WireMapping.State Unit}
  {mappingEvent : WireMapping.Event Unit} {inspection : Inspection}

theorem Call.Fits.mappingTo {call : Call} {identity : LexiconSnapshotIdentity}
    (h : call.Fits identity s.mapping.wire) (hsafe : Safe s.mapping)
    (hstep : WireMapping.Step s.mapping mappingEvent mapping) :
    call.Fits identity mapping.wire := by
  have hfits : ∀ inspection : Inspection, inspection.Fits identity s.mapping.wire →
      inspection.Fits identity mapping.wire := by
    intro inspection hinspection
    exact ⟨hinspection.cached, hinspection.seq1, hsafe.valid_step hstep hinspection.valid⟩
  cases call with
  | checking inspection => exact hfits inspection h
  | inspecting inspection => exact ⟨hfits inspection h.1, h.2⟩
  | idle | copying => trivial

theorem Inspection.Fits.load {identity : LexiconSnapshotIdentity}
    (h : inspection.Fits identity s.mapping.wire) (a : Nat) (addresses : List Nat) :
    (inspection.load s.wire a addresses).Fits identity s.mapping.wire :=
  ⟨h.cached, h.seq1, h.valid.load a⟩

theorem Inspection.Covers.load {wire : Memory} {a : Nat} {addresses : List Nat}
    (h : inspection.Covers) (haddresses : inspection.addresses = a :: addresses) :
    (inspection.load wire a addresses).Covers := by
  intro b hb
  by_cases hab : b = a
  · subst hab
    right
    simp only [Inspection.load, Function.update_self]
    exact List.mem_cons_self
  · have hbefore := h b hb
    rw [haddresses, List.mem_cons] at hbefore
    simp only [Inspection.load, Function.update_of_ne hab]
    exact hbefore.imp (fun hmem => hmem.resolve_left hab) (List.mem_cons_of_mem _)

theorem Held.mono (h : Held s)
    (hpublished : ∀ snapshot ∈ s.published, snapshot ∈ mapping.wire.completed)
    (hbuffer : mapping.localBuffer = s.mapping.localBuffer) (call : Call) (written : Bool) :
    Held { s with mapping := mapping, call := call, written := written } := by
  obtain ⟨snapshot, hmem, hagree, hview, hidentity⟩ := h
  refine ⟨snapshot, hpublished snapshot hmem, ?_, ?_, hidentity⟩
  · rw [State.localBuffer, hbuffer]
    exact hagree
  · rw [State.localBuffer, hbuffer]
    exact hview

theorem localBuffer_of_publishes (hevent : mappingEvent.Publishes)
    (hstep : WireMapping.Step s.mapping mappingEvent mapping) :
    mapping.localBuffer = s.mapping.localBuffer ∧
    ∀ snapshot ∈ s.published, snapshot ∈ mapping.wire.completed := by
  cases hstep with
  | beginPublish | store => exact ⟨rfl, fun _ => id⟩
  | endPublish => exact ⟨rfl, fun _ => List.mem_cons_of_mem _⟩
  | _ => exact hevent.elim

theorem localBuffer_of_copies {written : Bool} (hevent : mappingEvent.Copies)
    (hstep : WireMapping.Step s.mapping mappingEvent mapping) :
    Reads mappingEvent ∧ (writtenBy written mappingEvent = false →
      written = false ∧ mapping.localBuffer = s.mapping.localBuffer) := by
  cases hstep with
  | odd | beginCopy | changed => exact ⟨trivial, fun hwritten => ⟨hwritten, rfl⟩⟩
  | load => exact ⟨trivial, nofun⟩
  | _ => exact hevent.elim

theorem localBuffer_of_read {maxRetries : Nat}
    (hstep : WireMapping.Step s.mapping (.read () maxRetries) mapping) :
    mapping.localBuffer = s.mapping.localBuffer := by
  cases hstep
  rfl

theorem localBuffer_of_fails (hstep : WireMapping.Step s.mapping (.returns () false) mapping) :
    mapping.localBuffer = s.mapping.localBuffer := by
  cases hstep with
  | noMagic | fail => rfl

theorem Published.accepted (h : Published s.mapping)
    (hpaced : WireMapping.Paced s.mapping (.returns () true))
    (hstep : WireMapping.Step s.mapping (.returns () true) mapping) :
    ∃ snapshot ∈ s.published, AgreeOn Claimed (mapping.localBuffer ()) snapshot ∧
      AgreeOn Claimed s.wire snapshot := by
  obtain ⟨heven, hcopied, hmagic⟩ := h.safe.accepted hpaced hstep
  rcases h.safe.completed_of_even heven with ⟨-, hnone⟩ | ⟨snapshot, hmem, hagree⟩
  · exact absurd hmagic hnone
  · exact ⟨snapshot, hmem, fun a ha => (hcopied a ha).trans (hagree a ha), hagree⟩

theorem identity_of_agreeOn {buffer snapshot : Memory} (h : AgreeOn Claimed buffer snapshot) :
    (LexiconWireHeader.load buffer).generation = (LexiconWireHeader.load snapshot).generation ∧
      (LexiconWireHeader.load buffer).crc32 = (LexiconWireHeader.load snapshot).crc32 := by
  have hread : ∀ k w, generationOffset ≤ k → k + w ≤ wireTotalSize →
    buffer.readLE k w = snapshot.readLE k w := by
    intro k w hlow hhigh
    refine congrArg decodeLE (Memory.read_congr fun a hge hlt => h a ?_)
    simp only [Claimed, seqlockOffset, generationOffset] at *
    omega
  exact ⟨hread 0x10 8 (by decide) (by decide), hread 0x18 4 (by decide) (by decide)⟩

/-- Every step keeps the invariant. -/
theorem Tracked.step (h : Tracked s) (horderly : Orderly s event) (hstep : Step size s event s') :
    Tracked s' := by
  have hcall := h.call
  cases hstep with
  | @publish event mapping hevent hstep =>
      have hpublished : Published mapping := by
        refine h.published.publish hevent ?_ hstep
        rintro params rfl
        exact horderly.2
      obtain ⟨hbuffer, hmono⟩ := localBuffer_of_publishes hevent hstep
      exact ⟨hpublished, fun hcached hwritten => (h.held hcached hwritten).mono hmono hbuffer _ _,
        h.call.mappingTo h.published.safe hstep⟩
  | @copy event mapping hevent hstep =>
      obtain ⟨hread, hbuffer⟩ := localBuffer_of_copies hevent hstep
      obtain ⟨hwire, -⟩ := wire_of_reads hstep hread
      refine ⟨h.published.read hstep hread, fun hcached hwritten =>
        ?_, h.call.mappingTo h.published.safe hstep⟩
      obtain ⟨hwritten, hbuffer⟩ := hbuffer hwritten
      exact (h.held hcached hwritten).mono (fun snapshot hmem => hwire ▸ hmem) hbuffer _ _
  | «open» | notOpen => exact ⟨h.published, h.held, h.call⟩
  | readSnapshot _ _ hstep | readFull _ _ _ hstep | noMagic _ _ _ hstep | miss _ _ _ hstep =>
      obtain ⟨hwire, -⟩ := wire_of_reads hstep trivial
      refine ⟨h.published.read hstep trivial, fun hcached hwritten => ?_, trivial⟩
      exact (h.held hcached hwritten).mono (fun snapshot hmem => hwire ▸ hmem)
        (localBuffer_of_read hstep) _ _
  | readFast _ _ hcached heven =>
      refine ⟨h.published, h.held, hcached, h.published.safe.sound.word, ?_⟩
      exact Reading.Valid.begin (h.published.safe.even_iff.mp heven) _
  | @loadMagic _ a addresses hchecking _ =>
      rw [hchecking] at hcall
      exact ⟨h.published, h.held, hcall.load a addresses⟩
  | inspect hchecking _ _ haddresses =>
      rw [hchecking] at hcall
      exact ⟨h.published, h.held, ⟨hcall.cached, hcall.seq1, hcall.valid⟩,
        fun a ha => Or.inl (haddresses.mem_iff.mpr ha)⟩
  | @loadIdentity _ a addresses hinspecting haddresses =>
      rw [hinspecting] at hcall
      exact ⟨h.published, h.held, hcall.1.load a addresses, hcall.2.load haddresses⟩
  | hit => exact ⟨h.published, h.held, trivial⟩
  | @accept epoch mapping view hcopying hstep hview =>
      obtain ⟨hwire, -⟩ := wire_of_reads hstep trivial
      obtain ⟨snapshot, hmem, hagree, -⟩ := h.published.accepted horderly.1 hstep
      obtain ⟨hgeneration, hcrc32⟩ := identity_of_agreeOn hagree
      obtain ⟨-, -, rfl⟩ := validateAndInspect_eq_ok.mp hview
      refine ⟨h.published.read hstep trivial, fun _ _ =>
        ⟨snapshot, ?_, hagree, rfl, hgeneration, hcrc32⟩, trivial⟩
      rw [State.published, hwire]
      exact hmem
  | reject _ hstep => exact ⟨h.published.read hstep trivial, nofun, trivial⟩
  | fail _ hstep =>
      obtain ⟨hwire, -⟩ := wire_of_reads hstep trivial
      refine ⟨h.published.read hstep trivial, fun hcached hwritten => ?_, trivial⟩
      exact (h.held hcached hwritten).mono (fun snapshot hmem => hwire ▸ hmem)
        (localBuffer_of_fails hstep) _ _
  | reset hidle =>
      rw [hidle] at hcall
      refine ⟨h.published, fun hcached => absurd hcached (Nat.lt_irrefl 0), ?_⟩
      rw [hidle]
      trivial

/-- What the fast path has loaded is the identity on the wire, on an even count. -/
theorem Inspection.Fits.identity {identity : LexiconSnapshotIdentity}
    (h : inspection.Fits identity s.mapping.wire)
    (hsafe : Safe s.mapping) (hcovers : inspection.Covers) (hdone : inspection.addresses = [])
    (hpaced : s.mapping.wire.increments < inspection.reading.begun + 2 ^ 32)
    (hvalid : s.mapping.SeqlockValidateRead inspection.seq1) :
    inspection.bytes.readLE 0x10 8 = (LexiconWireHeader.load s.wire).generation ∧
      inspection.bytes.readLE 0x18 4 = (LexiconWireHeader.load s.wire).crc32 := by
  have hle := h.valid.le
  have hword :
    BitVec.ofNat 32 s.mapping.wire.increments = BitVec.ofNat 32 inspection.reading.begun := by
    rw [← hsafe.sound.word, ← h.seq1]
    exact hvalid.1.symm
  have heq := eq_of_word_eq hle (by omega) hword
  have hbytes : ∀ a ∈ identityAddresses, inspection.bytes a = s.wire a := by
    intro a ha
    have hloaded := (hcovers a ha).resolve_left (hdone ▸ List.not_mem_nil)
    exact (h.valid.loaded heq _ hloaded).symm
  have hread :
    ∀ k w, 0x10 ≤ k → k + w ≤ 0x1C → inspection.bytes.readLE k w = s.wire.readLE k w := by
    intro k w hlow hhigh
    refine congrArg decodeLE (Memory.read_congr fun a hge hlt => hbytes a ?_)
    rw [identityAddresses, List.mem_range'_1]
    omega
  exact ⟨hread 0x10 8 (by decide) (by decide), hread 0x18 4 (by decide) (by decide)⟩

/-- A read that reports success has the content of the wire. -/
theorem Tracked.mirrors (h : Tracked s) (horderly : Orderly s event) (hstep : Step size s event s')
    (hcrc : ChecksumInjective s.published) : Mirrors s s' event := by
  have hcall := h.call
  cases hstep with
  | @hit inspection hinspecting hdone hhit =>
      rw [hinspecting] at hcall
      obtain ⟨hfits, hcovers⟩ := hcall
      obtain ⟨hpaced, hwritten⟩ := horderly
      obtain ⟨hvalid, hgeneration, hcrc32⟩ := hhit
      obtain ⟨snapshot, hmem, hagree, hview, hgeneration', hcrc32'⟩ := h.held hfits.cached hwritten
      obtain ⟨hwireGeneration, hwireCrc32⟩ :=
        hfits.identity h.published.safe hcovers hdone (hpaced inspection hinspecting) hvalid
      have heven : s.mapping.seqlock &&& 1 = 0 := hvalid.1 ▸ hvalid.2
      have hsome : s.published ≠ [] := List.ne_nil_of_mem hmem
      rcases h.published.safe.completed_of_even heven with ⟨hnone, -⟩ | ⟨latest, hlatest, hwire⟩
      · exact absurd hnone hsome
      · obtain ⟨hlatestGeneration, hlatestCrc32⟩ := identity_of_agreeOn hwire
        have hsameGeneration : (LexiconWireHeader.load snapshot).generation =
            (LexiconWireHeader.load latest).generation :=
          calc (LexiconWireHeader.load snapshot).generation
              = inspection.bytes.readLE 0x10 8 := by rw [hgeneration, hgeneration']
            _ = (LexiconWireHeader.load s.wire).generation := hwireGeneration
            _ = (LexiconWireHeader.load latest).generation := hlatestGeneration
        have hsameCrc32 :
          (LexiconWireHeader.load snapshot).crc32 = (LexiconWireHeader.load latest).crc32 :=
          calc (LexiconWireHeader.load snapshot).crc32
              = inspection.bytes.readLE 0x18 4 := by rw [hcrc32, hcrc32']
            _ = (LexiconWireHeader.load s.wire).crc32 := hwireCrc32
            _ = (LexiconWireHeader.load latest).crc32 := hlatestCrc32
        exact ⟨⟨snapshot, hmem, hagree⟩, hview, extract_eq hcrc (h.published.blocks _ hmem)
          (h.published.blocks _ hlatest) hmem hlatest hsameGeneration hsameCrc32
          (h.published.flags _ hmem _ hlatest) hagree hwire⟩
  | @accept epoch mapping view hcopying hstep hview =>
      obtain ⟨snapshot, hmem, hagree, hwire⟩ := h.published.accepted horderly.1 hstep
      obtain ⟨params, outBuffer, hparams, rfl⟩ := h.published.blocks _ hmem
      obtain ⟨-, -, rfl⟩ := validateAndInspect_eq_ok.mp hview
      refine ⟨⟨_, hmem, hagree⟩, rfl, ?_⟩
      exact (extract_of_agreeOn hparams hagree).trans (extract_of_agreeOn hparams hwire).symm
  | _ => trivial

/-- In every run whose steps meet the conditions, a read that reports success has the content of the
wire. -/
theorem wireMirrored_of_run {localBuffer : Memory} {events : List Event}
    (h : Run (Meeting Orderly (Step size)) (State.initial localBuffer) events s)
    (horderly : Orderly s event)
    (hstep : Step size s event s') (hcrc : ChecksumInjective s.published) : Mirrors s s' event := by
  have htracked : Tracked s := by
    apply h.invariant (Tracked.initial localBuffer)
    exact fun _ _ _ hbefore hstep => hbefore.step hstep.1 hstep.2
  exact htracked.mirrors horderly hstep hcrc

/-! ## Runs that nobody disturbs -/

theorem run_publishing {events : List (WireMapping.Event Unit)}
    (h : Run WireMapping.Step s.mapping events mapping)
    (hevents : ∀ event ∈ events, event = .store ∨ event = .endPublish) :
    Run (Meeting Orderly (Step size)) s (events.map .mapping) { s with mapping := mapping } := by
  induction h with
  | nil => exact .nil
  | @snoc events mapping mapping' event hrun hstep ih =>
      rw [List.forall_mem_append, List.forall_mem_singleton] at hevents
      rw [List.map_append]
      refine .snoc (ih hevents.1) ?_
      rcases hevents.2 with rfl | rfl
      · exact ⟨⟨trivial, trivial⟩, .publish trivial hstep⟩
      · exact ⟨⟨trivial, trivial⟩, .publish trivial hstep⟩

/-- The reader copies. -/
theorem run_copying {events : List (WireMapping.Event Unit)}
    (h : Run WireMapping.Step s.mapping events mapping) (hevents : ∀ event ∈ events, event.Copies) :
    ∃ written, Run (Meeting Orderly (Step size)) s (events.map .mapping)
      { s with mapping := mapping, written := written } := by
  induction h with
  | nil => exact ⟨s.written, .nil⟩
  | @snoc events mapping mapping' event hrun hstep ih =>
      rw [List.forall_mem_append, List.forall_mem_singleton] at hevents
      obtain ⟨written, hbefore⟩ := ih hevents.1
      rw [List.map_append]
      refine ⟨writtenBy written event, .snoc hbefore ⟨?_, .copy hevents.2 hstep⟩⟩
      cases event with
      | beginCopy | load | retry => exact ⟨trivial, trivial⟩
      | _ => exact hevents.2.elim

/-- A full read that nobody disturbs. -/
theorem run_readSnapshot {params : LexiconWireSerializeParams} {outBuffer : Memory} (epoch : UInt32)
    (h : Serializable params) (hrows : ∀ row ∈ params.spellExclusions, newline ∉ row)
    (hcall : s.call = .idle) (hopen : s.isOpen = true) (hreader : s.mapping.reader () = .idle)
    (heven : s.mapping.seqlock &&& 1 = 0)
    (hagree : AgreeOn Claimed s.wire (block params outBuffer)) :
    ∃ events t t', Run (Meeting Orderly (Step size)) s (.readSnapshot epoch :: events) t ∧
      Step size t .updated t' ∧ Orderly t .updated ∧ t.published = s.published ∧
      t'.call = .idle ∧ t'.isOpen = true ∧ t'.written = false ∧ t'.mapping.wire = s.mapping.wire ∧
      t'.cachedIdentity.wireGeneration = (LexiconWireHeader.load s.wire).generation ∧
      t'.cachedIdentity.wireCrc32 = (LexiconWireHeader.load s.wire).crc32 := by
  have hmagic : magicOf s.mapping.wire.memory = wireMagic :=
    (magicOf_congr hagree).trans (congrArg LexiconWireHeader.magic (load_block h outBuffer))
  obtain ⟨events, mapping, mapping', hrun, hevents, hwire, hreturns, hpaced, hcopied, hwire', -⟩ :=
    WireMapping.run_read hreader heven hmagic (Nat.succ_pos 4)
  obtain ⟨first, hread, hrest⟩ := hrun.of_cons
  have hbegin : Meeting Orderly (Step size) s (.readSnapshot epoch)
      { s with mapping := first, call := .copying epoch } :=
    ⟨⟨trivial, trivial⟩, .readSnapshot hcall hopen hread.2⟩
  obtain ⟨written, hcopying⟩ :=
    @run_copying size { s with mapping := first, call := .copying epoch } _ _
    (hrest.mono fun _ _ _ hmeet => hmeet.2) hevents
  have hblock : AgreeOn Claimed (mapping'.localBuffer ()) (block params outBuffer) :=
    fun a ha => (hcopied a ha).trans (hagree a ha)
  have hvalid := validateAndInspect_eq_ok.mpr
    ⟨Nat.le_refl wireTotalSize, validBlock_of_agreeOn h hblock hrows size, rfl⟩
  obtain ⟨hgeneration, hcrc32⟩ := identity_of_agreeOn hcopied
  exact ⟨events.map .mapping, _, _, .cons hbegin hcopying, .accept rfl hreturns hvalid,
    ⟨hpaced.1, trivial⟩,
    congrArg Lock.completed hwire, rfl, hopen, rfl, hwire', hgeneration, hcrc32⟩

/-- The fast path loads some bytes. -/
theorem run_inspection {wrap : Inspection → Call}
    (hload : ∀ (s : State) inspection a addresses, s.call = wrap inspection →
      inspection.addresses = a :: addresses →
      Step size s .load { s with call := wrap (inspection.load s.wire a addresses) })
    {addresses : List Nat} (hcall : s.call = wrap inspection)
      (haddresses : inspection.addresses = addresses) :
    ∃ events inspection', Run (Meeting Orderly (Step size))
      s events { s with call := wrap inspection' } ∧
      inspection'.addresses = [] ∧ inspection'.seq1 = inspection.seq1 ∧
      inspection'.reading.begun = inspection.reading.begun ∧
      ∀ a, a ∈ addresses ∨ inspection.bytes a = s.wire a → inspection'.bytes a = s.wire a := by
  induction addresses generalizing s inspection with
  | nil =>
      refine ⟨[], inspection, ?_, haddresses, rfl, rfl, fun a ha =>
        ha.resolve_left List.not_mem_nil⟩
      rw [← hcall]
      exact .nil
  | cons a addresses ih =>
      have hstep : Meeting Orderly (Step size) s .load _ :=
        ⟨⟨trivial, trivial⟩, hload s inspection a addresses hcall haddresses⟩
      obtain ⟨events, inspection', hrun, hdone, hseq1, hbegun, hbytes⟩ :=
        @ih { s with call := wrap (inspection.load s.wire a addresses) }
          (inspection.load s.wire a addresses)
          rfl rfl
      refine ⟨.load :: events, inspection', .cons hstep hrun, hdone, hseq1, hbegun,
        fun b hb => hbytes b ?_⟩
      by_cases hab : b = a
      · subst hab
        right
        simp only [Inspection.load, Function.update_self]
        rfl
      · simp only [Inspection.load, Function.update_of_ne hab]
        exact hb.imp_left fun hmem => (List.mem_cons.mp hmem).resolve_left hab

/-- A hit of the fast path that nobody disturbs. -/
theorem run_readFast (epoch : UInt32) (hcall : s.call = .idle) (hopen : s.isOpen = true)
    (hwritten : s.written = false) (heven : s.mapping.seqlock &&& 1 = 0)
    (hmagic : magicOf s.wire = wireMagic) (hcached : 0 < s.cachedIdentity.wireGeneration)
    (hgeneration : s.cachedIdentity.wireGeneration = (LexiconWireHeader.load s.wire).generation)
    (hcrc32 : s.cachedIdentity.wireCrc32 = (LexiconWireHeader.load s.wire).crc32) :
    ∃ events t t', Run (Meeting Orderly (Step size)) s (.readSnapshotFast epoch :: events) t ∧
      Orderly t .unchanged ∧ Step size t .unchanged t' ∧ t.published = s.published := by
  have hbegin : Meeting Orderly (Step size) s (.readSnapshotFast epoch) { s with
      call := .checking
        ⟨epoch, s.mapping.seqlock, ⟨s.mapping.wire.increments, []⟩, s.wire, magicAddresses⟩ } :=
    ⟨⟨trivial, trivial⟩, .readFast hcall hopen hcached heven (List.Perm.refl _)⟩
  obtain ⟨events, inspection, hrun, hdone, hseq1, hbegun, hbytes⟩ :=
    @run_inspection size { s with call := .checking ⟨epoch, s.mapping.seqlock,
      ⟨s.mapping.wire.increments, []⟩, s.wire, magicAddresses⟩ } _ Call.checking
      (fun _ _ _ _ hchecking haddresses => .loadMagic hchecking haddresses) _ rfl rfl
  have hbytes : inspection.bytes = s.wire := funext fun a => hbytes a (Or.inr rfl)
  have hinspect : Meeting Orderly (Step size) { s with call := .checking inspection } .inspect
      { s with call := .inspecting { inspection with addresses := identityAddresses } } :=
    ⟨⟨trivial, trivial⟩, .inspect rfl hdone (hbytes ▸ hmagic) (List.Perm.refl _)⟩
  obtain ⟨events', inspection', hrun', hdone', hseq1', hbegun', hbytes'⟩ :=
    @run_inspection size
      { s with call := .inspecting { inspection with addresses := identityAddresses } } _
      Call.inspecting
      (fun _ _ _ _ hinspecting haddresses => .loadIdentity hinspecting haddresses) _ rfl rfl
  have hbytes' : inspection'.bytes = s.wire :=
    funext fun a => hbytes' a (Or.inr (congrFun hbytes a))
  have hseq : inspection'.seq1 = s.mapping.seqlock := hseq1'.trans hseq1
  have hhit : inspection'.Hits { s with call := .inspecting inspection' } := by
    refine ⟨⟨hseq, hseq ▸ heven⟩, ?_, ?_⟩
    · rw [hbytes']
      exact hgeneration.symm
    · rw [hbytes']
      exact hcrc32.symm
  refine ⟨_, _, _, .cons hbegin (hrun.append (.cons hinspect hrun')),
    ⟨?_, hwritten⟩, .hit rfl hdone' hhit, rfl⟩
  intro inspection'' hinspecting
  obtain rfl := Call.inspecting.inj hinspecting
  rw [hbegun', hbegun]
  exact Nat.lt_add_of_pos_right (by decide)

end Steps

/-- A snapshot of rows and words, and the fast path right after it. -/
theorem wireMirrored_of_run_unchanged : ∃ events, ∃ s s' : State,
    Run (Meeting Orderly (Step .bits64)) (State.initial fun _ => 0) events s ∧
      Step .bits64 s .unchanged s' ∧ Mirrors s s' .unchanged := by
  have hparams := serializable_twoRowsAt 1
  obtain ⟨events, mapping, hrun, hevents, -, hreader, -, hseqlock, hcompleted, hagree⟩ :=
    run_publish (s := (State.initial fun _ => 0).mapping) hparams rfl rfl
  obtain ⟨first, hbegin, hrest⟩ := hrun.of_cons
  have hopen : Meeting Orderly (Step .bits64) (State.initial fun _ => 0) .open
      { State.initial fun _ => 0 with isOpen := true } := ⟨⟨trivial, trivial⟩, .open rfl⟩
  have hpublish : Meeting Orderly (Step .bits64) { State.initial fun _ => 0 with isOpen := true }
      (.mapping (.beginPublish (twoRowsAt 1))) { State.initial fun _ => 0 with
        mapping := first, isOpen := true } :=
    ⟨⟨trivial, fun _ _ _ _ hmem => absurd hmem List.not_mem_nil⟩, .publish trivial hbegin.2⟩
  have hcopies :=
    @run_publishing .bits64 { State.initial fun _ => 0 with mapping := first, isOpen := true }
    mapping _ (hrest.mono fun _ _ _ hmeet => hmeet.2) hevents
  have heven : mapping.seqlock &&& 1 = 0 := by
    rw [hseqlock]
    rfl
  obtain ⟨reads, t, t', hreads, hupdated, horderly, hpublished, hcall, hisOpen, hwritten, hwire,
      hgeneration, hcrc32⟩ :=
    @run_readSnapshot .bits64 { State.initial fun _ => 0 with mapping := mapping, isOpen := true }
      (twoRowsAt 1) (fun _ => 0) 7 hparams (by decide) rfl rfl (congrFun hreader ()) heven hagree
  have hwire' : t'.wire = mapping.wire.memory := congrArg Lock.memory hwire
  have hmagic : magicOf t'.wire = wireMagic := by
    rw [hwire', magicOf_congr hagree]
    exact congrArg LexiconWireHeader.magic (load_block hparams _)
  have hgeneration' : (LexiconWireHeader.load mapping.wire.memory).generation = 1 :=
    (identity_of_agreeOn hagree).1.trans
      (congrArg LexiconWireHeader.generation (load_block hparams _))
  have heven' : t'.mapping.seqlock &&& 1 = 0 := by
    rw [WireMapping.State.seqlock, hwire]
    exact heven
  obtain ⟨fast, u, u', hfast, horderly', hunchanged, hsame⟩ :=
    @run_readFast .bits64 t' 8 hcall hisOpen hwritten
    heven' hmagic (by rw [hgeneration]; exact hgeneration'.symm ▸ Nat.one_pos)
    (by rw [hgeneration, hwire']; rfl) (by rw [hcrc32, hwire']; rfl)
  have hone : u.published = [block (twoRowsAt 1) fun _ => 0] := by
    rw [hsame, State.published, hwire]
    exact hcompleted
  have hcrc : ChecksumInjective u.published := by
    rw [hone]
    intro snapshot hmem snapshot' hmem' _
    rw [List.mem_singleton.mp hmem, List.mem_singleton.mp hmem']
  have hwhole := ((((Run.nil.snoc hopen).snoc hpublish).append hcopies).append
    (hreads.snoc ⟨horderly, hupdated⟩)).append hfast
  exact ⟨_, u, u', hwhole, hunchanged, wireMirrored_of_run hwhole horderly' hunchanged hcrc⟩

end WireReader

end VKey
