import VKey.Ipc.LexiconWireSound
import VKey.Ipc.WireMapping
import VKey.Support.Run

/-!
# Reads of the lexicon wire while publishes begin on an even count

A manager that dies between the two increments leaves the count odd, and the manager after it makes
it even for its copies.  As long as every publish begins on an even count, a read that reports
success has the bytes of one completed publish; and while nobody publishes, a read succeeds exactly
on an even count.
-/

namespace VKey

namespace WireMapping

open Seqlock Wire

/-! ## Where a process stands towards the lock -/

def Publisher.phase : Publisher → Phase Nat UInt8
  | .publishing stagedBuffer stores => .holding stores stagedBuffer
  | _ => .outside

def Reader.phase : Reader → Phase Nat UInt8
  | .copying _ _ _ reading _ => .reading reading
  | _ => .outside

/-- The manager is between its two increments. -/
def Publisher.Publishes : Publisher → Prop
  | .publishing _ _ => True
  | _ => False

variable {ι : Type}

/-- The manager comes first, and the readers after it. -/
def State.phase (s : State ι) : Option ι → Phase Nat UInt8
  | none => s.publisher.phase
  | some i => (s.reader i).phase

/-- The count moves by less than `2 ^ 32` during a read, as it does with fewer than `2 ^ 31`
publishes. -/
def Paced (s : State ι) : Event ι → Prop
  | .returns i _ => ∀ reading, (s.reader i).phase = .reading reading →
      s.wire.increments < reading.begun + 2 ^ 32
  | _ => True

/-- Every publish begins on an even count. -/
def Orderly (s : State ι) (event : Event ι) : Prop :=
  Paced s event ∧ ∀ params, event = .beginPublish params → s.seqlock &&& 1 = 0

/-! ## The bytes of a publish -/

theorem magicOf_eq {buffer buffer' : Memory} (h : ∀ a < seqlockOffset, buffer a = buffer' a) :
    magicOf buffer = magicOf buffer' :=
  congrArg decodeLE (Memory.read_congr fun a _ ha => h a (by simp only [seqlockOffset]; omega))

theorem magicOf_congr {buffer buffer' : Memory} (h : AgreeOn Claimed buffer buffer') :
    magicOf buffer = magicOf buffer' := by
  refine magicOf_eq fun a ha => h a ?_
  simp only [Claimed, wireTotalSize, seqlockOffset] at *
  omega

theorem write_seqlock_of_claimed {buffer : Memory} {n a : Nat} (h : Claimed a) :
    buffer.write seqlockOffset (encodeLE 4 n) a = buffer a := by
  by_cases ha : a < seqlockOffset
  · exact Memory.write_of_lt ha
  · refine Memory.write_of_ge ?_
    have hbehind := h.2
    rw [length_encodeLE]
    simp only [seqlockOffset, generationOffset] at *
    omega

theorem applyStores_copyByte_of_mem {stagedBuffer : Memory} {order : List Nat} {a : Nat}
    (h : a ∈ order)
    (memory : Memory) :
    applyStores (order.map (copyByte stagedBuffer)) memory a = stagedBuffer a := by
  apply applyStores_of_mem
  · rintro store hstore rfl memory
    obtain ⟨b, -, rfl⟩ := List.mem_map.mp hstore
    rfl
  · exact Or.inr ⟨copyByte stagedBuffer a, List.mem_map_of_mem h, rfl⟩

theorem srcBytes_of_claimed {s : State ι} {a : Nat} (h : Claimed a) :
    s.srcBytes a = s.wire.memory a :=
  write_seqlock_of_claimed h

theorem IsPublish.agreeOn {stagedBuffer : Memory} {stores : List (Store Nat UInt8)}
    (h : IsPublish stagedBuffer stores) (memory : Memory) :
    AgreeOn Claimed (applyStores stores memory) stagedBuffer := by
  obtain ⟨before, behind, ⟨order, horder, rfl⟩, ⟨order', horder', rfl⟩, rfl⟩ := h
  intro a ha
  rw [← List.map_append]
  apply applyStores_copyByte_of_mem
  rw [List.mem_append, horder.mem_iff, horder'.mem_iff, List.mem_range, List.mem_range'_1]
  simp only [Claimed, wireTotalSize, seqlockOffset, generationOffset] at *
  omega

theorem magicOf_of_serialize {params : LexiconWireSerializeParams} {outBuffer stagedBuffer : Memory}
    (h : serialize params outBuffer wireTotalSize = .ok stagedBuffer) :
    magicOf stagedBuffer = wireMagic := by
  obtain ⟨-, hparams, rfl⟩ := serialize_eq_ok.mp h
  exact congrArg LexiconWireHeader.magic (load_block hparams outBuffer)

/-! ## The invariant -/

/-- What a reader knows of the count, and of the bytes it has copied. -/
def Reader.Fits (buffer : Memory) : Reader → Prop
  | .copying _ _ startSeq reading addresses =>
      startSeq = BitVec.ofNat 32 reading.begun ∧ reading.begun % 2 = 0 ∧
        ∀ a, Claimed a → a ∈ addresses ∨ (a, buffer a) ∈ reading.loaded
  | _ => True

/-- The lock is sound, and every publish has the magic. -/
structure Safe (s : State ι) : Prop where
  sound : Sound Claimed (fun memory => magicOf memory ≠ wireMagic) s.wire s.phase
  publishing : ∀ stagedBuffer stores, s.publisher = .publishing stagedBuffer stores →
    magicOf stagedBuffer = wireMagic
  completed : ∀ stagedBuffer ∈ s.wire.completed, magicOf stagedBuffer = wireMagic
  reader : ∀ i, (s.reader i).Fits (s.localBuffer i)

section Steps

variable [DecidableEq ι] {s s' : State ι} {i : ι} {event : Event ι}

omit [DecidableEq ι] in
theorem Safe.initial (localBuffer : ι → Memory) : Safe (State.initial localBuffer) where
  sound := by
    have hfresh : magicOf (fun _ => 0) ≠ wireMagic := by decide
    refine ⟨rfl, ?_, ?_, fun _ => Or.inl ⟨rfl, hfresh⟩, ?_⟩
    · rintro (_ | i) j hi
      · exact hi.elim
      · exact hi.elim
    · rintro (_ | i) stores fields hi
      · cases hi
      · cases hi
    · rintro (_ | i) reading hi
      · cases hi
      · cases hi
  publishing _ _ h := by cases h
  completed _ h := absurd h List.not_mem_nil
  reader _ := trivial

theorem phase_setPublisher (s : State ι) (wire : Lock Nat UInt8) (publisher : Publisher) :
    State.phase { s with wire := wire, publisher := publisher } =
      Function.update s.phase none publisher.phase := by
  funext j
  cases j with
  | none => exact (Function.update_self none publisher.phase s.phase).symm
  | some j => exact (Function.update_of_ne (Option.some_ne_none j) publisher.phase s.phase).symm

theorem phase_moveTo (s : State ι) (i : ι) (buffer : Memory) (reader : Reader) :
    ((s.setBuffer i buffer).moveTo i reader).phase =
      Function.update s.phase (some i) reader.phase := by
  funext j
  cases j with
  | none => exact (Function.update_of_ne (Option.some_ne_none i).symm reader.phase s.phase).symm
  | some j =>
      by_cases hj : j = i
      · subst hj
        rw [Function.update_self]
        exact congrArg Reader.phase (Function.update_self ..)
      · rw [Function.update_of_ne (fun heq => hj (Option.some.inj heq))]
        exact congrArg Reader.phase (Function.update_of_ne hj ..)

theorem moveTo_eq_setBuffer (s : State ι) (i : ι) (reader : Reader) :
    s.moveTo i reader = (s.setBuffer i (s.localBuffer i)).moveTo i reader := by
  rw [State.setBuffer, Function.update_eq_self]

theorem Safe.publisherTo {wire : Lock Nat UInt8} {publisher : Publisher} (h : Safe s)
    (hsound : Sound Claimed (fun memory => magicOf memory ≠ wireMagic) wire
      (Function.update s.phase none publisher.phase))
    (hpublishing : ∀ stagedBuffer stores, publisher = .publishing stagedBuffer stores →
      magicOf stagedBuffer = wireMagic)
    (hcompleted : ∀ stagedBuffer ∈ wire.completed, magicOf stagedBuffer = wireMagic) :
    Safe { s with wire := wire, publisher := publisher } where
  sound := by
    rw [phase_setPublisher]
    exact hsound
  publishing := hpublishing
  completed := hcompleted
  reader := h.reader

/-- A reader moves. -/
theorem Safe.readerTo {buffer : Memory} {reader : Reader} (h : Safe s)
    (hsound : Sound Claimed (fun memory => magicOf memory ≠ wireMagic) s.wire
      (Function.update s.phase (some i) reader.phase))
    (hfits : reader.Fits buffer) : Safe ((s.setBuffer i buffer).moveTo i reader) where
  sound := by
    rw [phase_moveTo]
    exact hsound
  publishing := h.publishing
  completed := h.completed
  reader j := by
    by_cases hj : j = i
    · subst hj
      simp only [State.moveTo, State.setBuffer, Function.update_self]
      exact hfits
    · simp only [State.moveTo, State.setBuffer, Function.update_of_ne hj]
      exact h.reader j

theorem Safe.readerOutside {reader : Reader} (h : Safe s) (hphase : reader.phase = .outside) :
    Safe (s.moveTo i reader) := by
  rw [moveTo_eq_setBuffer]
  refine h.readerTo ?_ ?_
  · rw [hphase]
    exact h.sound.outside (some i)
  · cases reader with
    | copying => cases hphase
    | idle | attempting => trivial

omit [DecidableEq ι] in
theorem not_writes_reader (s : State ι) : ∀ j, j ≠ none → ¬(s.phase j).Writes := by
  rintro (_ | j) hj hwrites
  · exact hj rfl
  · rw [State.phase] at hwrites
    cases hreader : s.reader j with
    | idle | attempting | copying =>
        rw [hreader] at hwrites
        exact hwrites

omit [DecidableEq ι] in
theorem Safe.even_iff (h : Safe s) : s.seqlock &&& 1 = 0 ↔ s.wire.increments % 2 = 0 := by
  rw [State.seqlock, h.sound.word]
  exact word_and_one_eq_zero_iff s.wire.increments

omit [DecidableEq ι] in
theorem Safe.setWord (h : Safe s) :
    s.wire.setWord (s.seqlock + 1) =
      { s.wire with
        word := BitVec.ofNat 32 (s.wire.increments + 1)
        increments := s.wire.increments + 1 } :=
  Lock.setWord_succ h.sound.word

/-- Every step keeps the invariant. -/
theorem Safe.step (h : Safe s)
    (hbegin : ∀ params, event = .beginPublish params → s.seqlock &&& 1 = 0)
    (hstep : Step s event s') : Safe s' := by
  cases hstep with
  | create habsent => exact h.publisherTo (h.sound.outside none) nofun h.completed
  | @beginPublish params _ stagedBuffer stores hattached hserialize hstores =>
      have heven := h.even_iff.mp (hbegin params rfl)
      have hodd : (s.wire.increments + 1) % 2 = 1 := by omega
      refine h.publisherTo ?_ ?_ h.completed
      · rw [h.setWord]
        exact h.sound.begin (not_writes_reader s) hodd (Or.inr rfl) (hstores.agreeOn s.wire.memory)
      · rintro _ _ hpublisher
        obtain ⟨rfl, -⟩ := Publisher.publishing.inj hpublisher
        exact magicOf_of_serialize hserialize
  | @store stagedBuffer store stores hpublisher =>
      have hphase : s.phase none = .holding (store :: stores) stagedBuffer := by
        rw [State.phase, hpublisher, Publisher.phase]
      refine h.publisherTo (h.sound.store hphase) ?_ h.completed
      rintro _ _ hpublisher'
      obtain ⟨rfl, -⟩ := Publisher.publishing.inj hpublisher'
      exact h.publishing _ _ hpublisher
  | @endPublish stagedBuffer hpublisher =>
      have hphase : s.phase none = .holding [] stagedBuffer := by
        rw [State.phase, hpublisher, Publisher.phase]
      refine h.publisherTo ?_ nofun ?_
      · rw [h.setWord]
        exact h.sound.finish hphase
      · exact List.forall_mem_cons.mpr ⟨h.publishing _ _ hpublisher, h.completed⟩
  | die => exact h.publisherTo (h.sound.outside none) nofun h.completed
  | read | odd | noMagic | changed | fail => exact h.readerOutside rfl
  | @beginCopy i _ _ addresses hi hattempt heven haddresses =>
      rw [moveTo_eq_setBuffer]
      have hcopied : ∀ a, Claimed a → a ∈ addresses := fun a ha =>
        haddresses.mem_iff.mpr (List.mem_range.mpr ha.1)
      exact h.readerTo (h.sound.startRead (some i))
        ⟨h.sound.word, h.even_iff.mp heven, fun a ha => Or.inl (hcopied a ha)⟩
  | @load i _ _ startSeq reading a addresses hi =>
      have hphase : s.phase (some i) = .reading reading := by rw [State.phase, hi, Reader.phase]
      have hfit := h.reader i
      rw [hi] at hfit
      refine h.readerTo (h.sound.load hphase a) ⟨hfit.1, hfit.2.1, fun b hb => ?_⟩
      by_cases hab : b = a
      · subst hab
        right
        rw [Function.update_self, srcBytes_of_claimed hb]
        exact List.mem_cons_self
      · rw [Function.update_of_ne hab]
        rcases hfit.2.2 b hb with hmem | hmem
        · exact Or.inl ((List.mem_cons.mp hmem).resolve_left hab)
        · exact Or.inr (List.mem_cons_of_mem _ hmem)
  | accept hi hsame hmagic =>
      refine h.readerTo (h.sound.outside (some _)) trivial

/-- A reading stays valid. -/
theorem Safe.valid_step {reading : Reading Nat UInt8} (h : Safe s) (hstep : Step s event s')
    (hvalid : reading.Valid s.wire.increments s.wire.memory) :
    reading.Valid s'.wire.increments s'.wire.memory := by
  cases hstep with
  | beginPublish =>
      dsimp only
      rw [h.setWord]
      exact hvalid.increment _
  | @store stagedBuffer store stores hpublisher =>
      have hphase : s.phase none = .holding (store :: stores) stagedBuffer := by
        rw [State.phase, hpublisher, Publisher.phase]
      exact hvalid.store (h.sound.holding none _ _ hphase).1 _
  | endPublish =>
      dsimp only
      rw [h.setWord]
      exact hvalid.increment _
  | _ => exact hvalid

end Steps

/-! ## Reads that report success -/

/-- A read that reports success has the bytes of one completed publish. -/
def ReadsOne (s s' : State ι) : Event ι → Prop
  | .returns i true =>
      ∃ stagedBuffer ∈ s.wire.completed, AgreeOn Claimed (s'.localBuffer i) stagedBuffer
  | _ => True

section Reads

variable [DecidableEq ι] {s s' : State ι} {i : ι} {event : Event ι}

omit [DecidableEq ι] in
theorem Safe.completed_of_even (h : Safe s) (heven : s.seqlock &&& 1 = 0) :
    (s.wire.completed = [] ∧ magicOf s.wire.memory ≠ wireMagic) ∨
      ∃ stagedBuffer ∈ s.wire.completed, AgreeOn Claimed s.wire.memory stagedBuffer :=
  h.sound.stable (h.even_iff.mp heven)

/-- What a read accepts are the bytes of the mapping, on an even count. -/
theorem Safe.accepted (h : Safe s) (hpaced : Paced s (.returns i true))
    (hstep : Step s (.returns i true) s') :
    s.seqlock &&& 1 = 0 ∧ AgreeOn Claimed (s'.localBuffer i) s.wire.memory ∧
      magicOf s.wire.memory = wireMagic := by
  cases hstep with
  | @accept _ attempt maxRetries startSeq reading hi hvalid hmagic =>
      have hphase : s.phase (some i) = .reading reading := by rw [State.phase, hi, Reader.phase]
      obtain ⟨hbegun, heven, hloaded⟩ :
          Reader.Fits (s.localBuffer i) (.copying attempt maxRetries startSeq reading []) :=
        hi ▸ h.reader i
      obtain ⟨-, hmemory⟩ := h.sound.eq_of_read hphase heven (hvalid.1.symm.trans hbegun)
        (hpaced reading hphase)
      have hcopied : AgreeOn Claimed (s.localBuffer i) s.wire.memory := fun a ha =>
        (hmemory _ ((hloaded a ha).resolve_left List.not_mem_nil)).symm
      refine ⟨hvalid.1 ▸ hvalid.2, fun a ha => ?_, (magicOf_congr hcopied).symm.trans hmagic⟩
      simp only [State.moveTo, State.setBuffer, Function.update_self]
      exact (write_seqlock_of_claimed ha).trans (hcopied a ha)

theorem Safe.readsOne (h : Safe s) (hpaced : Paced s event) (hstep : Step s event s') :
    ReadsOne s s' event := by
  cases event with
  | returns i ok =>
      cases ok with
      | false => trivial
      | true =>
          obtain ⟨heven, hcopied, hmagic⟩ := h.accepted hpaced hstep
          rcases h.completed_of_even heven with ⟨-, hnone⟩ | ⟨stagedBuffer, hmem, hagree⟩
          · exact absurd hmagic hnone
          · exact ⟨stagedBuffer, hmem, fun a ha => (hcopied a ha).trans (hagree a ha)⟩
  | _ => trivial

omit [DecidableEq ι] in
theorem Safe.magicOf_wire (h : Safe s) (heven : s.seqlock &&& 1 = 0)
    (hcompleted : s.wire.completed ≠ []) : magicOf s.wire.memory = wireMagic := by
  rcases h.completed_of_even heven with ⟨hnone, -⟩ | ⟨stagedBuffer, hmem, hagree⟩
  · exact absurd hnone hcompleted
  · rw [magicOf_congr hagree]
    exact h.completed _ hmem

theorem Safe.of_run {localBuffer : ι → Memory} {events : List (Event ι)}
    (h : Run (Meeting Orderly Step) (State.initial localBuffer) events s) : Safe s := by
  apply h.invariant (Safe.initial localBuffer)
  exact fun _ _ _ hbefore hstep => hbefore.step hstep.1.2 hstep.2

end Reads

/-! ## Reads while nobody publishes -/

/-- No publish begins, and the reader does not begin another read. -/
def Event.Undisturbed (i : ι) : Event ι → Prop
  | .beginPublish _ => False
  | .read j _ => j ≠ i
  | _ => True

theorem Event.Copies.undisturbed {event : Event ι} (h : event.Copies) (i : ι) :
    event.Undisturbed i := by
  cases event with
  | beginCopy | load | retry => trivial
  | _ => exact h.elim

section Undisturbed

variable [DecidableEq ι] {s s' t : State ι} {i : ι} {event : Event ι} {events : List (Event ι)}
  {maxRetries : Nat}

/-- A read that begins now returns, if no publish begins before it does, and it reports success. -/
def Answers (s : State ι) (i : ι) (maxRetries : Nat) : Prop :=
  (∃ events t t', Run Step s (.read i maxRetries :: events) t ∧
      (∀ event ∈ events, event.Undisturbed i) ∧
      Step t (.returns i true) t') ∧
    ∀ events t t' ok, Run Step s (.read i maxRetries :: events) t →
      (∀ event ∈ events, event.Undisturbed i) →
      Step t (.returns i ok) t' → ok = true

/-- What the reader knows of a mapping that stays as it is. -/
def Reader.Copies (wire : Lock Nat UInt8) (maxRetries : Nat) (buffer : Memory) : Reader → Prop
  | .idle => True
  | .attempting attempt maxRetries' => wire.word &&& 1 = 0 → attempt = 0 ∧ maxRetries' = maxRetries
  | .copying _ _ startSeq _ addresses =>
      wire.word &&& 1 = 0 ∧ startSeq = wire.word ∧
        ∀ a, Claimed a → a ∈ addresses ∨ buffer a = wire.memory a

/-- The mapping stays as it is while a reader reads it. -/
structure Still (wire : Lock Nat UInt8) (i : ι) (maxRetries : Nat) (s : State ι) : Prop where
  same : s.wire = wire
  quiet : ¬s.publisher.Publishes
  copies : (s.reader i).Copies wire maxRetries (s.localBuffer i)

variable {wire : Lock Nat UInt8}

theorem Still.readerTo {j : ι} {buffer : Memory} {reader : Reader} (h : Still wire i maxRetries s)
    (hself : j = i → reader.Copies wire maxRetries buffer) :
    Still wire i maxRetries ((s.setBuffer j buffer).moveTo j reader) where
  same := h.same
  quiet := h.quiet
  copies := by
    by_cases hj : i = j
    · subst hj
      simp only [State.moveTo, State.setBuffer, Function.update_self]
      exact hself rfl
    · simp only [State.moveTo, State.setBuffer, Function.update_of_ne hj]
      exact h.copies

theorem Still.moveTo {j : ι} {reader : Reader} (h : Still wire i maxRetries s)
    (hself : j = i → reader.Copies wire maxRetries (s.localBuffer i)) :
    Still wire i maxRetries (s.moveTo j reader) := by
  rw [moveTo_eq_setBuffer]
  refine h.readerTo fun hj => ?_
  subst hj
  exact hself rfl

/-- The mapping stays as it is when no publish begins. -/
theorem Still.step (h : Still wire i maxRetries s) (hevent : event.Undisturbed i)
    (hstep : Step s event s') :
    Still wire i maxRetries s' := by
  have hcopies := h.copies
  cases hstep with
  | beginPublish => exact hevent.elim
  | store hpublisher | endPublish hpublisher => exact absurd (hpublisher ▸ trivial) h.quiet
  | create | die => exact ⟨h.same, id, h.copies⟩
  | read => exact h.moveTo fun hj => absurd hj hevent
  | odd hi hattempt hodd =>
      refine h.moveTo fun _ heven => absurd ?_ hodd
      rw [State.seqlock, h.same]
      exact heven
  | beginCopy hi hattempt heven haddresses =>
      rw [State.seqlock, h.same] at heven
      refine h.moveTo fun _ => ⟨heven, congrArg Lock.word h.same, fun a ha => Or.inl ?_⟩
      rw [haddresses.mem_iff, List.mem_range]
      exact ha.1
  | @load _ _ _ _ _ a _ hi =>
      refine h.readerTo fun hj => ?_
      subst hj
      rw [hi] at hcopies
      refine ⟨hcopies.1, hcopies.2.1, fun b hb => ?_⟩
      by_cases hab : b = a
      · subst hab
        rw [Function.update_self, srcBytes_of_claimed hb, h.same]
        exact Or.inr rfl
      · rw [Function.update_of_ne hab]
        exact (hcopies.2.2 b hb).imp_left fun hmem => (List.mem_cons.mp hmem).resolve_left hab
  | accept => exact h.readerTo fun _ => trivial
  | noMagic | fail => exact h.moveTo fun _ => trivial
  | changed hi hchanged =>
      refine h.moveTo fun hj => ?_
      subst hj
      rw [hi] at hcopies
      obtain ⟨heven, rfl, -⟩ := hcopies
      refine absurd ⟨?_, heven⟩ hchanged
      rw [State.seqlock, h.same]

/-- The mapping stays as it is during a read that no publish disturbs. -/
theorem Still.of_run (hquiet : ¬s.publisher.Publishes)
    (h : Run Step s (.read i maxRetries :: events) t)
    (hevents : ∀ event ∈ events, event.Undisturbed i) : Still s.wire i maxRetries t := by
  obtain ⟨s₁, hread, hrun⟩ := h.of_cons
  have hstart : Still s.wire i maxRetries s₁ := by
    cases hread
    refine ⟨rfl, hquiet, ?_⟩
    simp only [State.moveTo, Function.update_self]
    exact fun _ => ⟨rfl, rfl⟩
  revert hevents
  apply hrun.history
  · exact fun _ => hstart
  · intro events t event t' ih hstep hall
    rw [List.forall_mem_append, List.forall_mem_singleton] at hall
    exact (ih hall.1).step hall.2 hstep

/-- A copy that nobody disturbs has the bytes of the mapping. -/
theorem run_loads {attempt : Nat} {startSeq : BitVec 32} {reading : Reading Nat UInt8}
    {addresses : List Nat}
    (hi : s.reader i = .copying attempt maxRetries startSeq reading addresses) :
    ∃ events t reading', Run (Meeting Orderly Step) s events t ∧
      (∀ event ∈ events, event.Copies) ∧ t.wire = s.wire ∧ t.publisher = s.publisher ∧
      t.reader i = .copying attempt maxRetries startSeq reading' [] ∧
      reading'.begun = reading.begun ∧
      ∀ a, a ∈ addresses ∨ s.localBuffer i a = s.srcBytes a → t.localBuffer i a = s.srcBytes a := by
  induction addresses generalizing s reading with
  | nil =>
      refine ⟨[], s, reading, .nil, nofun, rfl, rfl, hi, rfl, fun a ha => ?_⟩
      exact ha.resolve_left List.not_mem_nil
  | cons a addresses ih =>
      have hload : Meeting Orderly Step s (.load i) _ := ⟨⟨trivial, nofun⟩, .load hi⟩
      have hnext : ((s.setBuffer i (Function.update (s.localBuffer i) a (s.srcBytes a))).moveTo i
          (.copying attempt maxRetries startSeq
            { reading with loaded := (a, s.wire.memory a) :: reading.loaded }
            addresses)).reader i = _ := Function.update_self ..
      obtain ⟨events, t, reading', hrun, hevents, hwire, hpublisher, hdoing, hbegun, hbytes⟩ :=
        ih hnext
      refine ⟨.load i :: events, t, reading', .cons hload hrun,
        List.forall_mem_cons.mpr ⟨trivial, hevents⟩,
        hwire, hpublisher, hdoing, hbegun, fun b hb => hbytes b ?_⟩
      by_cases hab : b = a
      · subst hab
        right
        simp only [State.moveTo, State.setBuffer, Function.update_self]
        rfl
      · simp only [State.moveTo, State.setBuffer, Function.update_self, Function.update_of_ne hab]
        exact hb.imp_left fun hmem => (List.mem_cons.mp hmem).resolve_left hab

/-- A read on an even count that nobody disturbs reports success, with the bytes of the mapping. -/
theorem run_read (hi : s.reader i = .idle) (heven : s.seqlock &&& 1 = 0)
    (hmagic : magicOf s.wire.memory = wireMagic) (hretries : 0 < maxRetries) :
    ∃ events t t', Run (Meeting Orderly Step) s (.read i maxRetries :: events) t ∧
      (∀ event ∈ events, event.Copies) ∧ t.wire = s.wire ∧ Step t (.returns i true) t' ∧
      Orderly t (.returns i true) ∧ AgreeOn Claimed (t'.localBuffer i) s.wire.memory ∧
      t'.wire = s.wire ∧ t'.publisher = s.publisher := by
  have hread : Meeting Orderly Step s (.read i maxRetries)
      (s.moveTo i (.attempting 0 maxRetries)) :=
    ⟨⟨trivial, nofun⟩, .read hi⟩
  have hattempting : (s.moveTo i (.attempting 0 maxRetries)).reader i = _ := Function.update_self ..
  have hbegin : Meeting Orderly Step _ (.beginCopy i) _ :=
    ⟨⟨trivial, nofun⟩, .beginCopy hattempting hretries heven (List.Perm.refl _)⟩
  have hcopying : ((s.moveTo i (.attempting 0 maxRetries)).moveTo i (.copying 0 maxRetries s.seqlock
      ⟨s.wire.increments, []⟩ (List.range wireTotalSize))).reader i = _ := Function.update_self ..
  obtain ⟨events, t, reading, hrun, hevents, hwire, hpublisher, hdoing, hbegun, hbytes⟩ :=
    run_loads hcopying
  have hcopied : AgreeOn Claimed (t.localBuffer i) s.wire.memory := by
    intro a ha
    exact (hbytes a (Or.inl (List.mem_range.mpr ha.1))).trans (srcBytes_of_claimed ha)
  have hsame : s.seqlock = t.seqlock := by
    rw [State.seqlock, State.seqlock, hwire]
    rfl
  refine ⟨.beginCopy i :: events, t, _, .cons hread (.cons hbegin hrun),
    List.forall_mem_cons.mpr ⟨trivial, hevents⟩, hwire,
    .accept hdoing ⟨hsame, heven⟩ ((magicOf_congr hcopied).trans hmagic), ⟨?_, nofun⟩,
    fun a ha => ?_, hwire, hpublisher⟩
  · intro reading' hreading
    rw [hdoing] at hreading
    obtain rfl := Phase.reading.inj hreading
    rw [hwire, hbegun]
    exact Nat.lt_add_of_pos_right (by decide)
  · simp only [State.moveTo, State.setBuffer, Function.update_self]
    exact (write_seqlock_of_claimed ha).trans (hcopied a ha)

/-- While nobody publishes, the reads succeed exactly on an even count. -/
theorem Safe.answers_iff (h : Safe s) (hcompleted : s.wire.completed ≠ [])
    (hquiet : ¬s.publisher.Publishes)
    (hi : s.reader i = .idle) (hretries : 0 < maxRetries) :
    Answers s i maxRetries ↔ s.seqlock &&& 1 = 0 := by
  constructor
  · rintro ⟨⟨events, t, t', hrun, hevents, hreturns⟩, -⟩
    have hcopies := (Still.of_run hquiet hrun hevents).copies
    cases hreturns with
    | accept hi =>
        rw [hi] at hcopies
        exact hcopies.1
  · intro heven
    have hmagic := h.magicOf_wire heven hcompleted
    obtain ⟨events, t, t', hrun, hevents, -, hreturns, -⟩ := run_read hi heven hmagic hretries
    refine ⟨⟨events, t, t', hrun.mono fun _ _ _ hstep => hstep.2,
      fun event hmem => (hevents event hmem).undisturbed i, hreturns⟩, ?_⟩
    intro events t t' ok hrun hevents hreturns
    have hcopies := (Still.of_run hquiet hrun hevents).copies
    cases hreturns with
    | accept => rfl
    | noMagic hi hsame hnone =>
        rw [hi] at hcopies
        refine absurd ((magicOf_congr fun a ha => ?_).trans hmagic) hnone
        exact (hcopies.2.2 a ha).resolve_left List.not_mem_nil
    | fail hi hattempt =>
        rw [hi] at hcopies
        obtain ⟨rfl, rfl⟩ := hcopies heven
        exact absurd hretries (Nat.not_lt.mpr hattempt)

end Undisturbed

/-! ## Runs -/

section Runs

variable [DecidableEq ι] {s : State ι} {localBuffer : ι → Memory} {events : List (Event ι)}

/-- While every publish begins on an even count, what a read accepts are the bytes of one completed
publish; and after a completed publish, while nobody publishes, the reads succeed exactly on an even
count. -/
theorem wireReads_of_run (h : Run (Meeting Orderly Step) (State.initial localBuffer) events s) :
    (∀ event s', Orderly s event → Step s event s' → ReadsOne s s' event) ∧
      (s.wire.completed ≠ [] → ¬s.publisher.Publishes →
        ∀ i maxRetries, s.reader i = .idle → 0 < maxRetries →
        (Answers s i maxRetries ↔ s.seqlock &&& 1 = 0)) := by
  have hsafe := Safe.of_run h
  constructor
  · exact fun event s' horderly hstep => hsafe.readsOne horderly.1 hstep
  · intro hcompleted hquiet i maxRetries hi hretries
    exact hsafe.answers_iff hcompleted hquiet hi hretries

/-- A manager that nobody disturbs copies some bytes. -/
theorem run_stores {stagedBuffer : Memory} {front rest : List (Store Nat UInt8)}
    (hpublisher : s.publisher = .publishing stagedBuffer (front ++ rest)) :
    ∃ events t, Run (Meeting Orderly Step) s events t ∧ (∀ event ∈ events, event = .store) ∧
      t.publisher = .publishing stagedBuffer rest ∧
      t.wire = { s.wire with memory := applyStores front s.wire.memory } ∧
      t.reader = s.reader ∧ t.localBuffer = s.localBuffer := by
  induction front generalizing s with
  | nil => exact ⟨[], s, .nil, nofun, hpublisher, rfl, rfl, rfl⟩
  | cons store front ih =>
      have hstore : Meeting Orderly Step s .store
          { s with
            wire := s.wire.store store
            publisher := .publishing stagedBuffer (front ++ rest) } :=
        ⟨⟨trivial, nofun⟩, .store hpublisher⟩
      obtain ⟨events, t, hrun, hevents, hdone, hwire, hreader, hbuffer⟩ := ih
        (s := { s with
          wire := s.wire.store store
          publisher := .publishing stagedBuffer (front ++ rest) }) rfl
      exact ⟨.store :: events, t, .cons hstore hrun, List.forall_mem_cons.mpr ⟨rfl, hevents⟩, hdone,
        hwire, hreader, hbuffer⟩

/-- The copies of a publish, from the first byte to the last one. -/
def publishStores (stagedBuffer : Memory) : List (Store Nat UInt8) :=
  (List.range seqlockOffset ++ List.range' generationOffset (wireTotalSize - generationOffset)).map
    (copyByte stagedBuffer)

theorem isPublish_publishStores (stagedBuffer : Memory) :
    IsPublish stagedBuffer (publishStores stagedBuffer) :=
  ⟨_, _, ⟨_, List.Perm.refl _, rfl⟩, ⟨_, List.Perm.refl _, rfl⟩, List.map_append⟩

/-- A publish that nobody disturbs. -/
theorem run_publish {params : LexiconWireSerializeParams} (h : Serializable params)
    (hpublisher : s.publisher = .attached) (heven : s.seqlock &&& 1 = 0) :
    ∃ events t, Run (Meeting Orderly Step) s (.beginPublish params :: events) t ∧
      (∀ event ∈ events, event = .store ∨ event = .endPublish) ∧ t.publisher = .attached ∧
      t.reader = s.reader ∧ t.localBuffer = s.localBuffer ∧ t.seqlock = s.seqlock + 1 + 1 ∧
      t.wire.completed = block params (fun _ => 0) :: s.wire.completed ∧
      AgreeOn Claimed t.wire.memory (block params fun _ => 0) := by
  have hserialize : serialize params (fun _ => 0) wireTotalSize = .ok (block params fun _ => 0) :=
    serialize_eq_ok.mpr ⟨Nat.le_refl _, h, rfl⟩
  obtain ⟨stores, hstores⟩ : ∃ stores, IsPublish (block params fun _ => 0) stores :=
    ⟨_, isPublish_publishStores _⟩
  have hbegin : Meeting Orderly Step s (.beginPublish params) _ :=
    ⟨⟨trivial, fun _ _ => heven⟩, .beginPublish hpublisher hserialize hstores⟩
  obtain ⟨events, t, hrun, hevents, hdone, hwire, hreader, hbuffer⟩ := run_stores (s := { s with
    wire := s.wire.setWord (s.seqlock + 1)
    publisher := .publishing (block params fun _ => 0) (stores ++ []) }) rfl
  rw [List.append_nil] at hrun
  have hend : Meeting Orderly Step t .endPublish { t with
      wire := (t.wire.setWord (t.seqlock + 1)).complete (block params fun _ => 0)
      publisher := .attached } := ⟨⟨trivial, nofun⟩, .endPublish hdone⟩
  have hpublish := Run.cons hbegin (hrun.snoc hend)
  refine ⟨_, _, hpublish, ?_, ?_, hreader, hbuffer, ?_, ?_, fun a ha => ?_⟩
  · rw [List.forall_mem_append, List.forall_mem_singleton]
    exact ⟨fun event hmem => Or.inl (hevents event hmem), Or.inr rfl⟩
  · rfl
  · show t.wire.word + 1 = s.seqlock + 1 + 1
    rw [hwire]
    rfl
  · show _ :: t.wire.completed = _ :: s.wire.completed
    rw [hwire]
    rfl
  · show t.wire.memory a = _
    rw [hwire]
    exact hstores.agreeOn s.wire.memory a ha

end Runs

/-- Rows and words, with a generation. -/
def twoRowsAt (generation : UInt64) : LexiconWireSerializeParams :=
  { twoRows with generation := generation }

theorem serializable_twoRowsAt (generation : UInt64) : Serializable (twoRowsAt generation) :=
  ⟨serializable_twoRows.rowCount, serializable_twoRows.rows, serializable_twoRows.rowUnits,
    serializable_twoRows.wordCount, serializable_twoRows.words, serializable_twoRows.wordUnits⟩

/-- A process begins to copy the empty mapping. -/
def beginsCopy : State Nat :=
  ((State.initial fun _ _ => 0).moveTo 1 (.attempting 0 5)).moveTo 1
    (.copying 0 5 0 ⟨0, []⟩ (List.range wireTotalSize))

/-- It copies while rows and words are published; a read of another process succeeds after that. -/
theorem wireReads_of_run_copying : ∃ events, ∃ s : State Nat,
    Run (Meeting Orderly Step) (State.initial fun _ _ => 0) events s ∧
      s.wire.completed = [block (twoRowsAt 1) fun _ => 0] ∧
      s.reader 1 = .copying 0 5 0 ⟨0, []⟩ (List.range wireTotalSize) ∧ Answers s 0 5 := by
  have hread : Meeting Orderly Step (State.initial fun _ : Nat => fun _ => 0) (.read 1 5)
      ((State.initial fun _ => fun _ => 0).moveTo 1 (.attempting 0 5)) :=
    ⟨⟨trivial, nofun⟩, .read rfl⟩
  have hcopy : Meeting Orderly Step ((State.initial fun _ : Nat => fun _ => 0).moveTo 1
      (.attempting 0 5)) (.beginCopy 1) beginsCopy :=
    ⟨⟨trivial, nofun⟩, .beginCopy rfl (show 0 < 5 by decide) rfl (List.Perm.refl _)⟩
  obtain ⟨events, s, hrun, -, hpublisher, hreader, -, hseqlock, hcompleted, -⟩ :=
    run_publish (s := beginsCopy) (serializable_twoRowsAt 1) rfl rfl
  have hquiet : ¬s.publisher.Publishes := by
    rw [hpublisher]
    exact id
  have heven : s.seqlock &&& 1 = 0 := by
    rw [hseqlock]
    rfl
  have hwhole := Run.cons hread (Run.cons hcopy hrun)
  have hsome : s.wire.completed ≠ [] := by
    rw [hcompleted]
    exact List.cons_ne_nil _ _
  have hidle : s.reader 0 = .idle := (congrFun hreader 0).trans rfl
  exact ⟨_, s, hwhole, hcompleted, (congrFun hreader 1).trans rfl,
    ((wireReads_of_run hwhole).2 hsome hquiet 0 5 hidle (by decide)).mpr heven⟩

end WireMapping

end VKey
