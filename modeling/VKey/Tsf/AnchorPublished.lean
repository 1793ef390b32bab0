import VKey.Ipc.SnapshotReads
import VKey.Tsf.ReadonlyContext

/-!
# The anchor of the focused document

Every host process has a provider of its own, and all of them write one anchor in shared memory.  A
host that loses the focus clears the anchor, and a host whose document is edited publishes the
anchor of the document, unless it has the payload that the host wrote last.  The system tells hosts
of a change of the focus at its leisure, each host in order, so a host may be edited before another
one has cleared the anchor.
-/

namespace VKey

namespace ReadonlyContextProvider

open StateBlock Seqlock

/-! ## The hosts -/

/-- What a provider is doing. -/
inductive Activity where
  | idle
  /-- In `WriteAnchor`, with some stores to come; the provider may be about to lose the focus. -/
  | writing (anchor : Anchor) (stores : List (Store AnchorCell Nat)) (losesFocus : Bool)

def Activity.isIdle : Activity → Bool
  | .idle => true
  | .writing _ _ _ => false

/-- The provider of a host process. -/
structure Provider where
  isFocused : Bool := false
  /-- The edit sink is advised. -/
  advised : Bool := false
  lastWritten : Anchor := cleared
  activity : Activity := .idle

/-- The shared anchor and the hosts. -/
structure System (ι : Type) where
  anchor : Lock AnchorCell Nat
  provider : ι → Provider
  /-- The host with the focus. -/
  focus : Option ι
  /-- The calls of `OnSetFocus` that a host is still to get: with a document or without one. -/
  notices : ι → List Bool
  /-- The document of the last edit that a host has handled since another host wrote or cleared the
  anchor. -/
  handled : ι → Option Document

variable {ι : Type} [DecidableEq ι]

namespace System

def initial : System ι where
  anchor := ⟨0, cleared, 0, []⟩
  provider _ := {}
  focus := none
  notices _ := []
  handled _ := none

/-- A provider moves on. -/
def provide (s : System ι) (i : ι) (provider : Provider) : System ι :=
  { s with provider := Function.update s.provider i provider }

def handle (s : System ι) (i : ι) (doc : Option Document) : System ι :=
  { s with handled := Function.update s.handled i doc }

/-- A host writes: the others are to handle another edit. -/
def overwrite (s : System ι) (i : ι) (anchor : Lock AnchorCell Nat) : System ι :=
  { s with anchor, handled := fun j => if j = i then s.handled j else none }

/-- The first part of `WriteAnchorSeqlock`. -/
def beginWrite (s : System ι) (i : ι) (anchor : Anchor) (losesFocus : Bool) : System ι :=
  (s.overwrite i (s.anchor.setWord (s.anchor.word + 1))).provide i
    { s.provider i with activity := .writing anchor (anchorCells.map (copy anchor)) losesFocus }

/-- The notices after the focus has moved: the host that loses it and the one that gains it are
told. -/
def owe (s : System ι) (target : Option ι) (i : ι) : List Bool :=
  s.notices i ++ (if s.focus = some i ∧ target ≠ some i then [false] else []) ++
    (if target = some i then [true] else [])

/-- `OnEndEdit`, in the read-only mode. -/
def endEdit (s : System ι) (i : ι) (doc : Document) : System ι :=
  let s := s.handle i (some doc)
  if (s.provider i).isFocused = false then s
  else if anchorPayloadEquals doc.anchor (s.provider i).lastWritten then s
  else s.beginWrite i doc.anchor false

/-- The rest of a call that has written the anchor. -/
def finishWrite (s : System ι) (i : ι) (anchor : Anchor) (losesFocus : Bool) : System ι :=
  let provider := s.provider i
  (s.overwrite i ((s.anchor.setWord (s.anchor.word + 1)).complete anchor)).provide i
    { isFocused := provider.isFocused && !losesFocus, advised := provider.advised && !losesFocus,
      lastWritten := anchor, activity := .idle }

theorem provider_provide_self (s : System ι) (i : ι) (provider : Provider) :
    (s.provide i provider).provider i = provider := Function.update_self ..

theorem provider_provide_of_ne (s : System ι) {i j : ι} (h : j ≠ i) (provider : Provider) :
    (s.provide i provider).provider j = s.provider j := Function.update_of_ne h ..

theorem handled_handle_self (s : System ι) (i : ι) (doc : Option Document) :
    (s.handle i doc).handled i = doc := Function.update_self ..

theorem handled_handle_of_ne (s : System ι) {i j : ι} (h : j ≠ i) (doc : Option Document) :
    (s.handle i doc).handled j = s.handled j := Function.update_of_ne h ..

/-- Of a host that writes only its own edit has been handled after the others. -/
theorem handled_overwrite {s : System ι} {i j : ι} {doc : Document} (lock : Lock AnchorCell Nat)
    (h : (s.overwrite i lock).handled j = some doc) : j = i ∧ s.handled j = some doc := by
  rw [overwrite] at h
  dsimp only at h
  split_ifs at h with hji
  exact ⟨hji, h⟩

end System

/-- What happens at a host or to the focus. -/
inductive Event (ι : Type) where
  | focusMoves (target : Option ι)
  /-- `OnSetFocus` with a document, whose edit sink can be advised or not. -/
  | setFocus (i : ι) (advises : Bool)
  /-- `OnSetFocus` without a document. -/
  | loseFocus (i : ι)
  | endEdit (i : ι) (doc : Document)
  | store (i : ι)
  | finish (i : ι)
  deriving DecidableEq, Repr

/-- The system after an event, if the event can happen. -/
def System.next (s : System ι) : Event ι → Option (System ι)
  | .focusMoves target =>
      some { s with
        focus := target, notices := s.owe target
        handled := fun i => if target = some i then none else s.handled i }
  | .setFocus i advises =>
      match (s.provider i).activity, s.notices i with
      | .idle, true :: rest =>
          some (({ s with notices := Function.update s.notices i rest }.handle i none).provide i
            { s.provider i with isFocused := true, advised := advises })
      | _, _ => none
  | .loseFocus i =>
      match (s.provider i).activity, s.notices i with
      | .idle, false :: rest =>
          some (({ s with notices := Function.update s.notices i rest }.handle i none).beginWrite i
            cleared true)
      | _, _ => none
  | .endEdit i doc =>
      if (s.provider i).activity.isIdle && (s.provider i).advised then some
        (s.endEdit i doc) else none
  | .store i =>
      match (s.provider i).activity with
      | .writing anchor (store :: stores) losesFocus =>
          some ((s.overwrite i (s.anchor.store store)).provide i
            { s.provider i with activity := .writing anchor stores losesFocus })
      | _ => none
  | .finish i =>
      match (s.provider i).activity with
      | .writing anchor [] losesFocus => some (s.finishWrite i anchor losesFocus)
      | _ => none

def Step (s : System ι) (event : Event ι) (s' : System ι) : Prop := s.next event = some s'

/-- The events one after the other. -/
def System.nextAll (s : System ι) : List (Event ι) → Option (System ι)
  | [] => some s
  | event :: events => (s.next event).bind fun s' => s'.nextAll events

theorem run_of_nextAll {s t : System ι} {events : List (Event ι)} (h : s.nextAll events = some t) :
    Run Step s events t := by
  induction events generalizing s with
  | nil =>
      obtain rfl := Option.some.inj h
      exact Run.nil
  | cons event events ih =>
      obtain ⟨s', hfirst, hrest⟩ := Option.bind_eq_some_iff.mp h
      exact Run.cons hfirst (ih hrest)

/-! ## The published anchor -/

/-- The anchor in memory is that of the document: marked unavailable if the context is blocked, else
with the payload that is derived from the text before the caret. -/
def ShowsDocument (doc : Document) (memory : Anchor) : Prop :=
  if doc.isBlocked then memory .isAvailable = 0
  else anchorPayloadEquals memory (deriveAnchorFromPreceding doc.precedingChars 1) = true

instance (doc : Document) (memory : Anchor) : Decidable (ShowsDocument doc memory) :=
  inferInstanceAs (Decidable (if doc.isBlocked then _ else _))

/-- Once the focused host has handled an edit after the others, and nobody is writing, the anchor is
that of its document. -/
def System.Published (s : System ι) : Prop :=
  ∀ i doc, s.focus = some i → s.handled i = some doc →
    (∀ j, (s.provider j).activity.isIdle = true) →
    ShowsDocument doc s.anchor.memory

/-- Where an edit of the focused host gives the payload that the host wrote last, nobody else
writing, the anchor in memory still has it. -/
def LastWriteStands (s : System ι) : Event ι → Prop
  | .endEdit i doc =>
      s.focus = some i → (∀ j, (s.provider j).activity.isIdle = true) →
        anchorPayloadEquals doc.anchor (s.provider i).lastWritten = true →
          anchorPayloadEquals s.anchor.memory (s.provider i).lastWritten = true
  | _ => True

theorem showsDocument_of_payload {doc : Document} {memory : Anchor}
    (h : anchorPayloadEquals memory doc.anchor = true) : ShowsDocument doc memory := by
  unfold ShowsDocument
  unfold Document.anchor at h
  split_ifs with hblocked
  · rw [if_pos hblocked, anchorPayloadEquals_iff] at h
    exact h .isAvailable trivial
  · rwa [if_neg hblocked] at h

/-! ## The invariant -/

/-- The last edit that a host has handled after the others is in memory, or the host is about to
store it. -/
structure Fresh (s : System ι) : Prop where
  advised : ∀ i, (s.provider i).advised = true → (s.provider i).isFocused = true
  idle : ∀ i doc, s.focus = some i → s.handled i = some doc →
    (∀ j, (s.provider j).activity.isIdle = true) →
      anchorPayloadEquals s.anchor.memory doc.anchor = true
  writing : ∀ i doc anchor stores losesFocus, s.handled i = some doc →
    (s.provider i).activity = .writing anchor stores losesFocus →
      AgreeOn AnchorClaimed (applyStores stores s.anchor.memory) doc.anchor

namespace Fresh

variable {s : System ι} {i : ι}

omit [DecidableEq ι] in
theorem initial : Fresh (System.initial : System ι) where
  advised i h := by cases h
  idle i doc _ h := by cases h
  writing i doc anchor stores losesFocus h := by cases h

/-- A host that has no edit to show moves on while the anchor stays as it is. -/
theorem provide {provider : Provider} (h : Fresh s) (hhandled : s.handled i = none)
    (hadvised : provider.advised = true → provider.isFocused = true)
    (hactivity : provider.activity.isIdle = true → (s.provider i).activity.isIdle = true) :
    Fresh (s.provide i provider) where
  advised j hj := by
    by_cases hji : j = i
    · subst hji
      rw [System.provider_provide_self] at hj ⊢
      exact hadvised hj
    · rw [System.provider_provide_of_ne _ hji] at hj ⊢
      exact h.advised j hj
  idle j doc hfocus hdoc hall := by
    refine h.idle j doc hfocus hdoc fun k => ?_
    have hk := hall k
    by_cases hki : k = i
    · subst hki
      rw [System.provider_provide_self] at hk
      exact hactivity hk
    · rwa [System.provider_provide_of_ne _ hki] at hk
  writing j doc anchor stores losesFocus hdoc hactivity := by
    have hji : j ≠ i := fun hji => by
      rw [hji] at hdoc
      exact absurd (hhandled.symm.trans hdoc) (by simp)
    rw [System.provider_provide_of_ne _ hji] at hactivity
    exact h.writing j doc anchor stores losesFocus hdoc hactivity

/-- A host takes a step in `WriteAnchor`: only its own edit is still to be shown. -/
theorem write {lock : Lock AnchorCell Nat} {provider : Provider}
    (h : ∀ j, (s.provider j).advised = true → (s.provider j).isFocused = true)
    (hadvised : provider.advised = true → provider.isFocused = true)
    (hidle : ∀ doc, s.handled i = some doc → provider.activity.isIdle = true →
      anchorPayloadEquals lock.memory doc.anchor = true)
    (hwriting : ∀ doc anchor stores losesFocus, s.handled i = some doc →
      provider.activity = .writing anchor stores losesFocus →
        AgreeOn AnchorClaimed (applyStores stores lock.memory) doc.anchor) :
    Fresh ((s.overwrite i lock).provide i provider) where
  advised j hj := by
    by_cases hji : j = i
    · subst hji
      rw [System.provider_provide_self] at hj ⊢
      exact hadvised hj
    · rw [System.provider_provide_of_ne _ hji] at hj ⊢
      exact h j hj
  idle j doc _ hdoc hall := by
    obtain ⟨rfl, hown⟩ := System.handled_overwrite lock hdoc
    have hj := hall j
    rw [System.provider_provide_self] at hj
    exact hidle doc hown hj
  writing j doc anchor stores losesFocus hdoc hactivity := by
    obtain ⟨rfl, hown⟩ := System.handled_overwrite lock hdoc
    rw [System.provider_provide_self] at hactivity
    exact hwriting doc anchor stores losesFocus hown hactivity

/-- A document is edited or the focus leaves it. -/
theorem handle {doc : Option Document} (h : Fresh s)
    (hactivity : (s.provider i).activity.isIdle = true)
    (hdoc : ∀ doc', doc = some doc' → s.focus = some i →
      (∀ j, (s.provider j).activity.isIdle = true) →
      anchorPayloadEquals s.anchor.memory doc'.anchor = true) :
    Fresh (s.handle i doc) where
  advised := h.advised
  idle j doc' hfocus hdoc' hall := by
    by_cases hji : j = i
    · subst hji
      rw [System.handled_handle_self] at hdoc'
      exact hdoc doc' hdoc' hfocus hall
    · rw [System.handled_handle_of_ne _ hji] at hdoc'
      exact h.idle j doc' hfocus hdoc' hall
  writing j doc' anchor stores losesFocus hdoc' hwriting := by
    have hji : j ≠ i := by
      rintro rfl
      rw [show (s.provider j).activity = _ from hwriting] at hactivity
      cases hactivity
    rw [System.handled_handle_of_ne _ hji] at hdoc'
    exact h.writing j doc' anchor stores losesFocus hdoc' hwriting

theorem beginWrite {anchor : Anchor} {losesFocus : Bool}
    (h : ∀ j, (s.provider j).advised = true → (s.provider j).isFocused = true)
    (hdoc : ∀ doc, s.handled i = some doc → anchor = doc.anchor) :
    Fresh (s.beginWrite i anchor losesFocus) := by
  refine write h (h i) (fun doc _ hidle => by cases hidle) ?_
  intro doc anchor' stores losesFocus' hhandled hactivity
  obtain ⟨-, rfl, -⟩ := Activity.writing.inj hactivity
  rw [← hdoc doc hhandled]
  exact agreeOn_anchorCells anchor _

omit [DecidableEq ι] in
theorem notices (h : Fresh s) (notices : ι → List Bool) : Fresh { s with notices } :=
  ⟨h.advised, h.idle, h.writing⟩

theorem focusMoves (h : Fresh s) (target : Option ι) :
    Fresh { s with
      focus := target, notices := s.owe target
      handled := fun i => if target = some i then none else s.handled i } where
  advised := h.advised
  idle j doc hfocus hdoc hall := by
    dsimp only at hfocus hdoc
    rw [if_pos hfocus] at hdoc
    cases hdoc
  writing j doc anchor stores losesFocus hdoc hactivity := by
    dsimp only at hdoc
    split_ifs at hdoc
    exact h.writing j doc anchor stores losesFocus hdoc hactivity

theorem endEdit {doc : Document} (h : Fresh s) (hidle : (s.provider i).activity.isIdle = true)
    (hadvised : (s.provider i).advised = true) (hstands : LastWriteStands s (.endEdit i doc)) :
    Fresh (s.endEdit i doc) := by
  have hfocused : (s.provider i).isFocused = true := h.advised i hadvised
  unfold System.endEdit
  dsimp only
  rw [if_neg (by
    rw [show ((s.handle i (some doc)).provider i).isFocused = true from hfocused]
    decide)]
  split_ifs with hsame
  · -- the write is skipped, and what the host wrote last is still there
    refine h.handle hidle fun doc' hdoc' hfocus hall => ?_
    obtain rfl := Option.some.inj hdoc'
    exact anchorPayloadEquals_trans (hstands hfocus hall hsame) (anchorPayloadEquals_symm hsame)
  · refine beginWrite h.advised fun doc' hdoc' => ?_
    rw [System.handled_handle_self] at hdoc'
    rw [Option.some.inj hdoc']

theorem store {anchor : Anchor} {store : Store AnchorCell Nat}
    {stores : List (Store AnchorCell Nat)} {losesFocus : Bool} (h : Fresh s)
    (hi : (s.provider i).activity = .writing anchor (store :: stores) losesFocus) :
    Fresh ((s.overwrite i (s.anchor.store store)).provide i
      { s.provider i with activity := .writing anchor stores losesFocus }) := by
  refine write h.advised (h.advised i) (fun doc _ hidle => by cases hidle) ?_
  intro doc anchor' stores' losesFocus' hhandled hactivity
  obtain ⟨-, rfl, -⟩ := Activity.writing.inj hactivity
  exact h.writing i doc anchor _ losesFocus hhandled hi

theorem finishWrite {anchor : Anchor} {losesFocus : Bool} (h : Fresh s)
    (hi : (s.provider i).activity = .writing anchor [] losesFocus) :
    Fresh (s.finishWrite i anchor losesFocus) := by
  refine write h.advised (fun hadvised => ?_) ?_ (fun doc _ _ _ _ hactivity => by cases hactivity)
  · rw [Bool.and_eq_true] at hadvised ⊢
    exact ⟨h.advised i hadvised.1, hadvised.2⟩
  · -- every field has been stored
    intro doc hhandled _
    have hstored := h.writing i doc anchor [] losesFocus hhandled hi
    exact anchorPayloadEquals_of_agree hstored doc.syllableLen_le

theorem step {event : Event ι} {s' : System ι} (h : Fresh s) (hstep : Step s event s')
    (hstands : LastWriteStands s event) : Fresh s' := by
  unfold Step System.next at hstep
  cases event with
  | focusMoves target =>
      obtain rfl := Option.some.inj hstep
      exact h.focusMoves target
  | setFocus i advises =>
      dsimp only at hstep
      split at hstep
      · rename_i rest hidle hnotices
        obtain rfl := Option.some.inj hstep
        have hactive : (s.provider i).activity.isIdle = true := by
          rw [hidle]
          rfl
        have hleft : Fresh ({ s with notices := Function.update s.notices i rest }.handle i none) :=
          (h.notices _).handle hactive fun _ hnone => by cases hnone
        exact hleft.provide (System.handled_handle_self _ i none) (fun _ => rfl) fun _ => hactive
      · cases hstep
  | loseFocus i =>
      dsimp only at hstep
      split at hstep
      · obtain rfl := Option.some.inj hstep
        refine beginWrite h.advised fun doc hdoc => ?_
        rw [System.handled_handle_self] at hdoc
        cases hdoc
      · cases hstep
  | endEdit i doc =>
      dsimp only at hstep
      split_ifs at hstep with hready
      obtain rfl := Option.some.inj hstep
      rw [Bool.and_eq_true] at hready
      exact h.endEdit hready.1 hready.2 hstands
  | store i =>
      dsimp only at hstep
      split at hstep
      · rename_i anchor store stores losesFocus hactivity
        obtain rfl := Option.some.inj hstep
        exact h.store hactivity
      · cases hstep
  | finish i =>
      dsimp only at hstep
      split at hstep
      · rename_i anchor losesFocus hactivity
        obtain rfl := Option.some.inj hstep
        exact h.finishWrite hactivity
      · cases hstep

end Fresh

/-! ## Runs -/

omit [DecidableEq ι] in
theorem Fresh.published {s : System ι} (h : Fresh s) : s.Published :=
  fun i doc hfocus hdoc hall => showsDocument_of_payload (h.idle i doc hfocus hdoc hall)

/-- As long as no edit of the focused host finds its payload equal to what the host wrote last while
the anchor has been written by another host since, the published anchor is that of the focused
document. -/
theorem published_of_run {events : List (Event ι)} {s : System ι}
    (hrun : Run (Meeting LastWriteStands Step) System.initial events s) : s.Published := by
  have hfresh : Fresh s := hrun.invariant Fresh.initial
    fun _ _ _ h hstep => h.step hstep.2 hstep.1
  exact hfresh.published

/-- An edit of the focused host whose payload the host wrote last, in an anchor that another host
has written since, leaves the anchor of the other host. -/
theorem not_published_of_endEdit {s s' : System ι} {i : ι} {doc : Document}
    (hblocked : doc.isBlocked = false)
    (hfocused : (s.provider i).isFocused = true) (hstep : Step s (.endEdit i doc) s')
    (hlost : ¬LastWriteStands s (.endEdit i doc)) : ¬s'.Published := by
  simp only [LastWriteStands, not_forall] at hlost
  obtain ⟨hfocus, hall, hsame, hlost⟩ := hlost
  have hs' : s' = s.handle i (some doc) := by
    unfold Step System.next at hstep
    dsimp only at hstep
    split_ifs at hstep
    obtain rfl := Option.some.inj hstep
    unfold System.endEdit
    dsimp only
    rw [if_neg (by
      rw [show ((s.handle i (some doc)).provider i).isFocused = true from hfocused]
      decide)]
    exact if_pos hsame
  intro hpublished
  have hshown := hpublished i doc (by rw [hs']; exact hfocus)
    (by rw [hs']; exact System.handled_handle_self s i _) (by rw [hs']; exact hall)
  rw [ShowsDocument, if_neg (by rw [hblocked]; decide), hs'] at hshown
  rw [Document.anchor, if_neg (by rw [hblocked]; decide)] at hsame
  exact hlost (anchorPayloadEquals_trans hshown hsame)

instance (s : System Bool) (event : Event Bool) : Decidable (LastWriteStands s event) :=
  match event with
  | .endEdit _ _ => inferInstanceAs (Decidable (_ → _ → _ → _))
  | .focusMoves _ | .setFocus _ _ | .loseFocus _ | .store _ | .finish _ => .isTrue trivial

/-- The events can happen one after the other, and each of them meets the condition. -/
def System.standsAll (s : System Bool) : List (Event Bool) → Bool
  | [] => true
  | event :: events =>
      decide (LastWriteStands s event) && (s.next event).any fun s' => s'.standsAll events

theorem run_of_standsAll {s t : System Bool} {events : List (Event Bool)}
    (h : s.nextAll events = some t)
    (hstands : s.standsAll events = true) : Run (Meeting LastWriteStands Step) s events t := by
  induction events generalizing s with
  | nil =>
      obtain rfl := Option.some.inj h
      exact Run.nil
  | cons event events ih =>
      obtain ⟨s', hfirst, hrest⟩ := Option.bind_eq_some_iff.mp h
      rw [System.standsAll, hfirst, Bool.and_eq_true, decide_eq_true_eq] at hstands
      exact Run.cons ⟨hstands.1, hfirst⟩ (ih hrest hstands.2)

/-- A host writes the anchor of an empty document, and behind it another one that of its letter. -/
def lettersRun : List (Event Bool) :=
  [.focusMoves (some false), .setFocus false true, .endEdit false { before := some [] }] ++
    List.replicate 21 (.store false) ++
  [.finish false, .focusMoves (some true), .setFocus true true,
    .endEdit true { before := some [L 'a'] }] ++
    List.replicate 21 (.store true) ++ [.finish true]

theorem published_of_run_letters :
    ∃ s : System Bool, Run (Meeting LastWriteStands Step) System.initial lettersRun s ∧
      s.focus = some true ∧ s.handled true = some { before := some [L 'a'] } ∧ s.Published := by
  have hreached : (System.initial.nextAll lettersRun).any (fun s => decide (s.focus = some true) &&
      decide (s.handled true = some { before := some [L 'a'] })) = true := by
    decide +kernel
  have hstands : System.initial.standsAll lettersRun = true := by decide +kernel
  obtain ⟨s, hs, hstate⟩ := (Option.any_eq_true _ _).mp hreached
  simp only [Bool.and_eq_true, decide_eq_true_eq] at hstate
  have hrun := run_of_standsAll hs hstands
  exact ⟨s, hrun, hstate.1, hstate.2, published_of_run hrun⟩

/-- The focus moves from an empty document to a password box, where the first edit is handled before
the document has been told. -/
def passwordRun : List (Event Bool) :=
  [.focusMoves (some false), .setFocus false true, .endEdit false { before := some [] }] ++
    List.replicate 21 (.store false) ++
  [.finish false, .focusMoves (some true), .setFocus true true,
    .endEdit true { inputScopes := some [.password], before := none }]

/-- The password box shows the anchor of the empty document. -/
theorem not_published_of_passwordRun :
    ¬ ∀ (events : List (Event Bool))
    (s : System Bool), Run Step System.initial events s → s.Published := by
  intro h
  have hreached : (System.initial.nextAll passwordRun).any (fun s =>
      decide (s.focus = some true) &&
        decide (s.handled true = some { inputScopes := some [.password], before := none }) &&
        (s.provider false).activity.isIdle && (s.provider true).activity.isIdle &&
        decide (s.anchor.memory .isAvailable = 1)) = true := by
    decide +kernel
  obtain ⟨s, hs, hstate⟩ := (Option.any_eq_true _ _).mp hreached
  simp only [Bool.and_eq_true, decide_eq_true_eq] at hstate
  obtain ⟨⟨⟨⟨hfocus, hhandled⟩, hfalse⟩, htrue⟩, havailable⟩ := hstate
  have hshown := h passwordRun s (run_of_nextAll hs) true _ hfocus hhandled
    (Bool.rec hfalse htrue)
  rw [ShowsDocument, if_pos (by decide), havailable] at hshown
  cases hshown

end ReadonlyContextProvider

end VKey
