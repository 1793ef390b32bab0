import VKey.Lexicon.Canonicalizer
import VKey.Support.Run

/-!
# The exclusions of the Rust engine

The engine library has one list of spell exclusions for the whole process, and an engine gets the
list that is installed when it is created.  The program mirrors the list, so that it does not
install one twice.
-/

namespace VKey

namespace RustInputEngine

open SpellExclusionCanonicalizer

/-! ## The library and its mirror -/

/-- An engine of the library, with the exclusions it has been created under. -/
structure VKeyEngine where
  exclusions : List Char16
  deriving DecidableEq, Repr

/-- The exclusions of the process: the list of the library, and the mirror. -/
structure Process where
  /-- The library has been loaded and has all its functions. -/
  apiOk : Bool
  library : List Char16
  activeCanonicalExclusionsUnits : List Char16 := []
  activeCanonicalExclusionsInitialized : Bool := false

namespace Process

/-- A process that has not installed any list yet. -/
def initial (apiOk : Bool) (library : List Char16) : Process where
  apiOk := apiOk
  library := library

/-- The setter of the library.  It installs the list, or it fails and leaves the old one. -/
def install (units : List Char16) (ok : Bool) (p : Process) : Process :=
  if ok then { p with library := units } else p

/-- The list is not known to be active. -/
def changes (units : List Char16) (p : Process) : Bool :=
  !p.activeCanonicalExclusionsInitialized || units != p.activeCanonicalExclusionsUnits

/-- Remember the list that has been installed. -/
def remember (units : List Char16) (p : Process) : Process :=
  { p with activeCanonicalExclusionsUnits := units, activeCanonicalExclusionsInitialized := true }

end Process

/-! ## Installing a list -/

/-- Install a list.  The result says whether the list is installed and whether it has changed. -/
def setSpellExclusionsFromUtf16 (units : List Char16) (setOk : Bool) (p : Process) :
    Process × Bool × Bool :=
  if !p.apiOk then (p, false, false)
  else if !p.changes units then (p, true, false)
  else if setOk then ((p.install units true).remember units, true, true)
  else (p, false, true)

/-! ## Creating an engine -/

variable [UnicodePlatform]

/-- The exclusions of a configuration as the library takes them: the canonical ones, or the ones of
the configuration if they have no canonical form, one to a line. -/
def exclusionUnits (spellExclusions : List (List Char16)) : List Char16 :=
  let srcList :=
    match canonicalize spellExclusions with
    | .ok items => items.map Item.utf16
    | .error _ => spellExclusions
  [0x0A].intercalate srcList

/-- What the library answers to the calls of a constructor. -/
structure Answers where
  setOk : Bool
  createOk : Bool
  /-- The answer to the setter behind an engine that could not be created. -/
  rollbackOk : Bool

/-- The constructor: the engine, if there is one, and the exclusions of the process afterwards. -/
def construct (spellExclusions : List (List Char16)) (answers : Answers) (p : Process) :
    Option VKeyEngine × Process :=
  let units := exclusionUnits spellExclusions
  let exclusionsChanged := p.changes units
  if !p.apiOk then (none, p)
  else if exclusionsChanged && !answers.setOk then (none, p)
  else
    let q := if exclusionsChanged then p.install units true else p
    if answers.createOk then
      (some ⟨q.library⟩, if exclusionsChanged then q.remember units else q)
    else if exclusionsChanged && p.activeCanonicalExclusionsInitialized then
      (none, q.install p.activeCanonicalExclusionsUnits answers.rollbackOk)
    else (none, q)

/-! ## Sequences of calls -/

/-- A call that touches the exclusions of the process. -/
inductive Event where
  | construct (spellExclusions : List (List Char16)) (answers : Answers)
  | setSpellExclusionsFromUtf16 (units : List Char16) (setOk : Bool)

/-- The exclusions of the process after a call. -/
def Process.next (p : Process) : Event → Process
  | .construct spellExclusions answers => (RustInputEngine.construct spellExclusions answers p).2
  | .setSpellExclusionsFromUtf16 units setOk =>
      (RustInputEngine.setSpellExclusionsFromUtf16 units setOk p).1

/-- The engine that a call creates, and the exclusions that it should have. -/
def Process.created (p : Process) : Event → Option (VKeyEngine × List Char16)
  | .construct spellExclusions answers =>
      (RustInputEngine.construct spellExclusions answers p).1.map
      (·, exclusionUnits spellExclusions)
  | .setSpellExclusionsFromUtf16 _ _ => none

/-- The mirror shows the list of the library. -/
def Process.Mirrored (p : Process) : Prop :=
  p.activeCanonicalExclusionsInitialized = true → p.activeCanonicalExclusionsUnits = p.library

/-- An engine that the call creates has its own exclusions, and the mirror is right after the
call. -/
def UnderOwnExclusions (p : Process) (event : Event) : Prop :=
  (∀ engine units, p.created event = some (engine, units) → engine.exclusions = units) ∧
    (p.next event).Mirrored

/-- If the library takes a new list and then creates no engine, it takes the old list back. -/
def RollsBack (p : Process) : Event → Prop
  | .construct spellExclusions answers =>
      p.apiOk = true → p.activeCanonicalExclusionsInitialized = true →
        p.changes (exclusionUnits spellExclusions) = true → answers.setOk = true →
          answers.createOk = false → answers.rollbackOk = true
  | .setSpellExclusionsFromUtf16 _ _ => True

/-! ## The mirror -/

section Mirror

variable {p : Process} {units : List Char16}

omit [UnicodePlatform] in
theorem Process.Mirrored.library_of_not_changes (h : p.Mirrored)
    (hunits : p.changes units = false) :
    p.library = units := by
  simp only [Process.changes, Bool.or_eq_false_iff, Bool.not_eq_false',
    bne_eq_false_iff_eq] at hunits
  rw [← h hunits.1, hunits.2]

omit [UnicodePlatform] in
theorem Process.ne_of_changes (hunits : p.changes units = true)
    (hinitialized : p.activeCanonicalExclusionsInitialized = true) :
    p.activeCanonicalExclusionsUnits ≠ units := by
  simp only [Process.changes, hinitialized, Bool.not_true, Bool.false_or, bne_iff_ne] at hunits
  exact hunits.symm

omit [UnicodePlatform] in
theorem Process.mirrored_remember (p : Process) (units : List Char16) :
    ((p.install units true).remember units).Mirrored := fun _ => rfl

/-- A constructor gives its engine the exclusions of its configuration, and keeps the mirror right
exactly if it takes a list back that has no engine. -/
theorem underOwnExclusions_construct_iff (h : p.Mirrored) (spellExclusions : List (List Char16))
    (answers : Answers) :
    UnderOwnExclusions p (.construct spellExclusions answers) ↔
      RollsBack p (.construct spellExclusions answers) := by
  obtain ⟨setOk, createOk, rollbackOk⟩ := answers
  simp only [UnderOwnExclusions, RollsBack, Process.created, Process.next, construct]
  cases hapi : p.apiOk with
  | false => simpa using h
  | true =>
      cases hchanges : p.changes (exclusionUnits spellExclusions) with
      | false =>
          have hlibrary := h.library_of_not_changes hchanges
          cases createOk with
          | true => simpa [hlibrary.symm] using h
          | false => simpa using h
      | true =>
          cases setOk with
          | false => simpa using h
          | true =>
              cases createOk with
              | true =>
                  simpa [Process.install] using p.mirrored_remember (exclusionUnits spellExclusions)
              | false =>
                  cases hinitialized : p.activeCanonicalExclusionsInitialized with
                  | false => simp [Process.Mirrored, Process.install, hinitialized]
                  | true =>
                      -- The new list has been installed, and only the rollback brings the old one
                      -- back.
                      have hne := Process.ne_of_changes hchanges hinitialized
                      cases rollbackOk with
                      | true => simp [Process.Mirrored, Process.install]
                      | false => simp [Process.Mirrored, Process.install, hinitialized, hne]

theorem underOwnExclusions_set (h : p.Mirrored) (units : List Char16) (setOk : Bool) :
    UnderOwnExclusions p (.setSpellExclusionsFromUtf16 units setOk) := by
  refine ⟨nofun, ?_⟩
  rw [Process.next, setSpellExclusionsFromUtf16]
  split_ifs
  · exact h
  · exact h
  · exact p.mirrored_remember units
  · exact h

theorem underOwnExclusions_iff (h : p.Mirrored) (event : Event) :
    UnderOwnExclusions p event ↔ RollsBack p event := by
  cases event with
  | construct spellExclusions answers =>
      exact underOwnExclusions_construct_iff h spellExclusions answers
  | setSpellExclusionsFromUtf16 units setOk =>
      exact iff_of_true (underOwnExclusions_set h units setOk) trivial

end Mirror

/-- In a sequence of calls every engine is created under its own exclusions, and the mirror is right
after every call, exactly if every list that has been installed for an engine that does not exist is
taken back. -/
theorem underOwnExclusions_iff_rollsBack (apiOk : Bool) (library : List Char16)
    (events : List Event) :
    EachStep Process.next UnderOwnExclusions (Process.initial apiOk library) events ↔
      EachStep Process.next RollsBack (Process.initial apiOk library) events := by
  refine eachStep_iff Process.Mirrored (fun p event h => underOwnExclusions_iff h event) ?_ ?_
    events
  · exact fun p event h hevent => ((underOwnExclusions_iff h event).mpr hevent).2
  · intro hinitialized
    cases hinitialized

/-- An engine without exclusions, one with the exclusion "a" that cannot be created and whose list
is not taken back, and an engine without exclusions again. -/
def staleListCalls : List Event :=
  [.construct [] ⟨true, true, true⟩, .construct [[0x61]] ⟨true, false, false⟩,
    .construct [] ⟨true, true, true⟩]

omit [UnicodePlatform] in
/-- The last engine is created under the exclusion of the engine that does not exist. -/
theorem not_underOwnExclusions :
    letI := fallbackPlatform
    let p := (staleListCalls.take 2).foldl Process.next (Process.initial true [])
    p.created (.construct [] ⟨true, true, true⟩) = some (⟨[0x61]⟩, []) ∧
      ¬EachStep Process.next UnderOwnExclusions (Process.initial true []) staleListCalls := by
  let := fallbackPlatform
  refine ⟨rfl, fun h => ?_⟩
  have hengine := h.2.2.1.1 ⟨[0x61]⟩ [] rfl
  cases hengine

end RustInputEngine

end VKey
