import VKey.Support.Run
import VKey.Support.Slots
import VKey.Text.WideChar

/-!
# The keyboard hook is reclaimed

A program that installs a keyboard hook of its own after this one is called before it.  For one such
program the hook thread replaces its keyboard hook once for each process, some time after the
process has come to the foreground and while nothing is being typed.
-/

namespace VKey

/-! ## Replacing the hook -/

inductive SingleHookUnhookStatus where
  | removed
  | alreadyAbsent
  | failed
  deriving DecidableEq, Repr

inductive SingleHookReplacementStatus where
  | replaced
  | unhookFailed
  | installFailed
  deriving DecidableEq, Repr

/-- The operations of a replacement, either of which may be missing, on the state of the system. -/
structure SingleHookReplacementOps (System : Type) where
  unhook : Option (Nat → System → SingleHookUnhookStatus × System)
  install : Option (System → Nat × System)

/-- The status, the active handle and the system after a replacement. -/
def replaceSingleHook {System : Type} (ops : SingleHookReplacementOps System) (activeHandle : Nat)
    (system : System) : SingleHookReplacementStatus × Nat × System :=
  let installNew (system : System) : SingleHookReplacementStatus × Nat × System :=
    match ops.install with
    | none => (.installFailed, 0, system)
    | some install =>
        let (handle, system) := install system
        if handle ≠ 0 then (.replaced, handle, system) else (.installFailed, 0, system)
  if activeHandle ≠ 0 then
    match ops.unhook with
    | none => (.unhookFailed, activeHandle, system)
    | some unhook =>
        let (status, system) := unhook activeHandle system
        if status = .failed then (.unhookFailed, activeHandle, system) else installNew system
  else installNew system

/-! ## Processes -/

structure DorionProcessIdentity where
  pid : UInt32 := 0
  creationTime : UInt64 := 0
  deriving DecidableEq, Repr

def DorionProcessIdentity.isValid (identity : DorionProcessIdentity) : Bool :=
  identity.pid != 0 && identity.creationTime != 0

/-- The processes for which a replacement is under way, and those for which one has succeeded. -/
structure DorionHookReclaimPolicy where
  pending : Slots DorionProcessIdentity 4
  successful : Slots DorionProcessIdentity 8
  suppressNewIdentities : Bool

namespace DorionHookReclaimPolicy

def kMaxPending : Nat := 4
def kMaxSuccessful : Nat := 8

def reset : DorionHookReclaimPolicy where
  pending := .clear {}
  successful := .clear {}
  suppressNewIdentities := false

/-- A process has come to the foreground.  Is a replacement to be requested? -/
def observe (policy : DorionHookReclaimPolicy) (exeName : List WChar)
    (identity : DorionProcessIdentity) (isCurrent : Bool) : Bool × DorionHookReclaimPolicy :=
  if !isCurrent || exeName != "dorion.exe".toList.map L || !identity.isValid then (false, policy)
  else if policy.pending.list.contains identity || policy.successful.list.contains identity ||
      policy.suppressNewIdentities then (false, policy)
  else
    match policy.pending.fill DorionProcessIdentity.isValid identity with
    | some pending => (true, { policy with pending })
    | none => (false, policy)

/-- The replacement for a process has come to its end. -/
def complete (policy : DorionHookReclaimPolicy) (identity : DorionProcessIdentity)
    (succeeded : Bool) :
    DorionHookReclaimPolicy :=
  let policy := { policy with pending := policy.pending.free (· == identity) {} }
  if !succeeded || !identity.isValid || policy.successful.list.contains identity then policy
  else
    match policy.successful.fill DorionProcessIdentity.isValid identity with
    | some successful => { policy with successful }
    | none => { policy with suppressNewIdentities := true }

end DorionHookReclaimPolicy

/-! ## Delayed replacements -/

structure DorionDelayedReclaimTicket where
  identity : DorionProcessIdentity := {}
  timerId : Nat := 0
  dueTickMs : Nat := 0
  remainingGateChecks : Nat := 0
  deriving DecidableEq, Repr

namespace DorionDelayedReclaimTicket

def isValid (ticket : DorionDelayedReclaimTicket) : Bool :=
  ticket.identity.isValid && ticket.timerId != 0 && ticket.remainingGateChecks != 0

end DorionDelayedReclaimTicket

abbrev DorionDelayedReclaimSlots := Slots DorionDelayedReclaimTicket 4

namespace DorionDelayedReclaimSlots

def arm (slots : DorionDelayedReclaimSlots) (ticket : DorionDelayedReclaimTicket) :
    Option DorionDelayedReclaimSlots :=
  if !ticket.isValid then none
  else if slots.list.any fun slot =>
      slot.identity == ticket.identity || slot.timerId == ticket.timerId then none
  else slots.fill DorionDelayedReclaimTicket.isValid ticket

def takeIfDue (slots : DorionDelayedReclaimSlots) (timerId nowTickMs : Nat) :
    Option (DorionDelayedReclaimTicket × DorionDelayedReclaimSlots) :=
  if timerId = 0 then none
  else slots.take (fun slot => slot.timerId == timerId && slot.dueTickMs ≤ nowTickMs) {}

def hasPending (slots : DorionDelayedReclaimSlots) (identity : DorionProcessIdentity) : Bool :=
  identity.isValid && slots.list.any (·.identity == identity)

def hasTimer (slots : DorionDelayedReclaimSlots) (timerId : Nat) : Bool :=
  timerId != 0 && slots.list.any fun slot => slot.isValid && slot.timerId == timerId

end DorionDelayedReclaimSlots

structure DorionReclaimQuietEvidence where
  lastInputQuerySucceeded : Bool := false
  nowTickMs : UInt32 := 0
  lastInputTickMs : UInt32 := 0
  anyPhysicalKeyDown : Bool := false
  syntheticDispatchActive : Bool := false
  compositionActive : Bool := false

def kDorionReclaimQuietMs : Nat := 100

/-- Nothing is being typed.  The tick counters wrap around; more than half of their range is no time
that has passed. -/
def isDorionReclaimQuiet (evidence : DorionReclaimQuietEvidence) : Bool :=
  if !evidence.lastInputQuerySucceeded || evidence.anyPhysicalKeyDown ||
      evidence.syntheticDispatchActive || evidence.compositionActive then false
  else
    let elapsed := (evidence.nowTickMs - evidence.lastInputTickMs).toNat
    decide (elapsed ≤ 0x7FFFFFFF) && decide (kDorionReclaimQuietMs ≤ elapsed)

/-! ## The hook thread -/

namespace HookLifecycle

def kDorionInitialDelayMs : Nat := 1800
def kDorionGateRetryMs : Nat := 100
def kDorionMaxGateChecks : Nat := 30

inductive DorionKeyboardReclaimResult where
  | replaced
  | foregroundChanged
  | busyTimeout
  | unhookFailed
  | installFailed
  | scheduleFailed
  deriving DecidableEq, Repr

/-- What the system answers while a message is handled. -/
structure Answers where
  /-- The process in the foreground, and again before the replacement. -/
  foreground : DorionProcessIdentity
  foregroundAgain : DorionProcessIdentity
  /-- Nothing if the gate fails with an exception. -/
  evidence : Option DorionReclaimQuietEvidence
  /-- `SetTimer`: a timer, or 0. -/
  timer : Nat
  unhookFails : Bool
  /-- `SetWindowsHookExW`: a hook, or 0. -/
  hook : Nat

/-- The keyboard hooks of the process that the system calls. -/
abbrev Hooks := List Nat

/-- `UnhookWindowsHookEx` and `SetWindowsHookExW`. -/
def replacementOps (answers : Answers) : SingleHookReplacementOps Hooks where
  unhook := some fun handle hooks =>
    if answers.unhookFails then (.failed, hooks)
    else if handle ∈ hooks then (.removed, hooks.filter (· ≠ handle)) else (.alreadyAbsent, hooks)
  install := some fun hooks =>
    if answers.hook ≠ 0 then (answers.hook, answers.hook :: hooks) else (0, hooks)

/-- The result of a replacement. -/
def replacementResult : SingleHookReplacementStatus → DorionKeyboardReclaimResult
  | .replaced => .replaced
  | .unhookFailed => .unhookFailed
  | .installFailed => .installFailed

/-- Set a timer for a ticket. -/
def scheduleTicket (answers : Answers) (nowTickMs : Nat) (slots : DorionDelayedReclaimSlots)
    (ticket : DorionDelayedReclaimTicket) (delayMs : Nat) : Option DorionDelayedReclaimSlots :=
  if answers.timer = 0 then none
  else slots.arm { ticket with timerId := answers.timer, dueTickMs := nowTickMs + delayMs }

/-- A request has reached the pump: the slots, and the result if there is one already. -/
def handleReclaim (answers : Answers) (nowTickMs : Nat) (slots : DorionDelayedReclaimSlots)
    (identity : DorionProcessIdentity) :
    DorionDelayedReclaimSlots × Option DorionKeyboardReclaimResult :=
  if !identity.isValid then (slots, some .scheduleFailed)
  else if slots.hasPending identity then (slots, none)
  else if answers.foreground ≠ identity then (slots, some .foregroundChanged)
  else
    match scheduleTicket answers nowTickMs slots
        { identity, remainingGateChecks := kDorionMaxGateChecks } kDorionInitialDelayMs with
    | none => (slots, some .scheduleFailed)
    | some slots => (slots, none)

/-- What becomes of a ticket that is due: it is armed again, or it has a result.  The hook is
replaced only in the end. -/
inductive DueTicket where
  | armed (slots : DorionDelayedReclaimSlots)
  | finished (result : DorionKeyboardReclaimResult)
  | replace

/-- A ticket is due. -/
def handleDue (answers : Answers) (nowTickMs : Nat) (slots : DorionDelayedReclaimSlots)
    (ticket : DorionDelayedReclaimTicket) : DueTicket :=
  if answers.foreground ≠ ticket.identity then .finished .foregroundChanged
  else if !(answers.evidence.map isDorionReclaimQuiet).getD false then
    if ticket.remainingGateChecks ≤ 1 then .finished .busyTimeout
    else
      match scheduleTicket answers nowTickMs slots
          { ticket with remainingGateChecks := ticket.remainingGateChecks - 1 }
            kDorionGateRetryMs with
      | none => .finished .scheduleFailed
      | some slots => .armed slots
  -- the foreground is read again behind the gate
  else if answers.foregroundAgain ≠ ticket.identity then .finished .foregroundChanged
  else .replace

/-! ## The engine and its hook thread -/

/-- The end of a request. -/
structure Outcome where
  identity : DorionProcessIdentity
  result : DorionKeyboardReclaimResult
  tickMs : Nat

/-- The engine, its hook thread and what the system keeps for them. -/
structure State where
  policy : DorionHookReclaimPolicy := .reset
  /-- The hook thread has been started and not joined. -/
  joinable : Bool := false
  keyboardHook : Nat := 0
  dorionSlots : DorionDelayedReclaimSlots := .clear {}
  /-- The requests that have been posted to the hook thread. -/
  messages : List DorionProcessIdentity := []
  hooks : Hooks := []
  nowTickMs : Nat := 0
  /-- The requests since the start, the last one first, and the ends they have come to. -/
  accepted : List (DorionProcessIdentity × Nat) := []
  outcomes : List Outcome := []

namespace State

/-- The engine is told the result of a request. -/
def report (s : State) (identity : DorionProcessIdentity) (result : DorionKeyboardReclaimResult) :
    State :=
  { s with
    policy := s.policy.complete identity (result == .replaced)
    outcomes := ⟨identity, result, s.nowTickMs⟩ :: s.outcomes }

/-- A window has come to the foreground.  The request may not be posted. -/
def routeFocus (s : State) (exeName : List WChar) (identity : DorionProcessIdentity)
    (dropStale posted : Bool) : State :=
  if dropStale then s
  else
    let (observed, policy) := s.policy.observe exeName identity true
    if observed then
      if s.joinable && identity.isValid && posted then
        { s with
          policy
          messages := s.messages ++ [identity]
          accepted := (identity, s.nowTickMs) :: s.accepted }
      else { s with policy := policy.complete identity false }
    else { s with policy }

/-- The hook thread takes the next request. -/
def reclaimMessage (s : State) (answers : Answers) : State :=
  match s.messages with
  | [] => s
  | identity :: messages =>
      let (dorionSlots, result) := handleReclaim answers s.nowTickMs s.dorionSlots identity
      let s := { s with messages, dorionSlots }
      match result with
      | none => s
      | some result => s.report identity result

/-- The hook thread takes the message of a timer. -/
def timerMessage (s : State) (answers : Answers) (threadTimer : Bool) (timerId : Nat) : State :=
  if threadTimer && s.dorionSlots.hasTimer timerId then
    match s.dorionSlots.takeIfDue timerId s.nowTickMs with
    | none => s
    | some (ticket, dorionSlots) =>
        let s := { s with dorionSlots }
        match handleDue answers s.nowTickMs dorionSlots ticket with
        | .armed dorionSlots => { s with dorionSlots }
        | .finished result => s.report ticket.identity result
        | .replace =>
            let (status, keyboardHook, hooks) :=
              replaceSingleHook (replacementOps answers) s.keyboardHook s.hooks
            { s with keyboardHook, hooks }.report ticket.identity (replacementResult status)
  else s

/-- `HookEngine::Start`: the hook thread installs the hook, or ends at once. -/
def start (s : State) (hook : Nat) : State :=
  if s.joinable then s
  else if hook = 0 then
    { s with policy := .reset, keyboardHook := 0, accepted := [], outcomes := [] }
  else
    { policy := .reset
      joinable := true
      keyboardHook := hook
      dorionSlots := .clear {}
      messages := []
      hooks := hook :: s.hooks
      nowTickMs := s.nowTickMs
      accepted := []
      outcomes := [] }

/-- `HookEngine::Stop`.  The hooks of a thread that has ended are gone. -/
def stop (s : State) : State :=
  { s with
    policy := .reset
    joinable := false
    keyboardHook := 0
    dorionSlots := .clear {}
    messages := []
    hooks := [] }

end State

inductive Event where
  | focus (exeName : List WChar) (identity : DorionProcessIdentity) (dropStale posted : Bool)
  | reclaim (answers : Answers)
  /-- The message may belong to a timer that has been cancelled, or to another one. -/
  | timer (answers : Answers) (threadTimer : Bool) (timerId : Nat)
  | tick (elapsedMs : Nat)
  /-- The system has removed a hook that took too long. -/
  | removed (handle : Nat)
  | start (hook : Nat)
  | stop

/-- The state after an event. -/
def State.next (s : State) : Event → State
  | .focus exeName identity dropStale posted => s.routeFocus exeName identity dropStale posted
  | .reclaim answers => s.reclaimMessage answers
  | .timer answers threadTimer timerId => s.timerMessage answers threadTimer timerId
  | .tick elapsedMs => { s with nowTickMs := s.nowTickMs + elapsedMs }
  | .removed handle => { s with hooks := s.hooks.filter (· ≠ handle) }
  | .start hook => s.start hook
  | .stop => s.stop

/-- The tickets that are armed. -/
def State.tickets (s : State) : List DorionDelayedReclaimTicket :=
  s.dorionSlots.occupied DorionDelayedReclaimTicket.isValid

/-- Only a running hook thread handles messages, and a new timer is none of the timers that run. -/
def State.Admits (s : State) : Event → Prop
  | .focus _ _ _ _ => s.joinable = true
  | .reclaim answers => s.joinable = true ∧ ∀ ticket ∈ s.tickets, ticket.timerId ≠ answers.timer
  | .timer answers _ timerId =>
      s.joinable = true ∧ ∀ ticket ∈ s.tickets, ticket.timerId = answers.timer →
      ticket.timerId = timerId
  | _ => True

instance (s : State) : (event : Event) → Decidable (s.Admits event)
  | .focus _ _ _ _ => inferInstanceAs (Decidable (s.joinable = true))
  | .reclaim answers => inferInstanceAs (Decidable (s.joinable = true ∧
      ∀ ticket ∈ s.tickets, ticket.timerId ≠ answers.timer))
  | .timer answers _ timerId => inferInstanceAs (Decidable (s.joinable = true ∧
      ∀ ticket ∈ s.tickets, ticket.timerId = answers.timer → ticket.timerId = timerId))
  | .tick _ | .removed _ | .start _ | .stop => inferInstanceAs (Decidable True)

def Step (s : State) (event : Event) (s' : State) : Prop := s.Admits event ∧ s' = s.next event

end HookLifecycle

end VKey
