import Mathlib.Logic.Relation

/-!
# Programs that call their environment

A program ends with a value or makes a call and goes on with the answer.  What a call does to the
state of the environment is a relation, so that a call may fail, and a program may be stopped
between any two calls.  `Program.Always` says of a program what holds in every state it passes
through and at its end; the rules below take it apart along the program.
-/

namespace VKey

/-- A program with calls. -/
inductive Program (Call : Type) (Answer : Call → Type) (α : Type) : Type where
  | done (value : α)
  | call (c : Call) (next : Answer c → Program Call Answer α)

namespace Program

variable {Call : Type} {Answer : Call → Type} {State α β : Type}

/-- Go on with the value of a program. -/
def bind : Program Call Answer α → (α → Program Call Answer β) → Program Call Answer β
  | done value, f => f value
  | call c next, f => call c fun answer => (next answer).bind f

instance : Monad (Program Call Answer) where
  pure := done
  bind := bind

theorem bind_assoc' {γ : Type} (p : Program Call Answer α) (f : α → Program Call Answer β)
    (g : β → Program Call Answer γ) : p >>= f >>= g = p >>= fun value => f value >>= g := by
  induction p with
  | done value => rfl
  | call c next ih => exact congrArg (call c) (funext ih)

theorem id_map' (p : Program Call Answer α) : id <$> p = p := by
  induction p with
  | done value => rfl
  | call c next ih => exact congrArg (call c) (funext ih)

instance : LawfulMonad (Program Call Answer) :=
  LawfulMonad.mk' _ id_map' (fun _ _ => rfl) bind_assoc'

/-- What a call may answer, and the state it may leave. -/
abbrev Effect (Call : Type) (Answer : Call → Type) (State : Type) :=
  (c : Call) → State → Answer c → State → Prop

/-- One call of a running program. -/
inductive Step (effect : Effect Call Answer State) :
    Program Call Answer α × State → Program Call Answer α × State → Prop
  | call {c : Call} {next : Answer c → Program Call Answer α} {s s' : State} {answer : Answer c}
      (h : effect c s answer s') : Step effect (call c next, s) (next answer, s')

/-- Every state the program passes through satisfies `mid`, and its value and its last state satisfy
`post`. -/
def Always (effect : Effect Call Answer State) (mid : State → Prop) (post : α → State → Prop) :
    Program Call Answer α → State → Prop
  | done value, s => mid s ∧ post value s
  | call c next, s =>
      mid s ∧ ∀ answer s', effect c s answer s' → (next answer).Always effect mid post s'

section Rules

variable {effect weaker : Effect Call Answer State} {mid mid' : State → Prop}
  {post post' : α → State → Prop} {p : Program Call Answer α} {s : State}

theorem Always.now (h : p.Always effect mid post s) : mid s := by
  cases p with
  | done value => exact h.1
  | call c next => exact h.1

theorem always_pure {value : α} (hmid : mid s) (hpost : post value s) :
    (pure value : Program Call Answer α).Always effect mid post s := ⟨hmid, hpost⟩

/-- A sequence: the second program starts where the first one ends. -/
theorem always_bind {f : α → Program Call Answer β} {post : β → State → Prop}
    (h : p.Always effect mid (fun value s => (f value).Always effect mid post s) s) :
    (p >>= f).Always effect mid post s := by
  induction p generalizing s with
  | done value => exact h.2
  | call c next ih => exact ⟨h.1, fun answer s' heffect => ih answer (h.2 answer s' heffect)⟩

/-- Consequence. -/
theorem Always.mono (h : p.Always effect mid post s) (hmid : ∀ s, mid s → mid' s)
    (hpost : ∀ value s, post value s → post' value s) : p.Always effect mid' post' s := by
  induction p generalizing s with
  | done value => exact ⟨hmid s h.1, hpost value s h.2⟩
  | call c next ih =>
      exact ⟨hmid s h.1, fun answer s' heffect => ih answer (h.2 answer s' heffect)⟩

theorem Always.post_mono (h : p.Always effect mid post s)
    (hpost : ∀ value s, mid s → post value s → post' value s) : p.Always effect mid post' s := by
  induction p generalizing s with
  | done value => exact ⟨h.1, hpost value s h.1 h.2⟩
  | call c next ih => exact ⟨h.1, fun answer s' heffect => ih answer (h.2 answer s' heffect)⟩

/-- With fewer effects more holds. -/
theorem Always.effect_mono (h : p.Always weaker mid post s)
    (heffect : ∀ c s answer s', effect c s answer s' → weaker c s answer s') :
    p.Always effect mid post s := by
  induction p generalizing s with
  | done value => exact h
  | call c next ih =>
      exact ⟨h.1, fun answer s' hstep => ih answer (h.2 answer s' (heffect c s answer s' hstep))⟩

theorem Always.step {q : Program Call Answer α} {s' : State} (h : p.Always effect mid post s)
    (hstep : Step effect (p, s) (q, s')) : q.Always effect mid post s' := by
  cases hstep with
  | call heffect => exact h.2 _ _ heffect

/-- What holds of a program holds of what is left of it later. -/
theorem Always.run {q : Program Call Answer α} {s' : State} (h : p.Always effect mid post s)
    (hrun : Relation.ReflTransGen (Step effect) (p, s) (q, s')) : q.Always effect mid post s' := by
  generalize hend : (q, s') = config at hrun
  induction hrun generalizing q s' with
  | refl =>
      obtain ⟨rfl, rfl⟩ := Prod.mk.inj hend
      exact h
  | @tail middle last hrun hstep ih =>
      obtain ⟨r, t⟩ := middle
      subst hend
      exact (ih rfl).step hstep

/-- The program has been stopped. -/
def Stops (effect : Effect Call Answer State) (p : Program Call Answer α) (s s' : State) : Prop :=
  ∃ q, Relation.ReflTransGen (Step effect) (p, s) (q, s')

/-- The program has come to its end. -/
def Ends (effect : Effect Call Answer State) (p : Program Call Answer α) (s : State) (value : α)
    (s' : State) : Prop :=
  Relation.ReflTransGen (Step effect) (p, s) (done value, s')

theorem Always.stops {s' : State} (h : p.Always effect mid post s) (hstops : Stops effect p s s') :
    mid s' := by
  obtain ⟨q, hrun⟩ := hstops
  exact (h.run hrun).now

/-- What a program keeps wherever it is stopped, its restarts keep. -/
theorem restarts_keep {keeps : State → Prop} {s' : State}
    (hkeeps : ∀ s, keeps s → ∃ post, p.Always effect keeps post s)
    (hrestarts : Relation.ReflTransGen (Stops effect p) s s') (h : keeps s) : keeps s' := by
  induction hrestarts with
  | refl => exact h
  | tail _ hstops ih =>
      obtain ⟨post, halways⟩ := hkeeps _ ih
      exact halways.stops hstops

theorem Always.ends {value : α} {s' : State} (h : p.Always effect mid post s)
    (hends : Ends effect p s value s') : post value s' := (h.run hends).2

end Rules

/-! ## Execution -/

section Execution

variable (answer : (c : Call) → State → Option (Answer c × State))

/-- Run a program in an environment with one answer to each call.  Where there is none, the program
is stopped before the call. -/
def exec : Program Call Answer α → State → Option α × State
  | done value, s => (some value, s)
  | call c next, s =>
      match answer c s with
      | some (result, s') => (next result).exec s'
      | none => (none, s)

@[simp] theorem exec_pure (value : α) (s : State) :
    (pure value : Program Call Answer α).exec answer s = (some value, s) := rfl

/-- A sequence: the second program runs where the first one has come to its end. -/
theorem exec_bind (p : Program Call Answer α) (f : α → Program Call Answer β) (s : State) :
    (p >>= f).exec answer s =
      match p.exec answer s with
      | (some value, s') => (f value).exec answer s'
      | (none, s') => (none, s') := by
  induction p generalizing s with
  | done value => rfl
  | call c next ih =>
      change (call c fun result => next result >>= f).exec answer s = _
      rw [exec, exec]
      cases answer c s with
      | none => rfl
      | some result => exact ih result.1 result.2

end Execution

section Total

variable (answer : (c : Call) → State → Answer c × State)

/-- Run a program in an environment that answers every call. -/
def run : Program Call Answer α → State → α × State
  | done value, s => (value, s)
  | call c next, s => (next (answer c s).1).run (answer c s).2

@[simp] theorem run_pure (value : α) (s : State) :
    (pure value : Program Call Answer α).run answer s = (value, s) := rfl

/-- A program comes to its end where every call has an answer. -/
theorem ends_run {effect : Effect Call Answer State}
    {answer : (c : Call) → State → Answer c × State}
    (h : ∀ c s, effect c s (answer c s).1 (answer c s).2) (p : Program Call Answer α) (s : State) :
    Ends effect p s (p.run answer s).1 (p.run answer s).2 := by
  induction p generalizing s with
  | done value => exact .refl
  | call c next ih => exact .head (.call (h c s)) (ih _ _)

/-- A program is stopped where there is no answer. -/
theorem stops_exec {effect : Effect Call Answer State}
    {answer : (c : Call) → State → Option (Answer c × State)}
    (h : ∀ c s result, answer c s = some result → effect c s result.1 result.2)
    (p : Program Call Answer α) (s : State) : Stops effect p s (p.exec answer s).2 := by
  induction p generalizing s with
  | done value => exact ⟨_, .refl⟩
  | call c next ih =>
      rw [exec]
      cases hanswer : answer c s with
      | none => exact ⟨_, .refl⟩
      | some result =>
          obtain ⟨q, hrun⟩ := ih result.1 result.2
          exact ⟨q, .head (.call (h c s result hanswer)) hrun⟩

theorem run_bind (p : Program Call Answer α) (f : α → Program Call Answer β) (s : State) :
    (p >>= f).run answer s = (f (p.run answer s).1).run answer (p.run answer s).2 := by
  induction p generalizing s with
  | done value => rfl
  | call c next ih => exact ih (answer c s).1 (answer c s).2

@[simp] theorem run_map (f : α → β) (p : Program Call Answer α) (s : State) :
    (f <$> p).run answer s = (f (p.run answer s).1, (p.run answer s).2) := by
  rw [map_eq_pure_bind, run_bind, run_pure]

end Total

/-! ## Frames -/

section Frames

variable {P : Call → Prop}

/-- Every call that the program may make has a property. -/
def Calls (P : Call → Prop) : Program Call Answer α → Prop
  | done _ => True
  | call c next => P c ∧ ∀ answer, (next answer).Calls P

theorem calls_bind {p : Program Call Answer α} {f : α → Program Call Answer β} (hp : p.Calls P)
    (hf : ∀ value, (f value).Calls P) : (p >>= f).Calls P := by
  induction p with
  | done value => exact hf value
  | call c next ih => exact ⟨hp.1, fun answer => ih answer (hp.2 answer)⟩

/-- What the calls of a program keep, its run keeps. -/
theorem Calls.run_invariant {answer : (c : Call) → State → Answer c × State} (inv : State → Prop)
    {p : Program Call Answer α} (hp : p.Calls P) (hcalls : ∀ c s, P c → inv s → inv (answer c s).2)
    {s : State} (hinv : inv s) : inv (p.run answer s).2 := by
  induction p generalizing s with
  | done value => exact hinv
  | call c next ih => exact ih _ (hp.2 _) (hcalls c s hp.1 hinv)

end Frames

end Program

end VKey
