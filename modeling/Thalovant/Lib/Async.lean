import Mathlib.Logic.Function.Basic

/-!
# Tasks that await

Tasks share a state. A task runs without interruption up to an `await`, where it waits for the answer
to a request, and meanwhile any other task may run. Where it waits it may be dropped: then only what
the guards in scope do is done.

What a task does from one await to the next is a section. `Runs` is said of a task, section by section:
each keeps an invariant and is one that the task guarantees, if what the others do meanwhile is what it
relies on. `Pool.Sound.step` is the rule: tasks that rely on no more than the others guarantee keep the
invariant, however they interleave, and every step is a section that its task guarantees.
-/

/-- A task over a state `σ`, with requests `Q`: a tree of all that it may do. -/
inductive Async (σ Q : Type) (A : Q → Type) (α : Type) : Type where
  | done (a : α)
  | step (f : σ → σ) (next : σ → Async σ Q A α)
  /-- `drop` is what is done when the task is dropped here. -/
  | await (q : Q) (drop : σ → σ) (next : A q → Async σ Q A α)

namespace Async

variable {σ Q : Type} {A : Q → Type} {α β : Type}

def bind : Async σ Q A α → (α → Async σ Q A β) → Async σ Q A β
  | done a, f => f a
  | step g next, f => step g fun s => (next s).bind f
  | await q drop next, f => await q drop fun a => (next a).bind f

instance : Monad (Async σ Q A) where
  pure := done
  bind := bind

/-- Read the state. -/
def get : Async σ Q A σ := step id done

/-- Change the state. -/
def modify (f : σ → σ) : Async σ Q A Unit := step f fun _ => done ()

/-- Wait for the answer to a request. -/
def ask (q : Q) : Async σ Q A (A q) := await q id done

/-- With a guard in scope: what it does as the scope ends, however that comes. -/
def guarded (guard : σ → σ) : Async σ Q A α → Async σ Q A α
  | done a => step guard fun _ => done a
  | step f next => step f fun s => (next s).guarded guard
  | await q drop next => await q (guard ∘ drop) fun a => (next a).guarded guard

/-- Go on with the value, or return the error. -/
def andThen {ε : Type} (t : Async σ Q A (Except ε α)) (f : α → Async σ Q A (Except ε β)) :
    Async σ Q A (Except ε β) := do
  match ← t with
  | .error err => return .error err
  | .ok a => f a

/--
A task over a part of the state, as one over the whole. Where it waits it may be cut short: it is dropped
there.
-/
def embed {τ R ε : Type} {B : R → Type} (view : σ → τ) (put : τ → σ → σ) (inject : R → Q)
    (answer : (r : R) → A (inject r) → Except ε (B r)) : Async τ R B α → Async σ Q A (Except ε α)
  | done a => done (.ok a)
  | step f next =>
    step (fun s => put (f (view s)) s) fun s => (next (view s)).embed view put inject answer
  | await r drop next =>
    await (inject r) (fun s => put (drop (view s)) s) fun a =>
      match answer r a with
      | .ok b => (next b).embed view put inject answer
      | .error cut => step (fun s => put (drop (view s)) s) fun _ => done (.error cut)

/-- Run to the next await, or to the end. -/
def advance : Async σ Q A α → σ → Async σ Q A α × σ
  | done a, s => (done a, s)
  | step f next, s => (next s).advance (f s)
  | await q drop next, s => (await q drop next, s)

/-- What the task waits for. -/
def pending : Async σ Q A α → Option Q
  | await q _ _ => some q
  | _ => none

/-! ## Sections -/

/-- What a section begins with. -/
inductive Cause (Q : Type) (A : Q → Type) where
  | begun
  | answered (q : Q) (a : A q)
  | dropped (q : Q)

/-- What the task waited for until the section began. -/
def Cause.asked : Cause Q A → Option Q
  | begun => none
  | answered q _ | dropped q => some q

/-- What a task may be told, keeps, relies on and guarantees. -/
structure Discipline (σ Q : Type) (A : Q → Type) where
  enabled : (q : Q) → A q → σ → Bool
  invariant : σ → Prop
  rely : σ → σ → Prop
  /-- A section: what it began with and where, and what the task then waits for and where. -/
  guarantee : Cause Q A → σ → Option Q → σ → Prop

variable (D : Discipline σ Q A)

/--
Every section is as guaranteed, and the task ends as said. The section under way began in `s₀`, and
`exit` is what the guards in scope around the task do.
-/
def Runs (exit : σ → σ) (post : α → Cause Q A → σ → σ → Prop) :
    Async σ Q A α → Cause Q A → σ → σ → Prop
  | done a, c, s₀, s => post a c s₀ s
  | step f next, c, s₀, s => (next s).Runs exit post c s₀ (f s)
  | await q drop next, c, s₀, s =>
    (D.invariant s ∧ D.guarantee c s₀ (some q) s)
    ∧ ∀ s', D.invariant s' → D.rely s s' →
      (D.invariant (exit (drop s')) ∧ D.guarantee (.dropped q) s' none (exit (drop s')))
      ∧ ∀ a, D.enabled q a s' = true → (next a).Runs exit post (.answered q a) s' s'

variable {D} {exit : σ → σ} {post post' : α → Cause Q A → σ → σ → Prop} {c : Cause Q A} {s₀ s : σ}

@[simp] theorem runs_pure (a : α) :
    (pure a : Async σ Q A α).Runs D exit post c s₀ s ↔ post a c s₀ s := Iff.rfl

theorem Runs.mono {t : Async σ Q A α} (hpost : ∀ a c s₀ s, post a c s₀ s → post' a c s₀ s)
    (h : t.Runs D exit post c s₀ s) : t.Runs D exit post' c s₀ s := by
  induction t generalizing c s₀ s with
  | done a => exact hpost a c s₀ s h
  | step f next ih => exact ih s h
  | await q drop next ih =>
    exact ⟨h.1, fun s' hs hrely => ⟨(h.2 s' hs hrely).1, fun a ha =>
      ih a ((h.2 s' hs hrely).2 a ha)⟩⟩

/-- One task after the other: the second goes on with the section that the first ends in. -/
theorem runs_bind {t : Async σ Q A α} {f : α → Async σ Q A β} {post : β → Cause Q A → σ → σ → Prop} :
    (t >>= f).Runs D exit post c s₀ s
    ↔ t.Runs D exit (fun a c s₀ s => (f a).Runs D exit post c s₀ s) c s₀ s := by
  show (t.bind f).Runs D exit post c s₀ s ↔ _
  induction t generalizing c s₀ s with
  | done a => exact Iff.rfl
  | step g next ih => exact ih s
  | await q drop next ih =>
    exact and_congr_right fun _ => forall₃_congr fun s' _ _ => and_congr_right fun _ =>
      forall₂_congr fun a _ => ih a

theorem runs_get_bind {f : σ → Async σ Q A α} :
    (get >>= f).Runs D exit post c s₀ s ↔ (f s).Runs D exit post c s₀ s := runs_bind

theorem runs_modify_bind {g : σ → σ} {f : Unit → Async σ Q A α} :
    (modify g >>= f).Runs D exit post c s₀ s ↔ (f ()).Runs D exit post c s₀ (g s) := runs_bind

theorem runs_ask_bind {q : Q} {f : A q → Async σ Q A α} :
    (ask q >>= f).Runs D exit post c s₀ s
    ↔ (D.invariant s ∧ D.guarantee c s₀ (some q) s)
      ∧ ∀ s', D.invariant s' → D.rely s s' →
        (D.invariant (exit s') ∧ D.guarantee (.dropped q) s' none (exit s'))
        ∧ ∀ a, D.enabled q a s' = true → (f a).Runs D exit post (.answered q a) s' s' := runs_bind

/-- Inside a guard, its own work comes before that of the guards around it. -/
theorem runs_guarded {guard : σ → σ} {t : Async σ Q A α} :
    (t.guarded guard).Runs D exit post c s₀ s
    ↔ t.Runs D (exit ∘ guard) (fun a c s₀ s => post a c s₀ (guard s)) c s₀ s := by
  induction t generalizing c s₀ s with
  | done a => exact Iff.rfl
  | step f next ih => exact ih s
  | await q drop next ih =>
    exact and_congr_right fun _ => forall₃_congr fun s' _ _ => and_congr_right fun _ =>
      forall₂_congr fun a _ => ih a

theorem runs_andThen {ε : Type} {t : Async σ Q A (Except ε α)} {f : α → Async σ Q A (Except ε β)}
    {post : Except ε β → Cause Q A → σ → σ → Prop}
    (h : t.Runs D exit (fun r c s₀ s => match r with
      | .ok a => (f a).Runs D exit post c s₀ s
      | .error err => post (.error err) c s₀ s) c s₀ s) :
    (andThen t f).Runs D exit post c s₀ s := by
  refine runs_bind.mpr (h.mono fun r c s₀ s hr => ?_)
  cases r <;> exact hr

/-- `P` of a section is enough to wait and to be dropped, and is so of the next as it begins. -/
structure Keeps (D : Discipline σ Q A) (exit : σ → σ) (P : σ → σ → Prop) : Prop where
  waits : ∀ {c s₀ s q}, P s₀ s → D.invariant s ∧ D.guarantee c s₀ (some q) s
  resumes : ∀ {s₀ s s'}, P s₀ s → D.invariant s' → D.rely s s' → P s' s'
  leaves : ∀ {s₀ s q}, P s₀ s → D.invariant (exit s) ∧ D.guarantee (.dropped q) s₀ none (exit s)

theorem Keeps.await {P : σ → σ → Prop} (hK : Keeps D exit P) {q : Q} {drop : σ → σ}
    {f : A q → Async σ Q A α} (h : P s₀ s) (hdrop : ∀ s', P s' s' → P s' (drop s'))
    (hnext : ∀ a s', P s' s' → D.enabled q a s' = true →
      (f a).Runs D exit post (.answered q a) s' s') :
    (Async.await q drop done >>= f).Runs D exit post c s₀ s := by
  rw [runs_bind]
  refine ⟨hK.waits h, fun s' hs' hrely => ?_⟩
  have h' := hK.resumes h hs' hrely
  exact ⟨hK.leaves (hdrop s' h'), fun a ha => hnext a s' h' ha⟩

theorem Keeps.ask {P : σ → σ → Prop} (hK : Keeps D exit P) {q : Q} {f : A q → Async σ Q A α}
    (h : P s₀ s) (hnext : ∀ a s', P s' s' → D.enabled q a s' = true →
      (f a).Runs D exit post (.answered q a) s' s') :
    (Async.ask q >>= f).Runs D exit post c s₀ s := hK.await h (fun _ h => h) hnext

/-- What is kept where nothing is asked of a task. -/
theorem runs_any {τ R : Type} {B : R → Type} {enabled : (r : R) → B r → τ → Bool}
    (t : Async τ R B α) {c : Cause R B} {t₀ t₁ : τ} :
    t.Runs ⟨enabled, fun _ => True, fun _ _ => True, fun _ _ _ _ => True⟩ id (fun _ _ _ _ => True)
      c t₀ t₁ := by
  induction t generalizing c t₀ t₁ with
  | done a => trivial
  | step f next ih => exact ih t₁
  | await r drop next ih => exact ⟨⟨trivial, trivial⟩, fun _ _ _ => ⟨⟨trivial, trivial⟩, fun a _ => ih a⟩⟩

/--
A task over a part of the state, within a section of which `P` is so as long as only that part changes:
what it keeps of the part it keeps of the whole.
-/
theorem Runs.embed {τ R ε : Type} {B : R → Type} {view : σ → τ} {put : τ → σ → σ} {inject : R → Q}
    {answer : (r : R) → A (inject r) → Except ε (B r)} {E : Discipline τ R B} {done : α → τ → τ → Prop}
    {post : Except ε α → Cause Q A → σ → σ → Prop} {P : Cause Q A → σ → σ → Prop}
    (hview : ∀ t s, view (put t s) = t) (hput : ∀ {c s₀ s} t, P c s₀ s → P c s₀ (put t s))
    (hawait : ∀ {c s₀ s r c'}, P c s₀ s → E.invariant (view s) →
      E.guarantee c' (view s₀) (some r) (view s) →
      (D.invariant s ∧ D.guarantee c s₀ (some (inject r)) s)
      ∧ ∀ s', D.invariant s' → D.rely s s' →
        (E.invariant (view s') ∧ E.rely (view s) (view s'))
        ∧ (∀ t, E.invariant t → E.guarantee (.dropped r) (view s') none t →
          (D.invariant (exit (put t s')) ∧ D.guarantee (.dropped (inject r)) s' none (exit (put t s')))
          ∧ ∀ a cut, answer r a = .error cut →
            post (.error cut) (.answered (inject r) a) s' (put t s'))
        ∧ ∀ a, D.enabled (inject r) a s' = true → ∀ b, answer r a = .ok b →
          E.enabled r b (view s') = true ∧ P (.answered (inject r) a) s' s')
    {t : Async τ R B α} {c' : Cause R B}
    (h : t.Runs E id (fun a _ t₀ t => done a t₀ t) c' (view s₀) (view s)) (hP : P c s₀ s)
    (hdone : ∀ a c s₀ s, P c s₀ s → done a (view s₀) (view s) → post (.ok a) c s₀ s) :
    (t.embed view put inject answer).Runs D exit post c s₀ s := by
  induction t generalizing c s₀ s c' with
  | done a => exact hdone a c s₀ s hP h
  | step f next ih =>
    have hstep : (next (view s)).Runs E id (fun a _ t₀ t => done a t₀ t) c' (view s₀)
        (view (put (f (view s)) s)) := by
      rw [hview]
      exact h
    exact ih (view s) hstep (hput _ hP)
  | await r drop next ih =>
    obtain ⟨⟨hinv, hguarantee⟩, hnext⟩ := h
    obtain ⟨hsection, hrest⟩ := hawait hP hinv hguarantee
    unfold Async.embed
    refine ⟨hsection, fun s' hs hrely => ?_⟩
    obtain ⟨⟨hinv', hrely'⟩, hdrop, hanswer⟩ := hrest s' hs hrely
    obtain ⟨⟨hdropped, hdroppedGuarantee⟩, hcontinue⟩ := hnext (view s') hinv' hrely'
    obtain ⟨hdropped, hcut⟩ := hdrop _ hdropped hdroppedGuarantee
    refine ⟨hdropped, fun a ha => ?_⟩
    cases hanswered : answer r a with
    | ok b =>
      obtain ⟨henabled, hP'⟩ := hanswer a ha b hanswered
      simp only [hanswered]
      exact ih b (hcontinue b henabled) hP'
    | error cut =>
      simp only [hanswered]
      exact hcut a cut hanswered

/-- What is so of the section under way when the task waits or is at its end. -/
theorem Runs.advance {t : Async σ Q A α} (h : t.Runs D exit post c s₀ s) :
    (t.advance s).1.Runs D exit post c s₀ (t.advance s).2
    ∧ ∀ f next, (t.advance s).1 ≠ step f next := by
  induction t generalizing c s₀ s with
  | done a => exact ⟨h, fun _ _ h => nomatch h⟩
  | step f next ih => exact ih s h
  | await q drop next ih => exact ⟨h, fun _ _ h => nomatch h⟩

end Async

/-! ## Tasks over one state -/

/-- Which operations there are: when one may begin, and what its task is. -/
structure AsyncSystem (σ Q : Type) (A : Q → Type) (O E : Type) where
  enabled : (q : Q) → A q → σ → Bool
  start : O → σ → Option σ
  program : Nat → O → Async σ Q A Unit
  /-- What happens around the tasks. -/
  world : E → σ → σ

/-- Where a task is. -/
inductive TaskStatus (σ Q : Type) (A : Q → Type) where
  | unborn
  | waiting (q : Q) (drop : σ → σ) (next : A q → Async σ Q A Unit)
  | ended

namespace TaskStatus

variable {σ Q : Type} {A : Q → Type}

def pending : TaskStatus σ Q A → Option Q
  | waiting q _ _ => some q
  | _ => none

/-- A task that has run to its next await. -/
def ofTask : Async σ Q A Unit → TaskStatus σ Q A
  | .await q drop next => .waiting q drop next
  | _ => .ended

end TaskStatus

/-- The tasks, by number, and the state they share. -/
structure Pool (σ Q : Type) (A : Q → Type) where
  state : σ
  task : Nat → TaskStatus σ Q A

inductive PoolEvent (Q : Type) (A : Q → Type) (O E : Type) where
  | start (i : Nat) (op : O)
  /-- The task is answered, whatever it asks. -/
  | answer (i : Nat) (answers : (q : Q) → A q)
  | drop (i : Nat)
  | world (e : E)

/-- The task that takes the step. -/
def PoolEvent.task {Q : Type} {A : Q → Type} {O E : Type} : PoolEvent Q A O E → Option Nat
  | .start i _ | .answer i _ | .drop i => some i
  | .world _ => none

namespace Pool

variable {σ Q : Type} {A : Q → Type} {O E : Type} (S : AsyncSystem σ Q A O E)

/-- Before any task. -/
def new (s : σ) : Pool σ Q A where
  state := s
  task _ := .unborn

/-- A task runs to its next await. -/
def resume (p : Pool σ Q A) (i : Nat) (t : Async σ Q A Unit) (s : σ) : Pool σ Q A where
  state := (t.advance s).2
  task := Function.update p.task i (.ofTask (t.advance s).1)

/-- One step; nothing happens where it cannot be taken. -/
def step (p : Pool σ Q A) : PoolEvent Q A O E → Pool σ Q A
  | .start i op =>
    match p.task i, S.start op p.state with
    | .unborn, some s => p.resume i (S.program i op) s
    | _, _ => p
  | .answer i answers =>
    match p.task i with
    | .waiting q _ next =>
      if S.enabled q (answers q) p.state then p.resume i (next (answers q)) p.state else p
    | _ => p
  | .drop i =>
    match p.task i with
    | .waiting _ drop _ => { state := drop p.state, task := Function.update p.task i .ended }
    | _ => p
  | .world e => { p with state := S.world e p.state }

def run (p : Pool σ Q A) (events : List (PoolEvent Q A O E)) : Pool σ Q A := events.foldl (step S) p

end Pool

/-! ## Cooperation -/

/-- What the tasks of a system keep, and what each relies on and guarantees. -/
structure Cooperation {σ Q : Type} {A : Q → Type} {O E : Type} (S : AsyncSystem σ Q A O E) where
  invariant : σ → Prop
  rely : Nat → σ → σ → Prop
  guarantee : Nat → Async.Cause Q A → σ → Option Q → σ → Prop
  /-- What is so of a task that has not begun. -/
  unborn : Nat → σ → Prop
  rely_refl : ∀ i s, rely i s s
  rely_trans : ∀ {i s s' s''}, rely i s s' → rely i s' s'' → rely i s s''
  /-- A task may rely on what the others guarantee. -/
  others : ∀ {i j c s q s'}, i ≠ j → invariant s → guarantee j c s q s' → rely i s s'
  world : ∀ {e s}, invariant s → invariant (S.world e s) ∧ ∀ i, rely i s (S.world e s)
  unborn_rely : ∀ {i s s'}, rely i s s' → unborn i s → unborn i s'

namespace Cooperation

open Async

variable {σ Q : Type} {A : Q → Type} {O E : Type} {S : AsyncSystem σ Q A O E} (K : Cooperation S)

/-- The discipline of one task. -/
def discipline (i : Nat) : Discipline σ Q A where
  enabled := S.enabled
  invariant := K.invariant
  rely := K.rely i
  guarantee := K.guarantee i

/-- The last section of a task. -/
def Ends (i : Nat) (_ : Unit) (c : Cause Q A) (s₀ s : σ) : Prop :=
  K.invariant s ∧ K.guarantee i c s₀ none s

/-- Every operation keeps to its discipline. -/
def Holds : Prop :=
  ∀ i op s s', K.invariant s → K.unborn i s → S.start op s = some s' →
    (S.program i op).Runs (K.discipline i) id (K.Ends i) .begun s s'

/-- A task that waits can be answered, or dropped, whatever has happened meanwhile. -/
def Waits (i : Nat) (q : Q) (drop : σ → σ) (next : A q → Async σ Q A Unit) (s : σ) : Prop :=
  ∀ s', K.invariant s' → K.rely i s s' →
    (K.invariant (drop s') ∧ K.guarantee i (.dropped q) s' none (drop s'))
    ∧ ∀ a, S.enabled q a s' = true →
      (next a).Runs (K.discipline i) id (K.Ends i) (.answered q a) s' s'

def TaskSound (i : Nat) (s : σ) : TaskStatus σ Q A → Prop
  | .unborn => K.unborn i s
  | .waiting q drop next => K.Waits i q drop next s
  | .ended => True

/-- The invariant holds, and every task can go on. -/
structure Sound (p : Pool σ Q A) : Prop where
  invariant : K.invariant p.state
  task : ∀ i, K.TaskSound i p.state (p.task i)

/-- What a step has done: nothing, or it was a section as its task guarantees them. -/
inductive Stepped (p : Pool σ Q A) : PoolEvent Q A O E → Pool σ Q A → Prop where
  | still (e : PoolEvent Q A O E) (hdrop : ∀ i, e = .drop i → (p.task i).pending = none) :
    Stepped p e p
  | world (e : E) : Stepped p (.world e) { p with state := S.world e p.state }
  | began (i : Nat) (op : O) (p' : Pool σ Q A) (hunborn : p.task i = .unborn)
      (hother : ∀ j, j ≠ i → p'.task j = p.task j)
      (h : K.guarantee i .begun p.state (p'.task i).pending p'.state) : Stepped p (.start i op) p'
  | answered (i : Nat) (answers : (q : Q) → A q) (q : Q) (p' : Pool σ Q A)
      (hpending : (p.task i).pending = some q) (henabled : S.enabled q (answers q) p.state = true)
      (hother : ∀ j, j ≠ i → p'.task j = p.task j)
      (h : K.guarantee i (.answered q (answers q)) p.state (p'.task i).pending p'.state) :
      Stepped p (.answer i answers) p'
  | dropped (i : Nat) (q : Q) (p' : Pool σ Q A) (hpending : (p.task i).pending = some q)
      (hother : ∀ j, j ≠ i → p'.task j = p.task j) (hended : p'.task i = .ended)
      (h : K.guarantee i (.dropped q) p.state none p'.state) : Stepped p (.drop i) p'

variable {K} {p : Pool σ Q A}

/-- One task has run, or none. -/
theorem Stepped.cases {e : PoolEvent Q A O E} {p' : Pool σ Q A} (h : K.Stepped p e p') :
    p' = p ∨ (∃ e', p' = { p with state := S.world e' p.state })
    ∨ ∃ i c, K.guarantee i c p.state (p'.task i).pending p'.state ∧ (∀ j, j ≠ i → p'.task j = p.task j)
      ∧ (∀ q, c.asked = some q → (p.task i).pending = some q) ∧ e.task = some i := by
  cases h with
  | still => exact .inl rfl
  | world e' => exact .inr (.inl ⟨e', rfl⟩)
  | began i op p' hunborn hother h =>
    exact .inr (.inr ⟨i, .begun, h, hother, (fun _ hq => nomatch hq), rfl⟩)
  | answered i answers q p' hpending henabled hother h =>
    exact .inr (.inr ⟨i, _, h, hother, fun _ hq => Option.some.inj hq ▸ hpending, rfl⟩)
  | dropped i q p' hpending hother hended h =>
    refine .inr (.inr ⟨i, .dropped q, ?_, hother, fun _ hq => Option.some.inj hq ▸ hpending, rfl⟩)
    rwa [hended]

theorem TaskSound.rely {i : Nat} {s s' : σ} {task : TaskStatus σ Q A} (h : K.TaskSound i s task)
    (hrely : K.rely i s s') : K.TaskSound i s' task := by
  cases task with
  | unborn => exact K.unborn_rely hrely h
  | waiting q drop next => exact fun s'' hs hrely' => h s'' hs (K.rely_trans hrely hrely')
  | ended => trivial

/-- A task that runs keeps the others going, and itself. -/
theorem Sound.resume (h : K.Sound p) {i : Nat} {t : Async σ Q A Unit} {c : Cause Q A} {s : σ}
    (ht : t.Runs (K.discipline i) id (K.Ends i) c p.state s) :
    K.Sound (p.resume i t s)
    ∧ K.guarantee i c p.state ((p.resume i t s).task i).pending (p.resume i t s).state
    ∧ ∀ j, j ≠ i → (p.resume i t s).task j = p.task j := by
  obtain ⟨hadvance, hstep⟩ := ht.advance
  have hself : (p.resume i t s).task i = .ofTask (t.advance s).1 := Function.update_self _ _ _
  have hother : ∀ j, j ≠ i → (p.resume i t s).task j = p.task j := fun j hj =>
    Function.update_of_ne hj _ _
  have hstate : (p.resume i t s).state = (t.advance s).2 := rfl
  generalize t.advance s = r at hadvance hstep hself hstate
  obtain ⟨t', s'⟩ := r
  have hdone : K.invariant s' ∧ K.guarantee i c p.state ((p.resume i t s).task i).pending s'
      ∧ K.TaskSound i s' ((p.resume i t s).task i) := by
    rw [hself]
    cases t' with
    | done a => exact ⟨hadvance.1, hadvance.2, trivial⟩
    | step f next => exact absurd rfl (hstep f next)
    | await q drop next => exact ⟨hadvance.1.1, hadvance.1.2, hadvance.2⟩
  refine ⟨⟨hstate ▸ hdone.1, fun j => ?_⟩, hstate ▸ hdone.2.1, hother⟩
  by_cases hj : j = i
  · rw [hj, hstate]
    exact hdone.2.2
  · rw [hother j hj, hstate]
    exact (h.task j).rely (K.others hj h.invariant hdone.2.1)

/-- A task that is answered keeps the others going, and itself. -/
theorem Sound.answered (h : K.Sound p) {i : Nat} {q : Q} {answers : (q : Q) → A q}
    (hpending : (p.task i).pending = some q) (henabled : S.enabled q (answers q) p.state = true) :
    K.Sound (p.step S (.answer i answers))
    ∧ K.guarantee i (.answered q (answers q)) p.state
      ((p.step S (.answer i answers)).task i).pending (p.step S (.answer i answers)).state
    ∧ ∀ j, j ≠ i → (p.step S (.answer i answers)).task j = p.task j := by
  cases hwaiting : p.task i with
  | unborn | ended =>
    rw [hwaiting] at hpending
    cases hpending
  | waiting q' drop next =>
    rw [hwaiting] at hpending
    cases hpending
    have htask := h.task i
    rw [hwaiting] at htask
    have hstep : p.step S (.answer i answers) = p.resume i (next (answers q)) p.state := by
      simp only [Pool.step, hwaiting, henabled, if_true]
    rw [hstep]
    exact h.resume ((htask p.state h.invariant (K.rely_refl i p.state)).2 (answers q) henabled)

/-- **Tasks that cooperate keep their invariant, and every step is a section as guaranteed.** -/
theorem Sound.step (hK : K.Holds) (h : K.Sound p) (e : PoolEvent Q A O E) :
    K.Sound (p.step S e) ∧ K.Stepped p e (p.step S e) := by
  cases e with
  | start i op =>
    simp only [Pool.step]
    split
    · next s hunborn hstart =>
      have htask := h.task i
      rw [hunborn] at htask
      obtain ⟨hsound, hguarantee, hother⟩ := h.resume (hK i op _ s h.invariant htask hstart)
      exact ⟨hsound, .began i op _ hunborn hother hguarantee⟩
    · exact ⟨h, .still _ fun _ h => nomatch h⟩
  | answer i answers =>
    cases hpending : (p.task i).pending with
    | none =>
      -- a task that does not wait cannot be answered
      have hstill : p.step S (.answer i answers) = p := by
        simp only [Pool.step]
        split
        · next hwaiting =>
          rw [hwaiting] at hpending
          cases hpending
        · rfl
      rw [hstill]
      exact ⟨h, .still _ fun _ h => nomatch h⟩
    | some q =>
      by_cases henabled : S.enabled q (answers q) p.state = true
      · obtain ⟨hsound, hguarantee, hother⟩ := h.answered hpending henabled
        exact ⟨hsound, .answered i answers q _ hpending henabled hother hguarantee⟩
      · have hstill : p.step S (.answer i answers) = p := by
          simp only [Pool.step]
          split
          · next hwaiting =>
            rw [hwaiting] at hpending
            cases hpending
            rw [if_neg henabled]
          · rfl
        rw [hstill]
        exact ⟨h, .still _ fun _ h => nomatch h⟩
  | drop i =>
    simp only [Pool.step]
    split
    · next q drop next hwaiting =>
      have htask := h.task i
      rw [hwaiting] at htask
      obtain ⟨hinv, hguarantee⟩ := (htask p.state h.invariant (K.rely_refl i p.state)).1
      have hother : ∀ j, j ≠ i → Function.update p.task i TaskStatus.ended j = p.task j :=
        fun j hj => Function.update_of_ne hj _ _
      refine ⟨⟨hinv, fun j => ?_⟩, .dropped i q _ (by rw [hwaiting]; rfl) hother
        (Function.update_self _ _ _) hguarantee⟩
      by_cases hj : j = i
      · rw [hj]
        show K.TaskSound i _ (Function.update p.task i TaskStatus.ended i)
        rw [Function.update_self]
        trivial
      · show K.TaskSound j _ (Function.update p.task i TaskStatus.ended j)
        rw [hother j hj]
        exact (h.task j).rely (K.others hj h.invariant hguarantee)
    · next hnot =>
      refine ⟨h, .still _ fun j hj => ?_⟩
      cases hj
      cases htask : p.task i with
      | waiting q drop next => exact absurd htask (hnot q drop next)
      | _ => rfl
  | world e =>
    obtain ⟨hinv, hrely⟩ := K.world (e := e) h.invariant
    exact ⟨⟨hinv, fun j => (h.task j).rely (hrely j)⟩, .world e⟩

theorem Sound.new {s : σ} (hs : K.invariant s) (hunborn : ∀ i, K.unborn i s) :
    K.Sound (Pool.new s) := ⟨hs, hunborn⟩

/-- Cooperation lasts. -/
theorem Sound.run (hK : K.Holds) (h : K.Sound p) (events : List (PoolEvent Q A O E)) :
    K.Sound (p.run S events) := by
  induction events generalizing p with
  | nil => exact h
  | cons e events ih => exact ih (h.step hK e).1

/-- What every step preserves, where the tasks cooperate, holds at the end of every run. -/
theorem Sound.run_invariant (hK : K.Holds) {P : Pool σ Q A → Prop}
    (hstep : ∀ p e p', K.Sound p → K.Sound p' → K.Stepped p e p' → P p → P p') (h : K.Sound p)
    (hp : P p) (events : List (PoolEvent Q A O E)) : P (p.run S events) := by
  induction events generalizing p with
  | nil => exact hp
  | cons e events ih =>
    obtain ⟨hsound, hstepped⟩ := h.step hK e
    exact ih hsound (hstep p e _ h hsound hstepped hp)

end Cooperation
