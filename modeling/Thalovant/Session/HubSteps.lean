import Mathlib.Data.List.Nodup
import Thalovant.Session.Hub

/-!
# What the operations of a session do

Between two awaits an operation keeps the session sane (`Sane`) and guarantees what the others rely on
(`Guarantee`): what is under the lock is changed by the task that has it, and no client that the
factory has returned is forgotten, other than the one that is held to the settle window. There is one
lemma for each function, said of the section that calls it: it goes on with that section.
-/

namespace Thalovant.Session

open Async

/-! ## What is kept -/

/-- The values of a connection-state callback: `true`, `false`, `true`, and so on. -/
def alternating (n : Nat) : List Bool := (List.range n).map fun k => k % 2 = 0

@[simp] theorem alternating_length (n : Nat) : (alternating n).length = n := by simp [alternating]

theorem alternating_succ (n : Nat) : alternating (n + 1) = alternating n ++ [decide (n % 2 = 0)] := by
  simp [alternating, List.range_succ]

/-- What the callback has been told, and what it was told last as long as it is registered. -/
def Heard (states : Bool) (told : List Bool) (up : Bool) : Prop :=
  told = alternating told.length ∧ (states = true → up = decide (told.length % 2 = 1))

theorem Heard.append {told : List Bool} {up : Bool} (h : Heard true told (!up)) :
    Heard true (told ++ [up]) up := by
  obtain ⟨htold, hup⟩ := h
  have hparity : decide (told.length % 2 = 0) = up ∧ decide ((told.length + 1) % 2 = 1) = up := by
    have hup := hup rfl
    rcases Nat.mod_two_eq_zero_or_one told.length with hmod | hmod <;> cases up <;>
      simp [hmod, Nat.add_mod] at hup ⊢
  unfold Heard
  rw [List.length_append, List.length_singleton, alternating_succ, hparity.1]
  exact ⟨congrArg (· ++ [up]) htold, fun _ => hparity.2.symm⟩

/-- The client is held, or to be retired, or has been closed. -/
def Accounts (s : Inner) (x : Nat) : Prop :=
  s.held.client = some x ∨ s.held.retired = some x ∨ x ∈ s.seen.shut

/-- The invariant of a session. -/
structure Sane (s : Inner) : Prop where
  exclusive : s.held.client.isSome = true → s.held.retired = none
  reports : s.hasClient = s.held.client.isSome
  heard : Heard s.states s.seen.told s.hasClient
  bound : ∀ x, Accounts s x → x < s.seen.built
  begun : (s.seen.begun.map Prod.fst).Nodup
  shutDown : s.shutDown = true → s.closed = true ∧ s.held.client = none

/-- What only the task that has the lock changes. -/
def Inner.guarded (s : Inner) : Held × UInt64 × Retry × Bool × Seen :=
  (s.held, s.generation, s.retry, s.hasClient, s.seen)

/-- The client that a task holds to the settle window when it waits for this. -/
def handOf : Option Request → Option Nat
  | some (.settled x) => some x
  | _ => none

/-- The client that was held to the settle window when the section began with its outcome. -/
def causeHand : Cause Request Answer → Option Nat
  | .answered (.settled x) _ => some x
  | _ => none

/--
What a task has done in a section so far. The client that it has in hand is neither held nor retired
yet, and nothing else is forgotten.
-/
structure Section (i : Nat) (c : Cause Request Answer) (s₀ : Inner) (hand : Option Nat) (s : Inner) :
    Prop where
  lock : s₀.lock ≠ some i → s₀.lock ≠ none → s.guarded = s₀.guarded ∧ s.lock = s₀.lock
  owner : ∀ j, s.lock = some j → j = i ∨ s₀.lock = some j
  closed : s₀.closed = true → s.closed = true
  late : s₀.closed = true → ∀ x, s.held.client = some x → s₀.held.client = some x
  keeps : ∀ x, Accounts s₀ x → Accounts s x
  gone : ∀ x, s.held.client = some x → s₀.held.client = some x ∨ ¬ Accounts s₀ x
  built : s₀.seen.built ≤ s.seen.built
  fresh : ∀ x, s₀.seen.built ≤ x → x < s.seen.built → Accounts s x ∨ hand = some x
  settles : ∀ x, causeHand c = some x → Accounts s x ∨ hand = some x
  origin : ∀ x, Accounts s x ∨ hand = some x →
    Accounts s₀ x ∨ causeHand c = some x ∨ s₀.seen.built ≤ x

/-- The client on which an operation has failed, with an error that is not spared. -/
def failedOn : Cause Request Answer → Option Nat
  | .answered (.operation x) (.error err) => if spared err then none else some x
  | _ => none

/-- The operations that have begun, when the task then waits for this. -/
def Begins (i : Nat) (s₀ : Inner) : Option Request → Inner → Prop
  | some (.operation x), s => s.held.client = some x ∧ s.seen.begun = (i, x) :: s₀.seen.begun
  | _, s => s.seen.begun = s₀.seen.begun

/-- What a task guarantees of a section. -/
structure Guarantee (i : Nat) (c : Cause Request Answer) (s₀ : Inner) (stop : Option Request)
    (s : Inner) : Prop where
  done : Section i c s₀ (handOf stop) s
  begun : Begins i s₀ stop s
  paid : ∀ x, failedOn c = some x → Accounts s x ∧ s.held.client ≠ some x
  inHand : ∀ x, handOf stop = some x → x < s.seen.built ∧ ¬ Accounts s x

/-- What a task relies on. -/
structure Rely (i : Nat) (s s' : Inner) : Prop where
  lock : s.lock = some i → s'.guarded = s.guarded ∧ s'.lock = some i
  unlock : s.lock ≠ some i → s'.lock ≠ some i
  closed : s.closed = true → s'.closed = true
  begun : i ∉ s.seen.begun.map Prod.fst → i ∉ s'.seen.begun.map Prod.fst

/-- A task that has not begun has no lock and no operation. -/
def Unborn (i : Nat) (s : Inner) : Prop := s.lock ≠ some i ∧ i ∉ s.seen.begun.map Prod.fst

theorem guarded_held {s s' : Inner} (h : s'.guarded = s.guarded) : s'.held = s.held :=
  congrArg Prod.fst h

theorem guarded_seen {s s' : Inner} (h : s'.guarded = s.guarded) : s'.seen = s.seen :=
  congrArg (fun g => g.2.2.2.2) h

theorem accounts_of_guarded {s s' : Inner} (h : s'.guarded = s.guarded) (x : Nat) :
    Accounts s' x ↔ Accounts s x := by
  unfold Accounts
  rw [guarded_held h, guarded_seen h]

theorem Rely.refl (i : Nat) (s : Inner) : Rely i s s :=
  ⟨fun h => ⟨rfl, h⟩, fun h => h, fun h => h, fun h => h⟩

theorem Rely.trans {i : Nat} {s s' s'' : Inner} (h : Rely i s s') (h' : Rely i s' s'') :
    Rely i s s'' where
  lock hi := by
    obtain ⟨hsame, hi'⟩ := h.lock hi
    obtain ⟨hsame', hi''⟩ := h'.lock hi'
    exact ⟨hsame'.trans hsame, hi''⟩
  unlock hi := h'.unlock (h.unlock hi)
  closed hc := h'.closed (h.closed hc)
  begun hi := h'.begun (h.begun hi)

/-- One task relies on what another guarantees. -/
theorem Guarantee.rely {i j : Nat} {c : Cause Request Answer} {s s' : Inner} {stop : Option Request}
    (hij : i ≠ j) (h : Guarantee j c s stop s') : Rely i s s' where
  lock hi := by
    obtain ⟨hsame, hlock⟩ := h.done.lock (by rw [hi]; simpa using hij) (by rw [hi]; simp)
    exact ⟨hsame, hlock.trans hi⟩
  unlock hi hi' := by
    rcases h.done.owner i hi' with hi'' | hi''
    · exact hij hi''
    · exact hi hi''
  closed := h.done.closed
  begun hi := by
    have hbegun := h.begun
    unfold Begins at hbegun
    split at hbegun
    · rw [hbegun.2, List.map_cons, List.mem_cons]
      rintro (rfl | hi')
      · exact hij rfl
      · exact hi hi'
    · rwa [hbegun]

/-- A change that nothing under the lock sees, and that neither closes the session nor ends it. -/
structure Aside (s s₁ : Inner) : Prop where
  guarded : s₁.guarded = s.guarded
  lock : s₁.lock = s.lock
  closed : s₁.closed = s.closed
  states : s₁.states = s.states
  shutDown : s₁.shutDown = s.shutDown

theorem aside_around (e : Around) (s : Inner) : Aside s (around e s) := by
  cases e <;> exact ⟨rfl, rfl, rfl, rfl, rfl⟩

theorem rely_around (i : Nat) (e : Around) (s : Inner) : Rely i s (around e s) := by
  cases e <;> exact ⟨fun h => ⟨rfl, h⟩, fun h => h, fun h => h, fun h => h⟩

theorem Sane.of_guarded {s s₁ : Inner} (h : Sane s) (hguarded : s₁.guarded = s.guarded)
    (hstates : s₁.states = true → s.states = true)
    (hdown : s₁.shutDown = true → s₁.closed = true ∧ s₁.held.client = none) : Sane s₁ := by
  have hhas : s₁.hasClient = s.hasClient := congrArg (fun g => g.2.2.2.1) hguarded
  have hheld := guarded_held hguarded
  have hseen := guarded_seen hguarded
  refine ⟨?_, ?_, ?_, fun x hx => ?_, ?_, hdown⟩
  · rw [hheld]
    exact h.exclusive
  · rw [hhas, hheld]
    exact h.reports
  · rw [hseen, hhas]
    exact ⟨h.heard.1, fun hs => h.heard.2 (hstates hs)⟩
  · rw [hseen]
    exact h.bound x ((accounts_of_guarded hguarded x).mp hx)
  · rw [hseen]
    exact h.begun

theorem Sane.aside {s s₁ : Inner} (h : Sane s) (hsame : Aside s s₁) : Sane s₁ := by
  refine h.of_guarded hsame.guarded (fun hs => hsame.states ▸ hs) fun hs => ?_
  rw [hsame.closed, guarded_held hsame.guarded]
  exact h.shutDown (hsame.shutDown ▸ hs)

/-- How the tasks of a session cooperate. -/
def cooperation : Cooperation hubSession where
  invariant := Sane
  rely := Rely
  guarantee := Guarantee
  unborn := Unborn
  rely_refl := Rely.refl
  rely_trans := Rely.trans
  others hij _ h := h.rely hij
  world h := ⟨h.aside (aside_around _ _), fun i => rely_around i _ _⟩
  unborn_rely hrely h := ⟨hrely.unlock h.1, hrely.begun h.2⟩

/-! ## Under the lock -/

/--
A task in a section, with the lock. What it has in hand is its own, and it has not begun an operation
if it is `idle`.
-/
structure Locked (i : Nat) (idle : Prop) (c : Cause Request Answer) (s₀ : Inner) (hand : Option Nat)
    (s : Inner) : Prop where
  sane : Sane s
  lock : s.lock = some i
  done : Section i c s₀ hand s
  begun : s.seen.begun = s₀.seen.begun
  owes : ∀ x, failedOn c = some x → Accounts s x
  idle : idle → i ∉ s.seen.begun.map Prod.fst
  inHand : ∀ x, hand = some x → x < s.seen.built ∧ ¬ Accounts s x

/-- The client on which an operation has failed is let go of. -/
structure Holding (i : Nat) (idle : Prop) (c : Cause Request Answer) (s₀ : Inner) (hand : Option Nat)
    (s : Inner) : Prop extends Locked i idle c s₀ hand s where
  paid : ∀ x, failedOn c = some x → s.held.client ≠ some x

variable {i : Nat} {idle : Prop} {c : Cause Request Answer} {s₀ s : Inner} {hand : Option Nat}

/-- What a section that begins with an answer has done at first. -/
theorem Section.refl (i : Nat) (c : Cause Request Answer) (s : Inner) :
    Section i c s (causeHand c) s where
  lock _ _ := ⟨rfl, rfl⟩
  owner _ h := .inr h
  closed h := h
  late _ _ h := h
  keeps _ h := h
  gone _ h := .inl h
  built := Nat.le_refl _
  fresh _ h h' := absurd h (Nat.not_le.mpr h')
  settles _ h := .inr h
  origin _ h := h.imp_right .inl

/-- A change under the lock. -/
theorem Locked.change (h : Locked i idle c s₀ hand s) {s₁ : Inner} {hand₁ : Option Nat}
    (hsane : Sane s₁) (hlock : s₁.lock = s.lock) (hclosed : s₁.closed = s.closed)
    (hlate : s.closed = true → ∀ x, s₁.held.client = some x → s.held.client = some x)
    (hgone : ∀ x, s₁.held.client = some x → s.held.client = some x ∨ ¬ Accounts s x)
    (hbegun : s₁.seen.begun = s.seen.begun) (hkeeps : ∀ x, Accounts s x → Accounts s₁ x)
    (hbuilt : s.seen.built ≤ s₁.seen.built)
    (hfresh : ∀ x, hand = some x ∨ s.seen.built ≤ x ∧ x < s₁.seen.built →
      Accounts s₁ x ∨ hand₁ = some x)
    (horigin : ∀ x, Accounts s₁ x ∨ hand₁ = some x →
      Accounts s x ∨ hand = some x ∨ s.seen.built ≤ x)
    (hinHand : ∀ x, hand₁ = some x → x < s₁.seen.built ∧ ¬ Accounts s₁ x) :
    Locked i idle c s₀ hand₁ s₁ where
  sane := hsane
  lock := hlock.trans h.lock
  done := {
    lock := fun hi hnone => by
      -- the task has got the lock, so no other had it when the section began
      exact absurd ((h.done.lock hi hnone).2.symm.trans h.lock) hi
    owner := fun j hj => h.done.owner j (hlock ▸ hj)
    closed := fun hc => hclosed.trans (h.done.closed hc)
    late := fun hc x hx => h.done.late hc x (hlate (h.done.closed hc) x hx)
    keeps := fun x hx => hkeeps x (h.done.keeps x hx)
    gone := fun x hx => (hgone x hx).elim (h.done.gone x) fun hnot =>
      .inr fun hx => hnot (h.done.keeps x hx)
    built := h.done.built.trans hbuilt
    fresh := fun x hx hx' => by
      by_cases hnew : x < s.seen.built
      · rcases h.done.fresh x hx hnew with hx | hx
        · exact .inl (hkeeps x hx)
        · exact hfresh x (.inl hx)
      · exact hfresh x (.inr ⟨Nat.not_lt.mp hnew, hx'⟩)
    settles := fun x hx => by
      rcases h.done.settles x hx with hx | hx
      · exact .inl (hkeeps x hx)
      · exact hfresh x (.inl hx)
    origin := fun x hx => by
      rcases horigin x hx with hx | hx | hx
      · exact h.done.origin x (.inl hx)
      · exact h.done.origin x (.inr hx)
      · exact .inr (.inr (h.done.built.trans hx)) }
  begun := hbegun.trans h.begun
  owes x hx := hkeeps x (h.owes x hx)
  idle hi := by
    rw [hbegun]
    exact h.idle hi
  inHand := hinHand

theorem Holding.change (h : Holding i idle c s₀ hand s) {s₁ : Inner} {hand₁ : Option Nat}
    (hsane : Sane s₁) (hlock : s₁.lock = s.lock) (hclosed : s₁.closed = s.closed)
    (hlate : s.closed = true → ∀ x, s₁.held.client = some x → s.held.client = some x)
    (hgone : ∀ x, s₁.held.client = some x → s.held.client = some x ∨ ¬ Accounts s x)
    (hbegun : s₁.seen.begun = s.seen.begun) (hkeeps : ∀ x, Accounts s x → Accounts s₁ x)
    (hbuilt : s.seen.built ≤ s₁.seen.built)
    (hfresh : ∀ x, hand = some x ∨ s.seen.built ≤ x ∧ x < s₁.seen.built →
      Accounts s₁ x ∨ hand₁ = some x)
    (horigin : ∀ x, Accounts s₁ x ∨ hand₁ = some x →
      Accounts s x ∨ hand = some x ∨ s.seen.built ≤ x)
    (hinHand : ∀ x, hand₁ = some x → x < s₁.seen.built ∧ ¬ Accounts s₁ x) :
    Holding i idle c s₀ hand₁ s₁ where
  toLocked := h.toLocked.change hsane hlock hclosed hlate hgone hbegun hkeeps hbuilt hfresh horigin
    hinHand
  paid x hx hx' := (hgone x hx').elim (h.paid x hx) fun hnot => hnot (h.owes x hx)

/-- The lock is kept across an await. -/
theorem Holding.resumed {q : Request} {a : Answer q} {s' : Inner}
    (h : Holding i idle c s₀ (handOf (some q)) s) (hsane : Sane s') (hrely : Rely i s s')
    (hhand : causeHand (.answered q a) = handOf (some q)) (hpaid : failedOn (.answered q a) = none) :
    Holding i idle (.answered q a) s' (handOf (some q)) s' ∧ s'.guarded = s.guarded := by
  obtain ⟨hguarded, hlock⟩ := hrely.lock h.lock
  refine ⟨⟨⟨hsane, hlock, hhand ▸ Section.refl i _ s', rfl, ?_, ?_, ?_⟩, ?_⟩, hguarded⟩
  · rw [hpaid]
    exact fun _ h => nomatch h
  · rw [guarded_seen hguarded]
    exact h.idle
  · intro x hx
    rw [guarded_seen hguarded, accounts_of_guarded hguarded]
    exact h.inHand x hx
  · rw [hpaid]
    exact fun _ h => nomatch h

/-- The guards in scope give the lock back, and may end a warming. -/
def Exits (i : Nat) (exit : Inner → Inner) : Prop :=
  ∀ s q, Sane s → s.lock = some i →
    Sane (exit s) ∧ Guarantee i (.dropped q) s none (exit s)

/-- A task that has the lock waits for something other than an operation. -/
theorem runs_ask {α : Type} {q : Request} {f : Answer q → Task α} {exit : Inner → Inner}
    {post : α → Cause Request Answer → Inner → Inner → Prop} (hexit : Exits i exit)
    (hq : ∀ x, q ≠ .operation x) (h : Holding i idle c s₀ (handOf (some q)) s)
    (hnext : ∀ a s', Holding i idle (.answered q a) s' (handOf (some q)) s' →
      s'.guarded = s.guarded → (s.closed = true → s'.closed = true) →
      (f a).Runs (cooperation.discipline i) exit post (.answered q a) s' s') :
    (Async.ask q >>= f).Runs (cooperation.discipline i) exit post c s₀ s := by
  rw [runs_ask_bind]
  refine ⟨⟨h.sane, h.done, ?_, fun x hx => ⟨h.owes x hx, h.paid x hx⟩, h.inHand⟩,
    fun s' hsane hrely => ⟨?_, fun a _ => ?_⟩⟩
  · cases q with
    | operation x => exact absurd rfl (hq x)
    | _ => exact h.begun
  · exact hexit s' q hsane (hrely.lock h.lock).2
  · have hhand : causeHand (.answered q a) = handOf (some q) := by cases q <;> rfl
    have hpaid : failedOn (.answered q a) = none := by
      cases q with
      | operation x => exact absurd rfl (hq x)
      | _ => rfl
    obtain ⟨hholding, hguarded⟩ := h.resumed hsane hrely hhand hpaid
    exact hnext a s' hholding hguarded hrely.closed

/-! ## The changes under the lock -/

theorem Locked.unrelay (h : Locked i idle c s₀ hand s) : Locked i idle c s₀ hand (unrelay s) := by
  have hsane := h.sane
  exact h.change
    ⟨hsane.exclusive, hsane.reports, hsane.heard, hsane.bound, hsane.begun, hsane.shutDown⟩ rfl rfl
    (fun _ _ hx => hx) (fun _ hx => .inl hx) rfl (fun _ hx => hx) (Nat.le_refl _)
    (fun x hx => hx.elim .inr fun hx => absurd hx.1 (Nat.not_le.mpr hx.2))
    (fun x hx => hx.imp_right .inl) h.inHand

theorem Holding.backOff (h : Holding i idle c s₀ hand s) : Holding i idle c s₀ hand (backOff s) := by
  have hsane := h.sane
  exact h.change
    ⟨hsane.exclusive, hsane.reports, hsane.heard, hsane.bound, hsane.begun, hsane.shutDown⟩ rfl rfl
    (fun _ _ hx => hx) (fun _ hx => .inl hx) rfl (fun _ hx => hx) (Nat.le_refl _)
    (fun x hx => hx.elim .inr fun hx => absurd hx.1 (Nat.not_le.mpr hx.2))
    (fun x hx => hx.imp_right .inl) h.inHand

/-- The callback's values after it has been told, if it is registered. -/
theorem Heard.announce {s : Inner} {up : Bool} (h : Heard s.states s.seen.told (!up)) :
    ∃ told, announce up s = { s with seen := { s.seen with told := told } }
      ∧ Heard s.states told up := by
  unfold Session.announce
  by_cases hstates : s.states = true
  · rw [hstates] at h
    rw [if_pos hstates, hstates]
    exact ⟨s.seen.told ++ [up], rfl, h.append⟩
  · rw [if_neg hstates]
    exact ⟨s.seen.told, rfl, h.1, fun h => absurd h hstates⟩

/-- Letting go of the held client. -/
theorem retireClient_eq (h : Sane s) {x : Nat} (hx : s.held.client = some x) :
    ∃ told, retireClient x s = { s with
        held := { s.held with client := none, retired := some x }
        hasClient := false
        seen := { s.seen with told := told } }
      ∧ Heard s.states told false := by
  have hhas : s.hasClient = true := by
    rw [h.reports, hx]
    rfl
  have hheard := h.heard
  rw [hhas] at hheard
  obtain ⟨told, htold, hheard'⟩ := @Heard.announce
    { s with held := { s.held with client := none }, hasClient := false } false hheard
  refine ⟨told, ?_, hheard'⟩
  unfold retireClient
  simp only [hhas, if_true, htold]

theorem Locked.retireClient (h : Locked i idle c s₀ none s) {x : Nat}
    (hx : s.held.client = some x) : Holding i idle c s₀ none (retireClient x s)
      ∧ (Session.retireClient x s).held.client = none := by
  obtain ⟨told, heq, hheard⟩ := retireClient_eq h.sane hx
  have hsane := h.sane
  have hretired : s.held.retired = none := hsane.exclusive (by rw [hx]; rfl)
  rw [heq]
  have haccounts : ∀ y, Accounts { s with
      held := { s.held with client := none, retired := some x }
      hasClient := false
      seen := { s.seen with told := told } } y ↔ Accounts s y := by
    intro y
    simp [Accounts, hx, hretired]
  refine ⟨⟨h.change ⟨(fun h => nomatch h), rfl, hheard, ?_, hsane.begun, ?_⟩ rfl rfl ?_ ?_ rfl
    (fun y hy => (haccounts y).mpr hy) (Nat.le_refl _) ?_ ?_ (fun _ hy => nomatch hy), ?_⟩, rfl⟩
  · exact fun y hy => hsane.bound y ((haccounts y).mp hy)
  · exact fun hs => ⟨(hsane.shutDown hs).1, rfl⟩
  · rintro - y ⟨⟩
  · rintro y ⟨⟩
  · rintro y (hy | hy)
    · cases hy
    · exact absurd hy.1 (Nat.not_le.mpr hy.2)
  · rintro y (hy | hy)
    · exact .inl ((haccounts y).mp hy)
    · cases hy
  · rintro y - ⟨⟩

/-- The retired client has been closed. -/
theorem Holding.forget (h : Holding i idle c s₀ none s) {x : Nat} (hx : s.held.retired = some x) :
    Holding i idle c s₀ none (forget x s) := by
  have hsane := h.sane
  have haccounts : ∀ y, Accounts (Session.forget x s) y ↔ Accounts s y := by
    intro y
    simp [Accounts, Session.forget, hx, eq_comm]
  refine h.change ⟨fun _ => rfl, hsane.reports, hsane.heard, ?_, hsane.begun, hsane.shutDown⟩ rfl rfl
    (fun _ _ hy => hy) (fun _ hy => .inl hy) rfl (fun y hy => (haccounts y).mpr hy) (Nat.le_refl _)
    ?_ ?_ fun _ hy => nomatch hy
  · exact fun y hy => hsane.bound y ((haccounts y).mp hy)
  · rintro y (hy | hy)
    · cases hy
    · exact absurd hy.1 (Nat.not_le.mpr hy.2)
  · rintro y (hy | hy)
    · exact .inl ((haccounts y).mp hy)
    · cases hy

/-- The client in hand is accounted for, and no other comes or goes. -/
theorem placed_of_accounts {x : Nat} {s₁ : Inner}
    (haccounts : ∀ y, Accounts s₁ y ↔ Accounts s y ∨ y = x) (hbuilt : s₁.seen.built = s.seen.built) :
    (∀ y, some x = some y ∨ s.seen.built ≤ y ∧ y < s₁.seen.built →
      Accounts s₁ y ∨ none = some y)
    ∧ ∀ y, Accounts s₁ y ∨ none = some y → Accounts s y ∨ some x = some y ∨ s.seen.built ≤ y := by
  constructor
  · rintro y (hy | hy)
    · exact .inl ((haccounts y).mpr (.inr (Option.some.inj hy).symm))
    · exact absurd hy.1 (Nat.not_le.mpr (hbuilt ▸ hy.2))
  · rintro y (hy | hy)
    · rcases (haccounts y).mp hy with hy | rfl
      · exact .inl hy
      · exact .inr (.inl rfl)
    · cases hy

/-- The client in hand is retired. -/
theorem Holding.retire {x : Nat} (h : Holding i idle c s₀ (some x) s)
    (hclient : s.held.client = none) (hretired : s.held.retired = none) :
    Holding i idle c s₀ none (retire x s) := by
  have hsane := h.sane
  have haccounts : ∀ y, Accounts (Session.retire x s) y ↔ Accounts s y ∨ y = x := by
    intro y
    simp [Accounts, Session.retire, hclient, hretired, eq_comm, or_comm]
  have hplaced := placed_of_accounts haccounts rfl
  refine h.change ⟨?_, hsane.reports, hsane.heard, ?_, hsane.begun, hsane.shutDown⟩ rfl rfl
    (fun _ _ hy => hy) (fun _ hy => .inl hy) rfl (fun y hy => (haccounts y).mpr (.inl hy))
    (Nat.le_refl _) ?_ ?_ fun _ hy => nomatch hy
  · intro hsome
    rw [show (Session.retire x s).held.client = none from hclient] at hsome
    cases hsome
  · intro y hy
    rcases (haccounts y).mp hy with hy | rfl
    · exact hsane.bound y hy
    · exact (h.inHand y rfl).1
  · exact hplaced.1
  · exact hplaced.2

/-- The client in hand is held. -/
theorem Holding.hold {x : Nat} (h : Holding i idle c s₀ (some x) s)
    (hclient : s.held.client = none) (hretired : s.held.retired = none)
    (hclosed : s.closed = false) :
    Holding i idle c s₀ none (hold x s) ∧ (Session.hold x s).held.client = some x := by
  have hsane := h.sane
  have hhas : s.hasClient = false := by
    rw [hsane.reports, hclient]
    rfl
  have hheard := hsane.heard
  rw [hhas] at hheard
  obtain ⟨told, htold, hheard'⟩ := @Heard.announce { s with
    generation := s.generation + 1
    held := { s.held with relay := some (s.generation + 1), client := some x }
    retry := { due := none, wait := s.policy.retry }
    hasClient := true } true hheard
  have heq : Session.hold x s = { s with
      generation := s.generation + 1
      held := { s.held with relay := some (s.generation + 1), client := some x }
      retry := { due := none, wait := s.policy.retry }
      hasClient := true
      seen := { s.seen with told := told } } := by
    unfold Session.hold
    simp only [hhas, Bool.false_eq_true, if_false, htold]
  rw [heq]
  have haccounts : ∀ y, Accounts { s with
      generation := s.generation + 1
      held := { s.held with relay := some (s.generation + 1), client := some x }
      retry := { due := none, wait := s.policy.retry }
      hasClient := true
      seen := { s.seen with told := told } } y ↔ Accounts s y ∨ y = x := by
    intro y
    simp [Accounts, hclient, hretired, eq_comm, or_comm]
  have hplaced := placed_of_accounts haccounts rfl
  obtain ⟨hbuilt, hnot⟩ := h.inHand x rfl
  refine ⟨h.change ⟨fun _ => hretired, rfl, hheard', ?_, hsane.begun, ?_⟩ rfl rfl ?_ ?_ rfl
    (fun y hy => (haccounts y).mpr (.inl hy)) (Nat.le_refl _) ?_ ?_ (fun _ hy => nomatch hy), rfl⟩
  · intro y hy
    rcases (haccounts y).mp hy with hy | rfl
    · exact hsane.bound y hy
    · exact hbuilt
  · intro hs
    rw [(hsane.shutDown hs).1] at hclosed
    cases hclosed
  · intro hc
    rw [hclosed] at hc
    cases hc
  · rintro y ⟨⟩
    exact .inr hnot
  · exact hplaced.1
  · exact hplaced.2

/-- The client that the factory has returned is in hand. -/
theorem Holding.build (h : Holding i idle c s₀ none s) :
    Holding i idle c s₀ (some s.seen.built) (build s) := by
  have hsane := h.sane
  refine h.change ⟨hsane.exclusive, hsane.reports, hsane.heard, ?_, hsane.begun, hsane.shutDown⟩
    rfl rfl (fun _ _ hy => hy) (fun _ hy => .inl hy) rfl (fun _ hy => hy) (Nat.le_succ _) ?_ ?_ ?_
  · exact fun y hy => Nat.lt_succ_of_lt (hsane.bound y hy)
  · rintro y (hy | ⟨hle, hlt⟩)
    · cases hy
    · exact .inr (congrArg some (Nat.le_antisymm hle (Nat.le_of_lt_succ hlt)))
  · rintro y (hy | hy)
    · exact .inl hy
    · exact .inr (.inr (Nat.le_of_eq (Option.some.inj hy)))
  · rintro y ⟨⟩
    exact ⟨Nat.lt_succ_self _, fun hy => Nat.lt_irrefl _ (hsane.bound _ hy)⟩

/-! ## The functions under the lock -/

section Functions

variable {α : Type} {exit : Inner → Inner}

theorem runs_cleanup {post : Result Unit → Cause Request Answer → Inner → Inner → Prop}
    (hexit : Exits i exit) (h : Holding i idle c s₀ none s)
    (hok : ∀ c s₀ s', Holding i idle c s₀ none s' → s'.held.client = s.held.client →
      s'.held.retired = none → (s.closed = true → s'.closed = true) → post (.ok ()) c s₀ s')
    (herr : ∀ err c s₀ s', Holding i idle c s₀ none s' → s'.held.client = s.held.client →
      (s.closed = true → s'.closed = true) → post (.error err) c s₀ s') :
    cleanup.Runs (cooperation.discipline i) exit post c s₀ s := by
  unfold cleanup
  rw [runs_get_bind]
  cases hretired : s.held.retired with
  | none => exact hok c s₀ s h rfl hretired fun hc => hc
  | some x =>
    refine runs_ask hexit (fun _ => by simp) h fun r s' h' hguarded hclosed => ?_
    have hheld := guarded_held hguarded
    cases r with
    | error err => exact herr err _ _ s' h' (by rw [hheld]) hclosed
    | ok a =>
      rw [runs_modify_bind]
      exact hok _ _ _ (h'.forget (by rw [hheld, hretired])) (by rw [← hheld]; rfl) rfl hclosed

theorem runs_dropClient {post : Result Unit → Cause Request Answer → Inner → Inner → Prop}
    (hexit : Exits i exit) (h : Locked i idle c s₀ none s)
    (hdone : ∀ r c s₀ s', Holding i idle c s₀ none s' → s'.held.client = none →
      (r = .ok () → s'.held.retired = none) → (s.closed = true → s'.closed = true) →
      post r c s₀ s') :
    dropClient.Runs (cooperation.discipline i) exit post c s₀ s := by
  unfold dropClient
  rw [runs_modify_bind, runs_get_bind]
  have h₁ := h.unrelay
  have hclosed₁ : (unrelay s).closed = s.closed := rfl
  generalize unrelay s = s₁ at h₁ hclosed₁ ⊢
  have hcleanup : ∀ {s₂ : Inner}, Holding i idle c s₀ none s₂ → s₂.held.client = none →
      s₂.closed = s.closed → cleanup.Runs (cooperation.discipline i) exit post c s₀ s₂ := by
    intro s₂ h₂ hnone hclosed
    refine runs_cleanup hexit h₂ ?_ ?_
    · intro c s₀ s' h' hclient hretired hmono
      exact hdone _ c s₀ s' h' (hclient.trans hnone) (fun _ => hretired) fun hc => hmono (hclosed ▸ hc)
    · intro err c s₀ s' h' hclient hmono
      exact hdone _ c s₀ s' h' (hclient.trans hnone) (fun h => nomatch h)
        fun hc => hmono (hclosed ▸ hc)
  cases hclient : s₁.held.client with
  | none => exact hcleanup ⟨h₁, fun x _ hx => nomatch hclient.symm.trans hx⟩ hclient hclosed₁
  | some x =>
    obtain ⟨h₂, hnone⟩ := h₁.retireClient hclient
    obtain ⟨told, heq, -⟩ := retireClient_eq h₁.sane hclient
    rw [runs_modify_bind]
    exact hcleanup h₂ hnone (by rw [heq]; exact hclosed₁)

theorem runs_turnAway {x : Nat} {post : Result Nat → Cause Request Answer → Inner → Inner → Prop}
    (hexit : Exits i exit) (h : Holding i idle c s₀ (some x) s) (hclient : s.held.client = none)
    (hretired : s.held.retired = none)
    (herr : ∀ err c s₀ s', Holding i idle c s₀ none s' → post (.error err) c s₀ s') :
    (turnAway x).Runs (cooperation.discipline i) exit post c s₀ s := by
  unfold turnAway
  rw [runs_modify_bind]
  refine runs_andThen (runs_cleanup hexit (h.retire hclient hretired) ?_ ?_)
  · exact fun c s₀ s' h' _ _ _ => herr _ c s₀ s' h'
  · exact fun err c s₀ s' h' _ _ => herr err c s₀ s' h'

theorem runs_keep {x : Nat} {post : Result Nat → Cause Request Answer → Inner → Inner → Prop}
    (hexit : Exits i exit) (h : Holding i idle c s₀ (some x) s) (hclient : s.held.client = none)
    (hretired : s.held.retired = none)
    (hok : ∀ c s₀ s', Holding i idle c s₀ none s' → s'.held.client = some x → post (.ok x) c s₀ s')
    (herr : ∀ err c s₀ s', Holding i idle c s₀ none s' → post (.error err) c s₀ s') :
    (keep x).Runs (cooperation.discipline i) exit post c s₀ s := by
  unfold keep
  rw [runs_get_bind]
  split
  · exact runs_turnAway hexit h hclient hretired herr
  · next hclosed =>
    rw [runs_modify_bind]
    obtain ⟨h', hheld⟩ := h.hold hclient hretired (Bool.eq_false_iff.mpr hclosed)
    exact hok c s₀ _ h' hheld

/-- The settle window, of a client in hand. -/
theorem runs_settled {x : Nat} {post : Result Unit → Cause Request Answer → Inner → Inner → Prop}
    (hexit : Exits i exit) (h : Holding i idle c s₀ (some x) s)
    (hnext : ∀ r c s₀ s', Holding i idle c s₀ (some x) s' → s'.held = s.held → post r c s₀ s') :
    (settled x).Runs (cooperation.discipline i) exit post c s₀ s := by
  unfold settled
  rw [runs_get_bind]
  split
  · exact hnext _ c s₀ s h rfl
  · exact runs_ask (f := fun r => pure r) hexit (fun _ => by simp) h fun r s' h' hguarded _ =>
      hnext r _ _ s' h' (guarded_held hguarded)

theorem runs_establish {settle : Bool}
    {post : Result Nat → Cause Request Answer → Inner → Inner → Prop}
    (hexit : Exits i exit) (h : Holding i idle c s₀ none s)
    (hok : ∀ x c s₀ s', Holding i idle c s₀ none s' → s'.held.client = some x →
      post (.ok x) c s₀ s')
    (herr : ∀ err c s₀ s', Holding i idle c s₀ none s' → post (.error err) c s₀ s') :
    (establish settle).Runs (cooperation.discipline i) exit post c s₀ s := by
  unfold establish
  rw [runs_get_bind]
  split
  · exact herr _ c s₀ s h
  refine runs_andThen (runs_cleanup hexit h (fun c s₀ s h _ hretired _ => ?_)
    fun err c s₀ s' h' _ _ => herr err c s₀ s' h')
  rw [runs_get_bind]
  cases hclient : s.held.client with
  | some x => exact hok x c s₀ s h hclient
  | none =>
    refine runs_ask hexit (fun _ => by simp) h fun r s' h' hguarded _ => ?_
    have hheld := guarded_held hguarded
    cases r with
    | error err =>
      rw [runs_modify_bind]
      exact herr err _ _ _ h'.backOff
    | ok a =>
      rw [runs_get_bind, runs_modify_bind]
      have hbuild := h'.build
      have hclient' : (build s').held.client = none := by rw [← hclient, ← hheld]; rfl
      have hretired' : (build s').held.retired = none := by rw [← hretired, ← hheld]; rfl
      split
      · rw [runs_get_bind]
        split
        · -- the hub was closed while the factory ran
          exact runs_turnAway hexit hbuild hclient' hretired' herr
        · rw [runs_bind]
          refine runs_settled hexit hbuild fun r c s₀ s₁ h₁ hheld₁ => ?_
          cases r with
          | ok a => exact runs_keep hexit h₁ (hheld₁ ▸ hclient') (hheld₁ ▸ hretired') (hok _) herr
          | error err =>
            rw [runs_modify_bind, runs_bind]
            refine runs_cleanup hexit (h₁.retire (hheld₁ ▸ hclient') (hheld₁ ▸ hretired')) ?_ ?_
            · -- a link that did not settle is retired and closed, whether or not the cleanup succeeds
              intro c s₀ s₂ h₂ _ _ _
              rw [runs_modify_bind]
              exact herr err c s₀ _ h₂.backOff
            · intro _ c s₀ s₂ h₂ _ _
              rw [runs_modify_bind]
              exact herr err c s₀ _ h₂.backOff
      · exact runs_keep hexit hbuild hclient' hretired' (hok _) herr

end Functions

/-! ## Outside the lock -/

/-- A task in a section, without the lock. -/
structure Free (i : Nat) (idle : Prop) (c : Cause Request Answer) (s₀ s : Inner) : Prop where
  sane : Sane s
  unlocked : s.lock ≠ some i
  done : Section i c s₀ none s
  begun : s.seen.begun = s₀.seen.begun
  idle : idle → i ∉ s.seen.begun.map Prod.fst
  paid : ∀ x, failedOn c = some x → Accounts s x ∧ s.held.client ≠ some x

theorem Free.ends (h : Free i idle c s₀ s) : cooperation.Ends i () c s₀ s :=
  ⟨h.sane, h.done, h.begun, h.paid, fun _ hx => nomatch hx⟩

/-- A change that nothing under the lock sees. -/
theorem Section.of_guarded {s₁ : Inner} (h : Section i c s₀ hand s) (hguarded : s₁.guarded = s.guarded)
    (hlock : s₁.lock = s.lock ∨ s.lock = some i ∧ s₁.lock = none)
    (hclosed : s.closed = true → s₁.closed = true) : Section i c s₀ hand s₁ where
  lock hi hnone := by
    obtain ⟨hsame, hsame'⟩ := h.lock hi hnone
    refine ⟨hguarded.trans hsame, ?_⟩
    rcases hlock with hlock | ⟨hself, -⟩
    · exact hlock.trans hsame'
    · exact absurd (hsame'.symm.trans hself) hi
  owner j hj := by
    rcases hlock with hlock | ⟨-, hnone⟩
    · exact h.owner j (hlock ▸ hj)
    · rw [hnone] at hj
      cases hj
  closed hc := hclosed (h.closed hc)
  late := by
    rw [guarded_held hguarded]
    exact h.late
  keeps x hx := (accounts_of_guarded hguarded x).mpr (h.keeps x hx)
  gone := by
    rw [guarded_held hguarded]
    exact h.gone
  built := by
    rw [guarded_seen hguarded]
    exact h.built
  fresh x hx hx' := by
    rw [guarded_seen hguarded] at hx'
    rw [accounts_of_guarded hguarded]
    exact h.fresh x hx hx'
  settles x hx := by
    rw [accounts_of_guarded hguarded]
    exact h.settles x hx
  origin x hx := by
    rw [accounts_of_guarded hguarded] at hx
    exact h.origin x hx

/-- What the guards outside the lock do is not seen under it. -/
def Harmless (exit : Inner → Inner) : Prop := ∀ s, Aside s (exit s)

theorem harmless_id : Harmless id := fun _ => ⟨rfl, rfl, rfl, rfl, rfl⟩

theorem harmless_warmed : Harmless fun s => { s with warming := false } :=
  fun _ => ⟨rfl, rfl, rfl, rfl, rfl⟩

theorem Sane.release (h : Sane s) : Sane (release s) :=
  h.of_guarded rfl (fun h => h) h.shutDown

/-- A task is dropped, and what is under the lock is as it was. -/
theorem guarantee_dropped {s₁ : Inner} (q : Request) (hguarded : s₁.guarded = s.guarded)
    (hlock : s₁.lock = s.lock ∨ s.lock = some i ∧ s₁.lock = none)
    (hclosed : s.closed = true → s₁.closed = true) : Guarantee i (.dropped q) s none s₁ where
  done := (Section.refl i (.dropped q) s).of_guarded hguarded hlock hclosed
  begun := congrArg Seen.begun (guarded_seen hguarded)
  paid _ h := nomatch h
  inHand _ h := nomatch h

theorem Harmless.exits {exit : Inner → Inner} (hexit : Harmless exit) : Exits i (exit ∘ release) := by
  intro s q hsane hlock
  have haside := hexit (release s)
  refine ⟨hsane.release.aside haside, guarantee_dropped q haside.guarded ?_ fun hc => ?_⟩
  · exact .inr ⟨hlock, haside.lock⟩
  · exact haside.closed.trans hc

/-- The lock is given back. -/
theorem Holding.release (h : Holding i idle c s₀ none s) : Free i idle c s₀ (release s) where
  sane := h.sane.release
  unlocked := by
    show (none : Option Nat) ≠ some i
    simp
  done := h.done.of_guarded rfl (.inr ⟨h.lock, rfl⟩) fun h => h
  begun := h.begun
  idle := h.idle
  paid x hx := ⟨h.owes x hx, h.paid x hx⟩

section Unlocked

variable {α : Type} {exit : Inner → Inner} {post : α → Cause Request Answer → Inner → Inner → Prop}

/-- A task without the lock waits. -/
theorem runs_ask_free {q : Request} {f : Answer q → Task α} (hexit : Harmless exit)
    (hq : ∀ x, q ≠ .operation x ∧ q ≠ .settled x) (h : Free i idle c s₀ s)
    (hnext : ∀ a s', Free i idle (.answered q a) s' s' → (s.closed = true → s'.closed = true) →
      enabled q a s' = true →
      (f a).Runs (cooperation.discipline i) exit post (.answered q a) s' s') :
    (Async.ask q >>= f).Runs (cooperation.discipline i) exit post c s₀ s := by
  have hhand : handOf (some q) = none := by
    cases q with
    | settled x => exact absurd rfl (hq x).2
    | _ => rfl
  rw [runs_ask_bind]
  refine ⟨⟨h.sane, hhand ▸ h.done, ?_, h.paid, hhand ▸ fun _ hx => nomatch hx⟩,
    fun s' hsane hrely => ⟨?_, fun a ha => ?_⟩⟩
  · cases q with
    | operation x => exact absurd rfl (hq x).1
    | _ => exact h.begun
  · have haside := hexit s'
    refine ⟨hsane.aside haside, guarantee_dropped q haside.guarded (.inl haside.lock) fun hc => ?_⟩
    exact haside.closed.trans hc
  · have hcause : causeHand (.answered q a) = none ∧ failedOn (.answered q a) = none := by
      cases q with
      | operation x => exact absurd rfl (hq x).1
      | settled x => exact absurd rfl (hq x).2
      | _ => exact ⟨rfl, rfl⟩
    refine hnext a s' ⟨hsane, hrely.unlock h.unlocked, ?_, rfl, fun hi => hrely.begun (h.idle hi), ?_⟩
      hrely.closed ha
    · have hrefl := Section.refl i (.answered q a) s'
      rwa [hcause.1] at hrefl
    · rw [hcause.2]
      exact fun _ h => nomatch h

/-- A task takes the lock. -/
theorem Free.locked (h : Free i idle c s₀ s) (hlock : s₀.lock = none) :
    Holding i idle c s₀ none { s with lock := some i } where
  sane := h.sane.of_guarded rfl (fun h => h) h.sane.shutDown
  lock := rfl
  done := {
    lock := fun _ hnone => absurd hlock hnone
    owner := fun _ hj => .inl (Option.some.inj hj).symm
    closed := h.done.closed
    late := h.done.late
    keeps := h.done.keeps
    gone := h.done.gone
    built := h.done.built
    fresh := h.done.fresh
    settles := h.done.settles
    origin := h.done.origin }
  begun := h.begun
  owes x hx := (h.paid x hx).1
  idle := h.idle
  inHand _ hx := nomatch hx
  paid x hx := (h.paid x hx).2

theorem runs_withHeld {body : Task α} (hexit : Harmless exit) (h : Free i idle c s₀ s)
    (hbody : ∀ c s₀ s', Holding i idle c s₀ none s' → (s.closed = true → s'.closed = true) →
      body.Runs (cooperation.discipline i) (exit ∘ release)
        (fun a c s₀ s => post a c s₀ (release s)) c s₀ s') :
    (withHeld i body).Runs (cooperation.discipline i) exit post c s₀ s := by
  unfold withHeld
  refine runs_ask_free hexit (fun x => ⟨by simp, by simp⟩) h fun a s' h' hclosed henabled => ?_
  rw [runs_modify_bind, runs_guarded]
  exact hbody _ _ _ (h'.locked (Option.isNone_iff_eq_none.mp henabled)) hclosed

end Unlocked

/-! ## The operations -/

section Operations

variable {exit : Inner → Inner}

/-- Nothing is in hand, whatever was asked other than how a client settles. -/
theorem runs_alive {α : Type} {x : Nat} {f : Bool → Task α}
    {post : α → Cause Request Answer → Inner → Inner → Prop} (hexit : Exits i exit)
    (h : Holding i idle c s₀ none s)
    (hnext : ∀ a c s₀ s', Holding i idle c s₀ none s' → s'.guarded = s.guarded →
      (f a).Runs (cooperation.discipline i) exit post c s₀ s') :
    (alive x >>= f).Runs (cooperation.discipline i) exit post c s₀ s :=
  runs_ask hexit (fun _ => by simp) h fun a s' h' hguarded _ => hnext a _ _ s' h' hguarded

theorem runs_dropDead {post : Result Unit → Cause Request Answer → Inner → Inner → Prop}
    (hexit : Exits i exit) (h : Holding i idle c s₀ none s)
    (hdone : ∀ r c s₀ s', Holding i idle c s₀ none s' → post r c s₀ s') :
    dropDead.Runs (cooperation.discipline i) exit post c s₀ s := by
  unfold dropDead
  rw [runs_get_bind]
  cases s.held.client with
  | none => exact hdone _ c s₀ s h
  | some x =>
    refine runs_alive hexit h fun up c s₀ s' h' _ => ?_
    split
    · exact hdone _ c s₀ s' h'
    · exact runs_dropClient hexit h'.toLocked fun r c s₀ s' h' _ _ _ => hdone r c s₀ s' h'

theorem runs_connect {post : Result Unit → Cause Request Answer → Inner → Inner → Prop}
    (hexit : Harmless exit) (h : Free i idle c s₀ s)
    (hdone : ∀ r c s₀ s', Free i idle c s₀ s' → post r c s₀ s') :
    (connect i).Runs (cooperation.discipline i) exit post c s₀ s := by
  refine runs_withHeld hexit h fun c s₀ s h _ => ?_
  have hestablish : ∀ {c s₀ s}, Holding i idle c s₀ none s →
      (andThen (establish true) fun _ => (pure (.ok ()) : Task (Result Unit))).Runs
        (cooperation.discipline i) (exit ∘ release) (fun r c s₀ s => post r c s₀ (release s)) c s₀ s :=
    fun h => runs_andThen (runs_establish hexit.exits h
      (fun _ c s₀ s h _ => hdone _ c s₀ _ h.release) fun _ c s₀ s h => hdone _ c s₀ _ h.release)
  rw [runs_get_bind]
  cases s.held.client with
  | none => exact hestablish h
  | some x =>
    refine runs_alive hexit.exits h fun up c s₀ s h _ => ?_
    split
    · exact hdone _ c s₀ _ h.release
    · refine runs_andThen (runs_dropClient hexit.exits h.toLocked fun r c s₀ s h _ _ _ => ?_)
      cases r with
      | ok a => exact hestablish h
      | error err => exact hdone _ c s₀ _ h.release

/-- An operation runs on the held client, once. -/
theorem runs_operate {x : Nat} {post : Result Unit → Cause Request Answer → Inner → Inner → Prop}
    (hexit : Exits i exit) (h : Holding i True c s₀ none s) (hx : s.held.client = some x)
    (hdone : ∀ r c s₀ s', Holding i False c s₀ none s' → post r c s₀ s') :
    (operate i x).Runs (cooperation.discipline i) exit post c s₀ s := by
  unfold operate
  rw [runs_modify_bind]
  have hsane : Sane (beginOn i x s) :=
    ⟨h.sane.exclusive, h.sane.reports, h.sane.heard, h.sane.bound,
      List.nodup_cons.mpr ⟨h.idle trivial, h.sane.begun⟩, h.sane.shutDown⟩
  have hdone₁ : Section i c s₀ none (beginOn i x s) :=
    ⟨fun hi hnone => absurd ((h.done.lock hi hnone).2.symm.trans h.lock) hi, h.done.owner,
      h.done.closed, h.done.late, h.done.keeps, h.done.gone, h.done.built, h.done.fresh,
      h.done.settles, h.done.origin⟩
  have hlock : (beginOn i x s).lock = some i := h.lock
  have hx' : (beginOn i x s).held.client = some x := hx
  rw [runs_ask_bind]
  refine ⟨⟨hsane, hdone₁, ⟨hx', congrArg _ h.begun⟩, fun y hy => ⟨h.owes y hy, h.paid y hy⟩,
    fun _ hy => nomatch hy⟩, ?_⟩
  intro s' hsane' hrely
  obtain ⟨hguarded, hlock'⟩ := hrely.lock hlock
  refine ⟨hexit s' _ hsane' hlock', fun r _ => ?_⟩
  have hclient : s'.held.client = some x := by rw [guarded_held hguarded]; exact hx'
  have hlocked : Locked i False (.answered (.operation x) r) s' none s' :=
    ⟨hsane', hlock', Section.refl i (.answered (.operation x) r) s', rfl, fun y hy => ?_,
      fun h => h.elim, fun _ hy => nomatch hy⟩
  · cases r with
    | ok a => exact hdone _ _ _ _ ⟨hlocked, fun _ h => nomatch h⟩
    | error err =>
      dsimp only
      split
      · next hspared =>
        refine hdone _ _ _ _ ⟨hlocked, fun y hy => ?_⟩
        rw [failedOn, if_pos hspared] at hy
        cases hy
      · refine runs_andThen (runs_dropClient hexit hlocked fun r c s₀ s h _ _ _ => ?_)
        -- a failure that is not the operation's own takes the client from the hub
        cases r with
        | ok a => exact hdone _ c s₀ s h
        | error err => exact hdone _ c s₀ s h
  · cases r with
    | ok a => cases hy
    | error err =>
      by_cases hspared : spared err = true
      · rw [failedOn, if_pos hspared] at hy
        cases hy
      · rw [failedOn, if_neg hspared] at hy
        exact .inl (hclient.trans hy)

/-- An operation has begun or not. -/
theorem Holding.forgetIdle (h : Holding i idle c s₀ hand s) : Holding i False c s₀ hand s :=
  ⟨⟨h.sane, h.lock, h.done, h.begun, h.owes, fun h => h.elim, h.inHand⟩, h.paid⟩

theorem runs_call {post : Result Unit → Cause Request Answer → Inner → Inner → Prop}
    (hexit : Harmless exit) (h : Free i True c s₀ s)
    (hdone : ∀ r c s₀ s', Free i False c s₀ s' → post r c s₀ s') :
    (call i).Runs (cooperation.discipline i) exit post c s₀ s := by
  refine runs_withHeld hexit h fun c s₀ s h _ => ?_
  refine runs_andThen (runs_dropDead hexit.exits h fun r c s₀ s h => ?_)
  cases r with
  | error err => exact hdone _ c s₀ _ h.forgetIdle.release
  | ok a =>
    refine runs_andThen (runs_establish hexit.exits h (fun x c s₀ s h hx => ?_) fun err c s₀ s h => ?_)
    · exact runs_operate hexit.exits h hx fun r c s₀ s h => hdone r c s₀ _ h.release
    · exact hdone _ c s₀ _ h.forgetIdle.release

theorem runs_warmTask {post : Result Unit → Cause Request Answer → Inner → Inner → Prop}
    (h : Free i idle c s₀ s)
    (hdone : ∀ r c s₀ s', Free i idle c s₀ s' → post r c s₀ { s' with warming := false }) :
    (warmTask i).Runs (cooperation.discipline i) id post c s₀ s := by
  unfold warmTask
  rw [runs_guarded]
  refine runs_withHeld harmless_warmed h fun c s₀ s h _ => ?_
  exact runs_andThen (runs_establish harmless_warmed.exits h
    (fun _ c s₀ s h _ => hdone _ c s₀ _ h.release) fun _ c s₀ s h => hdone _ c s₀ _ h.release)

/-- A change outside the lock, which nothing under it sees. -/
theorem Free.change {s₁ : Inner} (h : Free i idle c s₀ s) (hguarded : s₁.guarded = s.guarded)
    (hlock : s₁.lock = s.lock) (hclosed : s.closed = true → s₁.closed = true)
    (hstates : s₁.states = true → s.states = true)
    (hdown : s₁.shutDown = true → s₁.closed = true ∧ s₁.held.client = none) :
    Free i idle c s₀ s₁ where
  sane := h.sane.of_guarded hguarded hstates hdown
  unlocked := hlock ▸ h.unlocked
  done := h.done.of_guarded hguarded (.inl hlock) hclosed
  begun := (congrArg Seen.begun (guarded_seen hguarded)).trans h.begun
  idle hi := by
    rw [guarded_seen hguarded]
    exact h.idle hi
  paid x hx := by
    rw [accounts_of_guarded hguarded, guarded_held hguarded]
    exact h.paid x hx

theorem Free.aside {s₁ : Inner} (h : Free i idle c s₀ s) (hsame : Aside s s₁) : Free i idle c s₀ s₁ :=
  h.change hsame.guarded hsame.lock (fun hc => hsame.closed.trans hc) (fun hs => hsame.states ▸ hs)
    (h.sane.aside hsame).shutDown

theorem aside_warm (s : Inner) : Aside s (warm s) := by
  unfold warm
  split <;> exact ⟨rfl, rfl, rfl, rfl, rfl⟩

/-- `probe` finds the lock free, or does nothing. -/
theorem runs_probe {post : Result Unit → Cause Request Answer → Inner → Inner → Prop}
    (hexit : Harmless exit) (h : Free i idle c s s)
    (hdone : ∀ r c s₀ s', Free i idle c s₀ s' → post r c s₀ s') :
    (probe i).Runs (cooperation.discipline i) exit post c s s := by
  unfold probe
  rw [runs_get_bind]
  split
  · exact hdone _ c s s h
  · next hlock =>
    have hnone : s.lock = none := by simpa using hlock
    rw [runs_modify_bind]
    have hend : ∀ (needs : Bool) c s₀ s', Holding i idle c s₀ none s' →
        Runs (cooperation.discipline i) exit post
          (do
            if needs then Async.modify warm
            return .ok ()) c s₀ (release s') := by
      intro needs c s₀ s' h'
      cases needs with
      | false => exact hdone _ c s₀ _ h'.release
      | true => exact hdone _ c s₀ _ (h'.release.aside (aside_warm _))
    refine runs_andThen (runs_guarded.mpr ?_)
    rw [runs_get_bind]
    split
    · exact hend false c s _ (h.locked hnone)
    · refine runs_andThen (runs_dropDead hexit.exits (h.locked hnone) fun r c s₀ s' h' => ?_)
      cases r with
      | error err => exact hdone _ c s₀ _ h'.release
      | ok a => exact hend s'.held.client.isNone c s₀ s' h'

section Round

variable {post : Round → Cause Request Answer → Inner → Inner → Prop}

theorem runs_pause {decision : LinkDecision × LinkSupervisor} (hexit : Harmless exit)
    (h : Free i idle c s₀ s) (hdone : ∀ r c s₀ s', Free i idle c s₀ s' → post r c s₀ s') :
    (pause decision).Runs (cooperation.discipline i) exit post c s₀ s := by
  have hsleep : ∀ wait, (sleep wait >>= fun _ => (pure (.inr decision.2) : Task Round)).Runs
      (cooperation.discipline i) exit post c s₀ s := fun wait =>
    runs_ask_free hexit (fun _ => ⟨by simp, by simp⟩) h fun _ s' h' _ _ => hdone _ _ _ s' h'
  unfold pause
  rw [runs_get_bind]
  split
  · exact hdone _ c s₀ s h
  · split
    · exact hsleep _
    · exact hsleep _

theorem runs_dial {origin : Nat} {supervisor : LinkSupervisor} (hexit : Harmless exit)
    (h : Free i idle c s₀ s) (hdone : ∀ r c s₀ s', Free i idle c s₀ s' → post r c s₀ s') :
    (dial i origin supervisor).Runs (cooperation.discipline i) exit post c s₀ s := by
  unfold dial
  rw [runs_bind]
  refine runs_connect hexit h fun r c s₀ s h => ?_
  cases r with
  | ok a => exact hdone _ c s₀ s h
  | error err =>
    dsimp only
    split
    · exact hdone _ c s₀ s h
    · split
      · rw [runs_get_bind]
        split
        · exact hdone _ c s₀ s h
        · exact runs_pause hexit h hdone
      · split
        · exact hdone _ c s₀ s h
        · rw [runs_get_bind]
          exact runs_pause hexit h hdone

theorem runs_watch {origin client : Nat} {supervisor : LinkSupervisor} (hexit : Harmless exit)
    (h : Free i idle c s₀ s) (hdone : ∀ r c s₀ s', Free i idle c s₀ s' → post r c s₀ s') :
    (watch i origin client supervisor).Runs (cooperation.discipline i) exit post c s₀ s := by
  unfold watch
  refine runs_ask_free hexit (fun _ => ⟨by simp, by simp⟩) h fun _ s₁ h₁ _ _ => ?_
  rw [runs_get_bind]
  split
  · exact hdone _ _ _ s₁ h₁
  · rw [runs_bind]
    refine runs_withHeld hexit h₁ fun c s₀ s h _ => ?_
    rw [runs_get_bind]
    cases s.held.client with
    | none => exact hdone _ c s₀ _ h.release
    | some current =>
      refine runs_alive hexit.exits h fun up c s₀ s h _ => ?_
      split
      · exact hdone _ c s₀ _ h.release
      · rw [runs_bind]
        refine runs_dropClient hexit.exits h.toLocked fun _ c s₀ s h _ _ _ => ?_
        exact hdone _ c s₀ _ h.release

theorem runs_round {origin : Nat} {supervisor : LinkSupervisor} (hexit : Harmless exit)
    (h : Free i idle c s₀ s) (hdone : ∀ r c s₀ s', Free i idle c s₀ s' → post r c s₀ s') :
    (round i origin supervisor).Runs (cooperation.discipline i) exit post c s₀ s := by
  unfold round
  rw [runs_get_bind]
  split
  · exact hdone _ c s₀ s h
  · rw [runs_bind]
    refine runs_withHeld hexit h fun c s₀ s h _ => ?_
    rw [runs_get_bind]
    show Runs _ _ _ _ c s₀ (release s)
    cases s.held.client with
    | none => exact runs_dial hexit h.release hdone
    | some client =>
      refine runs_ask_free hexit (fun _ => ⟨by simp, by simp⟩) h.release fun up s₁ h₁ _ _ => ?_
      split
      · exact runs_watch hexit h₁ hdone
      · exact runs_dial hexit h₁ hdone

end Round

section Run

variable {post : Result Unit → Cause Request Answer → Inner → Inner → Prop}

theorem runs_rounds {origin n : Nat} {supervisor : LinkSupervisor} (hexit : Harmless exit)
    (h : Free i idle c s₀ s) (hdone : ∀ r c s₀ s', Free i idle c s₀ s' → post r c s₀ s') :
    (rounds i origin n supervisor).Runs (cooperation.discipline i) exit post c s₀ s := by
  induction n generalizing supervisor c s₀ s with
  | zero => exact hdone _ c s₀ s h
  | succ n ih =>
    unfold rounds
    rw [runs_bind]
    refine runs_round hexit h fun r c s₀ s h => ?_
    cases r with
    | inl result => exact hdone result c s₀ s h
    | inr supervisor => exact ih h

theorem runs_run {n : Nat} {refusalGrace : Duration} (hexit : Harmless exit)
    (h : Free i idle c s₀ s) (hdone : ∀ r c s₀ s', Free i idle c s₀ s' → post r c s₀ s') :
    (run i n refusalGrace).Runs (cooperation.discipline i) exit post c s₀ s := by
  unfold run
  rw [runs_get_bind]
  exact runs_rounds hexit h hdone

end Run

/-- After `close` the session is closed, and no client is held. -/
theorem runs_close {post : Result Unit → Cause Request Answer → Inner → Inner → Prop}
    (hexit : Harmless exit) (h : Free i idle c s₀ s)
    (hdone : ∀ r c s₀ s', Free i idle c s₀ s' → s'.closed = true → s'.held.client = none →
      post r c s₀ s') :
    (close i).Runs (cooperation.discipline i) exit post c s₀ s := by
  unfold close
  rw [runs_modify_bind, runs_bind]
  have hclosing : Free i idle c s₀ { s with closed := true, sender := false } :=
    h.change rfl rfl (fun _ => rfl) (fun hs => hs) fun hs => ⟨rfl, (h.sane.shutDown hs).2⟩
  refine runs_withHeld hexit hclosing fun c s₀ s₁ h₁ hclosed₁ => ?_
  refine runs_dropClient hexit.exits h₁.toLocked fun r c s₀ s₂ h₂ hnone _ hclosed₂ => ?_
  rw [runs_modify_bind]
  have hclosed : s₂.closed = true := hclosed₂ (hclosed₁ rfl)
  refine hdone r c s₀ _ ?_ hclosed hnone
  exact h₂.release.change rfl rfl (fun hc => hc) (fun hs => nomatch hs) fun _ => ⟨hclosed, hnone⟩

end Operations

/-! ## The tasks -/

theorem aside_start {op : Op} {s s' : Inner} (h : start op s = some s') : Aside s s' := by
  cases op with
  | warm =>
    cases h
    exact aside_warm s
  | warmTask =>
    simp only [start] at h
    split at h
    · cases h
      exact ⟨rfl, rfl, rfl, rfl, rfl⟩
    · cases h
  | connect | call | probe | run _ _ | close =>
    cases h
    exact ⟨rfl, rfl, rfl, rfl, rfl⟩

/-- **The operations of a session cooperate.** -/
theorem cooperation_holds : cooperation.Holds := by
  intro i op s s' hsane hunborn hstart
  have hbegin : Free i True .begun s s :=
    ⟨hsane, hunborn.1, Section.refl i .begun s, rfl, fun _ => hunborn.2, fun _ h => nomatch h⟩
  have hfree : Free i True .begun s s' := hbegin.aside (aside_start hstart)
  show (program i op).Runs _ _ _ _ s s'
  unfold program
  cases op with
  | connect =>
    rw [runs_bind]
    exact runs_connect harmless_id hfree fun _ c s₀ s' h => h.ends
  | call =>
    rw [runs_bind]
    exact runs_call harmless_id hfree fun _ c s₀ s' h => h.ends
  | warm => exact hfree.ends
  | warmTask =>
    rw [runs_bind]
    exact runs_warmTask hfree fun _ c s₀ s' h => (h.aside (harmless_warmed s')).ends
  | probe =>
    cases hstart
    rw [runs_bind]
    exact runs_probe harmless_id hbegin fun _ c s₀ s' h => h.ends
  | run n refusalGrace =>
    rw [runs_bind]
    exact runs_run harmless_id hfree fun _ c s₀ s' h => h.ends
  | close =>
    rw [runs_bind]
    refine runs_close harmless_id hfree fun r c s₀ s' h hclosed hnone => ?_
    cases r with
    | error err => exact h.ends
    | ok a =>
      have hdown : Free i True c s₀ { s' with shutDown := true } :=
        h.change rfl rfl (fun hc => hc) (fun hs => hs) fun _ => ⟨hclosed, hnone⟩
      exact hdown.ends

/-- A session at first. -/
theorem sane_new (policy : HubSessionPolicy) (settle : Duration) (now : Nat) :
    Sane (Inner.new policy settle now) where
  exclusive _ := rfl
  reports := rfl
  heard := ⟨rfl, fun _ => rfl⟩
  bound := by
    rintro x (hx | hx | hx)
    · cases hx
    · cases hx
    · cases hx
  begun := List.nodup_nil
  shutDown h := nomatch h

theorem sound_new (policy : HubSessionPolicy) (settle : Duration) (now : Nat) :
    cooperation.Sound (Pool.new (Inner.new policy settle now)) :=
  Cooperation.Sound.new (sane_new policy settle now) fun _ => ⟨(fun h => nomatch h), fun h => nomatch h⟩

end Thalovant.Session
