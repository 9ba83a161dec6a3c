import Thalovant.Session.HubSteps

/-!
# Every run of a session

What is so of a session however its operations interleave, wherever they are dropped, and whatever the
factory, the hub and the operations answer:

* `hub_session_law`: the session reports the client that it holds, `close` is final, and an operation
  runs once, on a held client
* `client_accounted_iff`: a client that the factory has returned is held, retired or closed, but for
  the settle window of a `connect`; one whose settle window has been dropped never is again
-/

namespace Thalovant.Session

open Async

abbrev HubPool := Pool Inner Request Answer

abbrev HubEvent := PoolEvent Request Answer Op Around

/-- A session after these events. -/
def hubRun (policy : HubSessionPolicy) (settle : Duration) (now : Nat) (events : List HubEvent) :
    HubPool :=
  (Pool.new (Inner.new policy settle now)).run hubSession events

theorem hubRun_sound (policy : HubSessionPolicy) (settle : Duration) (now : Nat)
    (events : List HubEvent) : cooperation.Sound (hubRun policy settle now events) :=
  (sound_new policy settle now).run cooperation_holds events

variable {p p' : HubPool} {e : HubEvent}

/-! ## From one state to the next -/

/-- A closed session without a client stays so. -/
theorem closed_step (h : cooperation.Stepped p e p')
    (hp : p.state.closed = true ∧ p.state.held.client = none) :
    p'.state.closed = true ∧ p'.state.held.client = none := by
  obtain ⟨hclosed, hnone⟩ := hp
  rcases h.cases with rfl | ⟨e, rfl⟩ | ⟨i, c, h, -, -⟩
  · exact ⟨hclosed, hnone⟩
  · have haside := aside_around e p.state
    exact ⟨haside.closed.trans hclosed, (congrArg Held.client (guarded_held haside.guarded)).trans hnone⟩
  · refine ⟨h.done.closed hclosed, ?_⟩
    cases hclient : p'.state.held.client with
    | none => rfl
    | some x => exact (h.done.late hclosed x hclient).symm.trans hnone

/-- A client that has been let go of is not held again. -/
theorem gone_step {x : Nat} (h : cooperation.Stepped p e p')
    (hp : Accounts p.state x ∧ p.state.held.client ≠ some x) :
    Accounts p'.state x ∧ p'.state.held.client ≠ some x := by
  rcases h.cases with rfl | ⟨e, rfl⟩ | ⟨i, c, h, -, -⟩
  · exact hp
  · have hguarded := (aside_around e p.state).guarded
    show Accounts (around e p.state) x ∧ (around e p.state).held.client ≠ some x
    rwa [accounts_of_guarded hguarded, guarded_held hguarded]
  · refine ⟨h.done.keeps x hp.1, fun hx => ?_⟩
    exact (h.done.gone x hx).elim hp.2 fun hnot => hnot hp.1

/-- The operations that begin in a step: none, or the one that its task then waits for. -/
theorem begun_step (h : cooperation.Stepped p e p') :
    (p'.state.seen.begun = p.state.seen.begun
      ∧ ∀ i x, (p'.task i).pending = some (.operation x) → (p.task i).pending = some (.operation x))
    ∨ ∃ i x, p'.state.seen.begun = (i, x) :: p.state.seen.begun ∧ p'.state.held.client = some x
      ∧ ∀ j y, (p'.task j).pending = some (.operation y) →
        (j, y) = (i, x) ∨ (p.task j).pending = some (.operation y) := by
  rcases h.cases with rfl | ⟨e, rfl⟩ | ⟨i, c, h, hother, -⟩
  · exact .inl ⟨rfl, fun _ _ h => h⟩
  · exact .inl ⟨congrArg Seen.begun (guarded_seen (aside_around e p.state).guarded), fun _ _ h => h⟩
  · have hbegun := h.begun
    unfold Begins at hbegun
    split at hbegun
    · next x hx =>
      refine .inr ⟨i, x, hbegun.2, hbegun.1, fun j y hy => ?_⟩
      by_cases hj : j = i
      · subst hj
        rw [hx] at hy
        cases hy
        exact .inl rfl
      · exact .inr (hother j hj ▸ hy)
    · next hnot =>
      refine .inl ⟨hbegun, fun j y hy => ?_⟩
      by_cases hj : j = i
      · exact absurd (hj ▸ hy) (hnot y)
      · exact hother j hj ▸ hy

/-- The operations that tasks wait for have begun. -/
def Recorded (p : HubPool) : Prop :=
  ∀ i x, (p.task i).pending = some (.operation x) → (i, x) ∈ p.state.seen.begun

theorem recorded_step (h : cooperation.Stepped p e p') (hp : Recorded p) : Recorded p' := by
  intro j y hy
  rcases begun_step h with ⟨hbegun, hpending⟩ | ⟨i, x, hbegun, -, hpending⟩
  · exact hbegun ▸ hp j y (hpending j y hy)
  · rw [hbegun]
    rcases hpending j y hy with heq | hy
    · exact heq ▸ List.mem_cons_self
    · exact List.mem_cons_of_mem _ (hp j y hy)

/-- The operation of a call fails, with an error that costs the client. -/
theorem failed_answer {i x : Nat} {err : ThalovantError} {answers : (q : Request) → Answer q}
    (h : cooperation.Sound p) (hpending : (p.task i).pending = some (.operation x))
    (hfails : answers (.operation x) = .error err) (hspared : spared err = false) :
    Accounts (p.step hubSession (.answer i answers)).state x
    ∧ (p.step hubSession (.answer i answers)).state.held.client ≠ some x := by
  obtain ⟨-, hguarantee, -⟩ := h.answered hpending rfl
  refine hguarantee.paid x ?_
  rw [hfails]
  exact if_neg (by simp [hspared])

/-! ## The law of a session -/

/-- What is so of a session in every state, with all that may come after it. -/
structure SessionLaw (p : HubPool) : Prop where
  /-- The callback has been told `true`, `false`, `true`, and so on. -/
  told : p.state.seen.told = alternating p.state.seen.told.length
  reports : p.state.hasClient = true ↔ ∃ x, p.state.held.client = some x
  exclusive : ∀ x, ¬ (p.state.held.client = some x ∧ p.state.held.retired = some x)
  /-- After `close` has returned `Ok` no client is held. -/
  closed : p.state.shutDown = true → ∀ later, (p.run hubSession later).state.held.client = none
  /-- A task runs an operation at most once. -/
  once : (p.state.seen.begun.map Prod.fst).Nodup
  recorded : ∀ i x, (p.task i).pending = some (.operation x) → (i, x) ∈ p.state.seen.begun
  /-- An operation begins on the held client. -/
  begins : ∀ e, (p.step hubSession e).state.seen.begun = p.state.seen.begun
    ∨ ∃ i x, (p.step hubSession e).state.seen.begun = (i, x) :: p.state.seen.begun
      ∧ (p.step hubSession e).state.held.client = some x
  /-- An operation that fails costs the client, but for the errors that are spared. -/
  costs : ∀ i x answers err, (p.task i).pending = some (.operation x) →
    answers (.operation x) = .error err → spared err = false →
    ∀ later, ((p.step hubSession (.answer i answers)).run hubSession later).state.held.client ≠ some x

/-- **A session reports the client that it holds, its `close` is final, and a call runs once.** -/
theorem hub_session_law (policy : HubSessionPolicy) (settle : Duration) (now : Nat)
    (events : List HubEvent) : SessionLaw (hubRun policy settle now events) := by
  have hsound := hubRun_sound policy settle now events
  have hrecorded : Recorded (hubRun policy settle now events) :=
    (sound_new policy settle now).run_invariant cooperation_holds
      (fun _ _ _ _ _ hstep => recorded_step hstep) (fun _ _ h => nomatch h) events
  generalize hubRun policy settle now events = p at hsound hrecorded
  obtain ⟨hsane, -⟩ := id hsound
  refine ⟨hsane.heard.1, ?_, ?_, ?_, hsane.begun, hrecorded, ?_, ?_⟩
  · rw [hsane.reports, Option.isSome_iff_exists]
  · rintro x ⟨hx, hx'⟩
    have hretired := hsane.exclusive (by rw [hx]; rfl)
    rw [hretired] at hx'
    cases hx'
  · intro hdown later
    exact (hsound.run_invariant cooperation_holds (fun _ _ _ _ _ hstep => closed_step hstep)
      (hsane.shutDown hdown) later).2
  · intro e
    rcases begun_step (hsound.step cooperation_holds e).2 with ⟨hbegun, -⟩ | ⟨i, x, hbegun, hx, -⟩
    · exact .inl hbegun
    · exact .inr ⟨i, x, hbegun, hx⟩
  · intro i x answers err hpending hfails hspared later
    have hsound' := (hsound.step cooperation_holds (.answer i answers)).1
    exact (hsound'.run_invariant cooperation_holds (fun _ _ _ _ _ hstep => gone_step hstep)
      (failed_answer hsound hpending hfails hspared) later).2

/-! ## Where a client is -/

/-- A task holds the client to the settle window. -/
def InHand (p : HubPool) (x : Nat) : Prop := ∃ i, (p.task i).pending = some (.settled x)

/-- The client that a step abandons: its settle window is dropped. -/
def abandonedBy (p : HubPool) : HubEvent → Option Nat
  | .drop i => handOf (p.task i).pending
  | _ => none

/-- The clients whose settle window is dropped, in a run from this state. -/
def abandoned (p : HubPool) : List HubEvent → List Nat
  | [] => []
  | e :: events => (abandonedBy p e).toList ++ abandoned (p.step hubSession e) events

/-- Every client is in one place. -/
structure Placed (p : HubPool) (lost : List Nat) : Prop where
  covers : ∀ x, x < p.state.seen.built → Accounts p.state x ∨ InHand p x ∨ x ∈ lost
  inHand : ∀ x, InHand p x → x < p.state.seen.built ∧ ¬ Accounts p.state x ∧ x ∉ lost
  unique : ∀ i j x, (p.task i).pending = some (.settled x) →
    (p.task j).pending = some (.settled x) → i = j
  lost : ∀ x, x ∈ lost → x < p.state.seen.built ∧ ¬ Accounts p.state x

theorem handOf_eq {stop : Option Request} {x : Nat} : handOf stop = some x ↔ stop = some (.settled x) := by
  constructor
  · intro h
    unfold handOf at h
    split at h
    · cases h
      rfl
    · cases h
  · rintro rfl
    rfl

theorem causeHand_eq {c : Cause Request Answer} {x : Nat} (h : causeHand c = some x) :
    c.asked = some (.settled x) := by
  unfold causeHand at h
  split at h
  · cases h
    rfl
  · cases h

/-- A section of one task, which may have abandoned the client that it had in hand. -/
theorem Placed.section {lost lost' : List Nat} {i : Nat} {c : Cause Request Answer}
    (hp : Placed p lost) (h : Guarantee i c p.state (p'.task i).pending p'.state)
    (hother : ∀ j, j ≠ i → p'.task j = p.task j)
    (hasked : ∀ q, c.asked = some q → (p.task i).pending = some q)
    (hlost : ∀ x, x ∈ lost' ↔
      x ∈ lost ∨ (p.task i).pending = some (.settled x) ∧ causeHand c = none) :
    Placed p' lost' := by
  -- only the task that waits for a client's settling can have it in hand
  have hheld : ∀ x, causeHand c = some x → (p.task i).pending = some (.settled x) :=
    fun x hx => hasked _ (causeHand_eq hx)
  have hmoves : ∀ x, (p.task i).pending = some (.settled x) → causeHand c = some x ∨ x ∈ lost' := by
    intro x hx
    cases hcause : causeHand c with
    | none => exact .inr ((hlost x).mpr (.inr ⟨hx, hcause⟩))
    | some y =>
      cases Option.some.inj (hx.symm.trans (hheld y hcause))
      exact .inl rfl
  -- a client that was in another task's hand, or lost, is not had from anywhere else
  have hfrom : ∀ x, ¬ Accounts p.state x → causeHand c ≠ some x → x < p.state.seen.built →
      ¬ (Accounts p'.state x ∨ handOf (p'.task i).pending = some x) := by
    intro x hnot hcause hbuilt hx
    rcases h.done.origin x hx with hx | hx | hx
    · exact hnot hx
    · exact hcause hx
    · exact Nat.not_le.mpr hbuilt hx
  -- what another task has in hand stays with it
  have hold : ∀ j x, j ≠ i → (p.task j).pending = some (.settled x) →
      ¬ (Accounts p'.state x ∨ handOf (p'.task i).pending = some x) := by
    intro j x hj hx
    obtain ⟨hbuilt, hnot, -⟩ := hp.inHand x ⟨j, hx⟩
    exact hfrom x hnot (fun hcause => hj (hp.unique j i x hx (hheld x hcause))) hbuilt
  have hgone : ∀ x, x ∈ lost' → x < p.state.seen.built
      ∧ ¬ (Accounts p'.state x ∨ handOf (p'.task i).pending = some x) := by
    intro x hx
    rcases (hlost x).mp hx with hx | ⟨hx, hcause⟩
    · obtain ⟨hbuilt, hnot⟩ := hp.lost x hx
      refine ⟨hbuilt, hfrom x hnot (fun hcause => ?_) hbuilt⟩
      exact (hp.inHand x ⟨i, hheld x hcause⟩).2.2 hx
    · obtain ⟨hbuilt, hnot, -⟩ := hp.inHand x ⟨i, hx⟩
      exact ⟨hbuilt, hfrom x hnot (by rw [hcause]; simp) hbuilt⟩
  refine ⟨fun x hx => ?_, ?_, ?_, fun x hx => ?_⟩
  · have hself : Accounts p'.state x ∨ handOf (p'.task i).pending = some x →
        Accounts p'.state x ∨ InHand p' x ∨ x ∈ lost' := fun h =>
      h.imp_right fun hhand => .inl ⟨i, handOf_eq.mp hhand⟩
    by_cases hbuilt : x < p.state.seen.built
    · rcases hp.covers x hbuilt with haccounts | ⟨j, hj⟩ | hlost'
      · exact .inl (h.done.keeps x haccounts)
      · by_cases hji : j = i
        · rcases hmoves x (hji ▸ hj) with hcause | hlost'
          · exact hself (h.done.settles x hcause)
          · exact .inr (.inr hlost')
        · exact .inr (.inl ⟨j, by rw [hother j hji]; exact hj⟩)
      · exact .inr (.inr ((hlost x).mpr (.inl hlost')))
    · exact hself (h.done.fresh x (Nat.not_lt.mp hbuilt) hx)
  · rintro x ⟨j, hj⟩
    by_cases hji : j = i
    · obtain ⟨hbuilt, hnot⟩ := h.inHand x (handOf_eq.mpr (hji ▸ hj))
      exact ⟨hbuilt, hnot, fun hx => (hgone x hx).2 (.inr (handOf_eq.mpr (hji ▸ hj)))⟩
    · rw [hother j hji] at hj
      obtain ⟨hbuilt, -, hnotLost⟩ := hp.inHand x ⟨j, hj⟩
      refine ⟨Nat.lt_of_lt_of_le hbuilt h.done.built, fun hx => hold j x hji hj (.inl hx), fun hx => ?_⟩
      rcases (hlost x).mp hx with hx | ⟨hx, -⟩
      · exact hnotLost hx
      · exact hji (hp.unique j i x hj hx)
  · intro j k x hj hk
    by_cases hji : j = i
    · by_cases hki : k = i
      · rw [hji, hki]
      · rw [hother k hki] at hk
        exact absurd (.inr (handOf_eq.mpr (hji ▸ hj))) (hold k x hki hk)
    · rw [hother j hji] at hj
      by_cases hki : k = i
      · exact absurd (.inr (handOf_eq.mpr (hki ▸ hk))) (hold j x hji hj)
      · rw [hother k hki] at hk
        exact hp.unique j k x hj hk
  · obtain ⟨hbuilt, hnot⟩ := hgone x hx
    exact ⟨Nat.lt_of_lt_of_le hbuilt h.done.built, fun h => hnot (.inl h)⟩

theorem Placed.around {lost : List Nat} (hp : Placed p lost) (e : Around) :
    Placed { p with state := around e p.state } lost := by
  have hguarded := (aside_around e p.state).guarded
  refine ⟨fun x hx => ?_, fun x hx => ?_, hp.unique, fun x hx => ?_⟩
  · rw [accounts_of_guarded hguarded]
    exact hp.covers x (by rwa [guarded_seen hguarded] at hx)
  · rw [accounts_of_guarded hguarded, guarded_seen hguarded]
    exact hp.inHand x hx
  · rw [accounts_of_guarded hguarded, guarded_seen hguarded]
    exact hp.lost x hx

theorem Placed.step {lost : List Nat} (hp : Placed p lost) (h : cooperation.Stepped p e p') :
    Placed p' (lost ++ (abandonedBy p e).toList) := by
  cases h with
  | still e hdrop =>
    have hnone : abandonedBy p e = none := by
      cases e with
      | drop i => simp [abandonedBy, hdrop i rfl, handOf]
      | _ => rfl
    rwa [hnone, Option.toList_none, List.append_nil]
  | world e =>
    rw [show abandonedBy p (.world e) = none from rfl, Option.toList_none, List.append_nil]
    exact hp.around e
  | began i op p' hunborn hother h =>
    refine hp.section h hother (fun q hq => nomatch hq) fun x => ?_
    simp [abandonedBy, hunborn, TaskStatus.pending]
  | answered i answers q p' hpending henabled hother h =>
    refine hp.section h hother (fun q' hq => Option.some.inj hq ▸ hpending) fun x => ?_
    rw [show abandonedBy p (.answer i answers) = none from rfl, Option.toList_none, List.append_nil]
    refine (or_iff_left ?_).symm
    rintro ⟨hx, hcause⟩
    cases Option.some.inj (hpending.symm.trans hx)
    cases hcause
  | dropped i q p' hpending hother hended h =>
    rw [show (none : Option Request) = (p'.task i).pending by rw [hended]; rfl] at h
    refine hp.section h hother (fun q' hq => Option.some.inj hq ▸ hpending) fun x => ?_
    show x ∈ lost ++ (handOf (p.task i).pending).toList ↔ _
    rw [List.mem_append, Option.mem_toList, handOf_eq]
    exact or_congr_right (and_iff_left rfl).symm

theorem Placed.run {lost : List Nat} (hsound : cooperation.Sound p) (hp : Placed p lost)
    (events : List HubEvent) : Placed (p.run hubSession events) (lost ++ abandoned p events) := by
  induction events generalizing p lost with
  | nil =>
    show Placed p (lost ++ [])
    rwa [List.append_nil]
  | cons e events ih =>
    obtain ⟨hsound', hstepped⟩ := hsound.step cooperation_holds e
    have hrun := ih hsound' (hp.step hstepped)
    rwa [List.append_assoc] at hrun

/-- In every run, every client is in one place. -/
theorem hubRun_placed (policy : HubSessionPolicy) (settle : Duration) (now : Nat)
    (events : List HubEvent) :
    Placed (hubRun policy settle now events)
      (abandoned (Pool.new (Inner.new policy settle now)) events) := by
  have hnew : Placed (Pool.new (Inner.new policy settle now)) [] := by
    refine ⟨fun x hx => absurd hx (Nat.not_lt_zero x), ?_, ?_, fun _ hx => nomatch hx⟩
    · rintro x ⟨i, hi⟩
      cases hi
    · intro i j x hi
      cases hi
  exact hnew.run (sound_new policy settle now) events

/--
**A client that the factory has returned is held, retired or closed, if and only if no settle window
has been dropped and none is under way.** One that is under way is in the hand of its task; one that
has been dropped is never held, retired or closed.
-/
theorem client_accounted_iff (policy : HubSessionPolicy) (settle : Duration) (now : Nat)
    (events : List HubEvent) :
    let p := hubRun policy settle now events
    let lost := abandoned (Pool.new (Inner.new policy settle now)) events
    ((∀ x, x < p.state.seen.built → Accounts p.state x) ↔ lost = [] ∧ ∀ x, ¬ InHand p x)
    ∧ ((∀ x, x < p.state.seen.built → Accounts p.state x ∨ InHand p x) ↔ lost = [])
    ∧ ∀ x, x ∈ lost → ∀ later, x < (p.run hubSession later).state.seen.built
      ∧ ¬ Accounts (p.run hubSession later).state x := by
  have hplaced := hubRun_placed policy settle now events
  have hsound := hubRun_sound policy settle now events
  generalize hubRun policy settle now events = p at hplaced hsound
  generalize abandoned _ events = lost at hplaced
  have hall : (∀ x, x < p.state.seen.built → Accounts p.state x ∨ InHand p x) ↔ lost = [] := by
    constructor
    · intro h
      refine List.eq_nil_iff_forall_not_mem.mpr fun x hx => ?_
      obtain ⟨hbuilt, hnot⟩ := hplaced.lost x hx
      rcases h x hbuilt with haccounts | hhand
      · exact hnot haccounts
      · exact (hplaced.inHand x hhand).2.2 hx
    · rintro rfl x hx
      simpa using hplaced.covers x hx
  refine ⟨⟨fun h => ⟨hall.mp fun x hx => .inl (h x hx), fun x hx => ?_⟩, ?_⟩, hall, ?_⟩
  · obtain ⟨hbuilt, hnot, -⟩ := hplaced.inHand x hx
    exact hnot (h x hbuilt)
  · rintro ⟨hnone, hhand⟩ x hx
    exact (hall.mpr hnone x hx).resolve_right (hhand x)
  · exact fun x hx later => (hplaced.run hsound later).lost x (List.mem_append_left _ hx)

/-- Whatever is asked goes well. -/
def agree : (q : Request) → Answer q
  | .alive _ => true
  | .close _ | .build | .settled _ | .operation _ => .ok ()
  | .lock | .watch _ | .sleep _ => ()

/-- A `connect` is dropped in its settle window, and the session is closed. -/
def dropThenClose : List HubEvent :=
  [.start 0 .connect, .answer 0 agree, .answer 0 agree, .drop 0, .start 1 .close, .answer 1 agree]

/-- The client of a `connect` that is dropped in its settle window is not closed by a `close`. -/
theorem client_accounted_fails :
    let p := hubRun ⟨.fromSecs 10, .fromSecs 120, .fromSecs 60, .fromSecs 5⟩ (.fromSecs 1) 0 dropThenClose
    p.state.shutDown = true ∧ p.state.seen.built = 1 ∧ ¬ Accounts p.state 0
    ∧ ∀ i, (p.task i).pending = none := by
  refine ⟨rfl, rfl, ?_, fun i => ?_⟩
  · rintro (h | h | h) <;> cases h
  · match i with
    | 0 => rfl
    | 1 => rfl
    | i + 2 => rfl

end Thalovant.Session
