import Thalovant.Transport.Control

/-!
# What the tasks of a transport do

A transport keeps its own part (`Contract`), under the gate and beside it, and then the tasks of the
transport cooperate: what is under the gate is changed by the task that has it, an attempt that ends
leaves its mark before the gate is free, and a cleanup changes nothing once there has been another
attempt.
-/

namespace Thalovant.Transport.Control

open Async

/-! ## What a transport keeps -/

section Contracts

variable {T R : Type} {B : R → Type} {W E : Type} (O : LinkOps T R B W E)

/-- A task under the gate: only what is around the gate happens meanwhile. -/
def gated (invariant : T → Prop) (around : T → T → Prop) : Discipline T R B where
  enabled := O.enabled
  invariant := invariant
  rely := around
  guarantee _ _ _ _ := True

/-- A task beside the gate: anything happens meanwhile, and it does only what may happen around it. -/
def beside (invariant : T → Prop) (around : T → T → Prop) : Discipline T R B where
  enabled := O.enabled
  invariant := invariant
  rely _ _ := True
  guarantee _ t₀ _ t := around t₀ t

/-- What a transport keeps of its own state, and what a disconnect that succeeds leaves. -/
structure Contract where
  invariant : T → Prop
  around : T → T → Prop
  closed : T → Prop
  around_refl : ∀ t, around t t
  around_trans : ∀ {t t' t''}, around t t' → around t' t'' → around t t''
  world : ∀ e t, invariant t → invariant (O.world e t) ∧ around t (O.world e t)
  invalidate : ∀ t, invariant t → invariant (O.invalidate t) ∧ around t (O.invalidate t)
  connect : ∀ rounds c t₀ t, invariant t →
    (O.connectKkThenXx rounds).Runs (gated O invariant around) id (fun _ _ _ t => invariant t) c t₀ t
  disconnect : ∀ c t₀ t, invariant t →
    O.disconnectLocked.Runs (gated O invariant around) id
      (fun r _ _ t => invariant t ∧ (r = .ok () → closed t)) c t₀ t
  own : ∀ w t t', O.start w t = some t' → invariant t →
    (O.program w).Runs (beside O invariant around) id (fun _ _ t₀ t => invariant t ∧ around t₀ t)
      .begun t t'

/-- Nothing is asked of the transport. -/
def Contract.any : Contract O where
  invariant _ := True
  around _ _ := True
  closed _ := True
  around_refl _ := trivial
  around_trans _ _ := trivial
  world _ _ _ := ⟨trivial, trivial⟩
  invalidate _ _ := ⟨trivial, trivial⟩
  connect _ _ _ _ _ := runs_any _
  disconnect _ _ _ _ := (runs_any _).mono fun _ _ _ _ _ => ⟨trivial, fun _ => trivial⟩
  own _ _ _ _ _ := (runs_any _).mono fun _ _ _ _ _ => ⟨trivial, trivial⟩

end Contracts

variable {T R : Type} {B : R → Type} {W E : Type} {O : LinkOps T R B W E} (K : Contract O)

/-! ## Cooperation -/

/-- What only the task that has the gate changes, other than the transport. -/
def ConnectionControl.fixed (s : ConnectionControl T) : UInt64 × Nat × Bool × Bool :=
  (s.generation, s.seen.attempts, s.activeAttempt, s.complete)

/-- The invariant of a transport, its own part apart. -/
structure Steady (s : ConnectionControl T) : Prop where
  generation : s.generation = UInt64.ofNat s.seen.attempts
  active : s.activeAttempt = true → s.seen.marker = none ∧ 0 < s.seen.attempts
  blamed : ∀ called n, (called, n) ∈ s.seen.blamed → called < n
  closed : ∀ t, (false, t) ∈ s.seen.closed → K.closed t
  cleanups : ∀ generation n, (generation, n) ∈ s.cleanups → generation = UInt64.ofNat n

structure Sane (s : ConnectionControl T) : Prop extends Steady K s where
  transport : K.invariant s.transport

/-- What a task guarantees of a section. -/
structure Guarantee (i : Nat) (s₀ s : ConnectionControl T) : Prop where
  gate : s₀.gate ≠ some i → s₀.gate ≠ none →
    s.gate = s₀.gate ∧ K.around s₀.transport s.transport ∧ s.fixed = s₀.fixed
  owner : ∀ j, s.gate = some j → j = i ∨ s₀.gate = some j
  job : ∀ j, j ≠ i → s.seen.cleanup j = s₀.seen.cleanup j
  late : ∀ n, s₀.seen.cleanup i = some n → s₀.generation ≠ UInt64.ofNat n →
    s.transport = s₀.transport ∧ s.cancelled = s₀.cancelled
  attempts : s₀.seen.attempts ≤ s.seen.attempts
  cancelled : s₀.cancelled = true → s.seen.attempts = s₀.seen.attempts → s.cancelled = true
  marker : ∀ n, s.seen.marker = some n → s₀.seen.marker = some n ∨ s₀.seen.attempts ≤ n

/-- What a task relies on. -/
structure Rely (i : Nat) (s s' : ConnectionControl T) : Prop where
  gate : s.gate = some i →
    s'.gate = some i ∧ K.around s.transport s'.transport ∧ s'.fixed = s.fixed
  ungated : s.gate ≠ some i → s'.gate ≠ some i
  job : s'.seen.cleanup i = s.seen.cleanup i
  attempts : s.seen.attempts ≤ s'.seen.attempts
  marker : ∀ n, s'.seen.marker = some n → s.seen.marker = some n ∨ s.seen.attempts ≤ n

variable {K} {i : Nat} {s₀ s s' : ConnectionControl T}

theorem Guarantee.refl (i : Nat) (s : ConnectionControl T) : Guarantee K i s s where
  gate _ _ := ⟨rfl, K.around_refl _, rfl⟩
  owner _ h := .inr h
  job _ _ := rfl
  late _ _ _ := ⟨rfl, rfl⟩
  attempts := Nat.le_refl _
  cancelled h _ := h
  marker _ h := .inl h

theorem Rely.refl (i : Nat) (s : ConnectionControl T) : Rely K i s s where
  gate h := ⟨h, K.around_refl _, rfl⟩
  ungated h := h
  job := rfl
  attempts := Nat.le_refl _
  marker _ h := .inl h

theorem Rely.trans {s'' : ConnectionControl T} (h : Rely K i s s') (h' : Rely K i s' s'') :
    Rely K i s s'' where
  gate hi := by
    obtain ⟨hi', haround, hfixed⟩ := h.gate hi
    obtain ⟨hi'', haround', hfixed'⟩ := h'.gate hi'
    exact ⟨hi'', K.around_trans haround haround', hfixed'.trans hfixed⟩
  ungated hi := h'.ungated (h.ungated hi)
  job := h'.job.trans h.job
  attempts := h.attempts.trans h'.attempts
  marker n hn := (h'.marker n hn).elim (h.marker n) fun hle => .inr (h.attempts.trans hle)

theorem Guarantee.rely {j : Nat} (hij : i ≠ j) (h : Guarantee K j s s') : Rely K i s s' where
  gate hi := by
    obtain ⟨hgate, haround, hfixed⟩ := h.gate (by rw [hi]; simpa using hij) (by rw [hi]; simp)
    exact ⟨hgate.trans hi, haround, hfixed⟩
  ungated hi hi' := (h.owner i hi').elim hij hi
  job := h.job i hij
  attempts := h.attempts
  marker := h.marker

/-- A task that has not begun has no gate, and is no cleanup yet. -/
def Unborn (i : Nat) (s : ConnectionControl T) : Prop := s.gate ≠ some i ∧ s.seen.cleanup i = none

theorem Steady.transport (h : Steady K s) (t : T) : Steady K { s with transport := t } :=
  ⟨h.generation, h.active, h.blamed, h.closed, h.cleanups⟩

variable (K) in
/-- How the tasks of a transport cooperate. -/
def cooperation : Cooperation (control O) where
  invariant := Sane K
  rely := Rely K
  guarantee i _ s₀ _ s := Guarantee K i s₀ s
  unborn := Unborn
  rely_refl := Rely.refl
  rely_trans := Rely.trans
  others hij _ h := h.rely hij
  world {e s} h := by
    obtain ⟨hinv, haround⟩ := K.world e s.transport h.transport
    exact ⟨⟨h.toSteady.transport _, hinv⟩, fun i =>
      ⟨fun hi => ⟨hi, haround, rfl⟩, fun hi => hi, rfl, Nat.le_refl _, fun _ hn => .inl hn⟩⟩
  unborn_rely hrely h := ⟨hrely.ungated h.1, hrely.job.trans h.2⟩

/-! ## Under the gate -/

/-- A cleanup has its turn: the generation is its own. -/
def Turn (i : Nat) (s : ConnectionControl T) : Prop :=
  ∀ n, s.seen.cleanup i = some n → s.generation = UInt64.ofNat n

/-- A task in a section, with the gate. -/
structure Gated (K : Contract O) (i : Nat) (fixed : UInt64 × Nat × Bool × Bool)
    (s₀ s : ConnectionControl T) : Prop where
  steady : Steady K s
  gate : s.gate = some i
  fixed : s.fixed = fixed
  done : Guarantee K i s₀ s
  came : s₀.gate = some i ∨ s₀.gate = none
  job : s.seen.cleanup i = s₀.seen.cleanup i
  turned : Turn i s₀
  turn : Turn i s

variable {fixed : UInt64 × Nat × Bool × Bool}

/-- A change under the gate. -/
theorem Gated.change (h : Gated K i fixed s₀ s) {s₁ : ConnectionControl T}
    {fixed₁ : UInt64 × Nat × Bool × Bool} (hsteady : Steady K s₁) (hgate : s₁.gate = s.gate)
    (hfixed : s₁.fixed = fixed₁) (hjob : s₁.seen.cleanup = s.seen.cleanup)
    (hattempts : s₁.seen.attempts = s.seen.attempts
      ∨ s.seen.attempts ≤ s₁.seen.attempts ∧ s.seen.cleanup i = none)
    (hcancelled : s.cancelled = true → s₁.seen.attempts = s.seen.attempts → s₁.cancelled = true)
    (hmarker : ∀ n, s₁.seen.marker = some n → s.seen.marker = some n ∨ s.seen.attempts ≤ n) :
    Gated K i fixed₁ s₀ s₁ := by
  have hle : s.seen.attempts ≤ s₁.seen.attempts :=
    hattempts.elim (fun h => Nat.le_of_eq h.symm) And.left
  have hturn : Turn i s₁ := by
    intro n hn
    rw [hjob] at hn
    rcases hattempts with hsame | ⟨-, hnone⟩
    · rw [hsteady.generation, hsame, ← h.steady.generation]
      exact h.turn n hn
    · rw [hnone] at hn
      cases hn
  refine ⟨hsteady, hgate.trans h.gate, hfixed, ?_, h.came, (congrFun hjob i).trans h.job, h.turned,
    hturn⟩
  have hbefore := h.done.attempts
  refine ⟨fun hi hnone => absurd h.came (by simp [hi, hnone]), fun j hj => h.done.owner j (hgate ▸ hj),
    fun j hj => (congrFun hjob j).trans (h.done.job j hj),
    fun n hn hlate => absurd (h.turned n hn) hlate, by omega,
    fun hc hsame => hcancelled (h.done.cancelled hc (by omega)) (by omega), fun n hn => ?_⟩
  rcases hmarker n hn with hn | hn
  · exact h.done.marker n hn
  · exact .inr (by omega)

/-- The transport changes. -/
theorem Gated.put (h : Gated K i fixed s₀ s) (t : T) : Gated K i fixed s₀ { s with transport := t } :=
  h.change (h.steady.transport t) rfl h.fixed rfl (.inl rfl) (fun hc _ => hc) fun _ hn => .inl hn

theorem Gated.sane (h : Gated K i fixed s₀ s) (hinv : K.invariant s.transport) : Sane K s :=
  ⟨h.steady, hinv⟩

/-- The gate is kept across an await. -/
theorem Gated.resumed (h : Gated K i fixed s₀ s) (hs : Sane K s') (hrely : Rely K i s s') :
    Gated K i fixed s' s' := by
  obtain ⟨hgate, -, hfixed⟩ := hrely.gate h.gate
  have hturn : Turn i s' := fun n hn =>
    (congrArg Prod.fst hfixed).trans (h.turn n (hrely.job.symm.trans hn))
  exact ⟨hs.toSteady, hgate, hfixed.trans h.fixed, .refl i s', .inl hgate, rfl, hturn, hturn⟩

/-- The guards in scope, for a task that has the gate: they leave it sane, and the gate free. -/
def Exits (K : Contract O) (i : Nat) (fixed : UInt64 × Nat × Bool × Bool)
    (exit : ConnectionControl T → ConnectionControl T) : Prop :=
  ∀ s₀ s, Gated K i fixed s₀ s → Sane K s → Sane K (exit s) ∧ Guarantee K i s₀ (exit s)

/-- The gate is given back. -/
theorem Gated.release (h : Gated K i fixed s₀ s) : Guarantee K i s₀ (release s) where
  gate hi hnone := absurd h.came (by simp [hi, hnone])
  owner _ hj := nomatch hj
  job := h.done.job
  late := h.done.late
  attempts := h.done.attempts
  cancelled := h.done.cancelled
  marker := h.done.marker

theorem Sane.release (h : Sane K s) : Sane K (release s) :=
  ⟨⟨h.generation, h.active, h.blamed, h.closed, h.cleanups⟩, h.transport⟩

theorem exits_release : Exits K i fixed release := fun _ _ h hs => ⟨hs.release, h.release⟩

/-- An attempt that is under way ends. -/
theorem Gated.endAttempt {generation : UInt64} {n : Nat} {complete : Bool}
    (h : Gated K i (generation, n, true, complete) s₀ s) (hs : Sane K s) :
    Gated K i (generation, n, false, complete) s₀ (endAttempt O generation n s)
    ∧ Sane K (endAttempt O generation n s) := by
  have hfixed := h.fixed
  simp only [ConnectionControl.fixed, Prod.mk.injEq] at hfixed
  obtain ⟨hgeneration, hattempts, hactive, hcomplete⟩ := hfixed
  -- without having completed, the attempt leaves its mark and a cleanup of its own generation
  have hsteady : Steady K (Control.endAttempt O generation n s) := by
    unfold Control.endAttempt
    split
    · exact ⟨hs.generation, (fun h => nomatch h), hs.blamed, hs.closed, hs.cleanups⟩
    · refine ⟨hs.generation, (fun h => nomatch h), hs.blamed, hs.closed, fun g m hmem => ?_⟩
      rcases List.mem_cons.mp hmem with heq | hmem
      · cases heq
        rw [← hgeneration, ← hattempts]
        exact hs.generation
      · exact hs.cleanups g m hmem
  have hinv : K.invariant (Control.endAttempt O generation n s).transport := by
    unfold Control.endAttempt
    split
    · exact hs.transport
    · exact (K.invalidate _ hs.transport).1
  refine ⟨h.change hsteady ?_ ?_ ?_ (.inl ?_) (fun hc _ => ?_) fun m hm => ?_, ⟨hsteady, hinv⟩⟩
  · unfold Control.endAttempt
    split <;> rfl
  · unfold Control.endAttempt ConnectionControl.fixed
    split <;> simp [hgeneration, hattempts, hcomplete]
  · unfold Control.endAttempt
    split <;> rfl
  · unfold Control.endAttempt
    split <;> rfl
  · unfold Control.endAttempt
    split
    · exact hc
    · rfl
  · unfold Control.endAttempt at hm
    split at hm
    · exact .inl hm
    · cases hm
      exact .inr (Nat.le_of_eq hattempts)

theorem exits_endAttempt {generation : UInt64} {n : Nat} {complete : Bool}
    {exit : ConnectionControl T → ConnectionControl T}
    (hexit : ∀ fixed, Exits K i fixed exit) :
    Exits K i (generation, n, true, complete) (exit ∘ endAttempt O generation n) := by
  intro s₀ s h hs
  obtain ⟨hended, hsended⟩ := h.endAttempt hs
  exact hexit _ s₀ _ hended hsended

/-- An attempt begins. -/
theorem Gated.beginAttempt (h : Gated K i fixed s₀ s) (hnone : s.seen.cleanup i = none) :
    Gated K i (s.generation + 1, s.seen.attempts + 1, true, false) s₀ (beginAttempt s) := by
  refine h.change ?_ rfl rfl rfl (.inr ⟨Nat.le_succ _, hnone⟩) (fun _ hsame => ?_) fun _ hn => nomatch hn
  · refine ⟨?_, fun _ => ⟨rfl, Nat.succ_pos _⟩, h.steady.blamed, h.steady.closed, h.steady.cleanups⟩
    show s.generation + 1 = UInt64.ofNat (s.seen.attempts + 1)
    rw [h.steady.generation]
    simp
  · exact absurd hsame (Nat.succ_ne_self _)

/-- A connect that joins an attempt was called before any mark that it finds was left. -/
def Calls (called : Nat) (s : ConnectionControl T) : Prop :=
  called < s.seen.attempts ∧ ∀ n, s.seen.marker = some n → called < n

theorem Calls.rely {called : Nat} (h : Calls called s) (hrely : Rely K i s s') : Calls called s' := by
  refine ⟨Nat.lt_of_lt_of_le h.1 hrely.attempts, fun n hn => ?_⟩
  rcases hrely.marker n hn with hn | hn
  · exact h.2 n hn
  · exact Nat.lt_of_lt_of_le h.1 hn

theorem calls_ended (hs : Steady K s) (hactive : s.activeAttempt = true) : Calls (ended s) s := by
  obtain ⟨hnone, hpos⟩ := hs.active hactive
  unfold ended
  rw [if_pos hactive]
  refine ⟨by omega, fun n hn => ?_⟩
  rw [hnone] at hn
  cases hn

theorem Gated.blame (h : Gated K i fixed s₀ s) (called : Nat)
    (hcalls : ∀ n, s.seen.marker = some n → called < n) : Gated K i fixed s₀ (blame called s)
      ∧ (Control.blame called s).transport = s.transport := by
  unfold Control.blame
  split
  · next n _ hn =>
    refine ⟨h.change ?_ rfl h.fixed rfl (.inl rfl) (fun hc _ => hc) fun _ hm => .inl hm, rfl⟩
    refine ⟨h.steady.generation, h.steady.active, fun called' m hmem => ?_, h.steady.closed,
      h.steady.cleanups⟩
    rcases List.mem_cons.mp hmem with heq | hmem
    · cases heq
      exact hcalls n hn
    · exact h.steady.blamed called' m hmem
  · exact ⟨h, rfl⟩

section Runs

variable {α : Type} {exit : ConnectionControl T → ConnectionControl T}
  {c : Cause (Request R) (Answer B)}

/-- A task that has the gate looks at the health. -/
theorem runs_health {f : Bool → Task T B α}
    {post : α → Cause (Request R) (Answer B) → ConnectionControl T → ConnectionControl T → Prop}
    (hexit : Exits K i fixed exit) (h : Gated K i fixed s₀ s) (hs : Sane K s)
    (hnext : ∀ inTime c s', Gated K i fixed s' s' → Sane K s' → Rely K i s s' →
      (f inTime).Runs ((cooperation K).discipline i) exit post c s' s') :
    (Async.ask Request.health >>= f).Runs ((cooperation K).discipline i) exit post c s₀ s := by
  rw [runs_ask_bind]
  refine ⟨⟨hs, h.done⟩, fun s' hs' hrely => ?_⟩
  have hresumed := h.resumed hs' hrely
  exact ⟨hexit s' s' hresumed hs', fun inTime _ => hnext inTime _ s' hresumed hs' hrely⟩

/-- An answer that does not cut the transport's own task is one to it. -/
theorem enabled_own {within : Within} {r : R} {b : B r} (h : enabled O (.own within r) (.ok b) s = true) :
    O.enabled r b s.transport = true := by
  cases within with
  | attempt => exact (Bool.and_eq_true_iff.mp h).2
  | cleanup | beside => exact h

/-- What the transport does under the gate. -/
theorem runs_own {within : Within} {t : Async T R B α} {done : α → T → Prop}
    {post : Except Cut α → Cause (Request R) (Answer B) → ConnectionControl T →
      ConnectionControl T → Prop}
    (hexit : Exits K i fixed exit) (h : Gated K i fixed s₀ s)
    (ht : t.Runs (gated O K.invariant K.around) id (fun a _ _ t => done a t) .begun s₀.transport
      s.transport)
    (hdone : ∀ a c s₀ s', Gated K i fixed s₀ s' → done a s'.transport → post (.ok a) c s₀ s')
    (hcut : ∀ cut c s₀ s', Gated K i fixed s₀ s' → Sane K s' → post (.error cut) c s₀ s') :
    (own within t : Task T B (Except Cut α)).Runs ((cooperation K).discipline i) exit post c s₀ s := by
  refine Runs.embed (P := fun _ s₀ s => Gated K i fixed s₀ s) (fun _ _ => rfl) (fun t h => h.put t) ?_
    ht h fun a c s₀ s h hd => hdone a c s₀ s h hd
  intro c s₀ s r c' h hinv _
  refine ⟨⟨h.sane hinv, h.done⟩, fun s' hs' hrely => ?_⟩
  have hresumed := h.resumed hs' hrely
  refine ⟨⟨hs'.transport, (hrely.gate h.gate).2.1⟩, fun t hinv' _ => ⟨?_, fun a cut _ => ?_⟩,
    fun a ha b hb => ⟨?_, hresumed⟩⟩
  · exact hexit s' _ (hresumed.put t) ((hresumed.put t).sane hinv')
  · exact hcut cut _ s' _ (hresumed.put t) ((hresumed.put t).sane hinv')
  · subst hb
    exact enabled_own ha

/-- The attempt's own part, in an attempt that has just begun. -/
theorem runs_authenticate {rounds called : Nat} {generation : UInt64} {n : Nat}
    {post : Result Unit → Cause (Request R) (Answer B) → ConnectionControl T →
      ConnectionControl T → Prop}
    (hexit : ∀ fixed, Exits K i fixed exit) (h : Gated K i (generation, n, true, false) s₀ s)
    (hs : Sane K s) (hopen : s.cancelled = false)
    (hdone : ∀ r c s₀ s' complete, Gated K i (generation, n, true, complete) s₀ s' → Sane K s' →
      post r c s₀ s') :
    (authenticate O rounds called).Runs ((cooperation K).discipline i)
      (exit ∘ endAttempt O generation n) post c s₀ s := by
  unfold authenticate
  rw [runs_get_bind, if_neg (by simp [hopen]), runs_bind]
  refine runs_own (exits_endAttempt hexit) h (K.connect rounds _ _ _ hs.transport) ?_ ?_
  · intro r c s₀ s' h' hinv
    have hs' := h'.sane hinv
    cases r with
    | error err => exact hdone _ c s₀ s' false h' hs'
    | ok a =>
      rw [runs_modify_bind]
      have hfixed := h'.fixed
      simp only [ConnectionControl.fixed, Prod.mk.injEq] at hfixed
      obtain ⟨hgeneration, hattempts, hactive, -⟩ := hfixed
      have hsteady : Steady K { s' with complete := true } :=
        ⟨hs'.generation, hs'.active, hs'.blamed, hs'.closed, hs'.cleanups⟩
      refine hdone _ c s₀ _ true (h'.change hsteady rfl ?_ rfl (.inl rfl) (fun hc _ => hc)
        fun _ hm => .inl hm) ⟨hsteady, hs'.transport⟩
      simp [ConnectionControl.fixed, hgeneration, hattempts, hactive]
  · intro cut c s₀ s' h' hs'
    cases cut with
    | late => exact hdone _ c s₀ s' false h' hs'
    | retired =>
      rw [runs_modify_bind]
      have hactive : s'.activeAttempt = true := congrArg (fun f => f.2.2.1) h'.fixed
      obtain ⟨hblame, htransport⟩ := h'.blame called fun n hn =>
        nomatch (hs'.active hactive).1.symm.trans hn
      refine hdone _ c s₀ _ false hblame (hblame.sane ?_)
      rw [htransport]
      exact hs'.transport

theorem runs_connectGated {rounds called : Nat} {joining : Bool}
    {post : Result Unit → Cause (Request R) (Answer B) → ConnectionControl T →
      ConnectionControl T → Prop}
    (hexit : ∀ fixed, Exits K i fixed exit) (h : Gated K i fixed s₀ s) (hs : Sane K s)
    (hjob : s.seen.cleanup i = none) (hcalls : joining = true → Calls called s)
    (hdone : ∀ r c s₀ s' fixed, Gated K i fixed s₀ s' → Sane K s' → post r c s₀ s') :
    (connectGated O rounds called joining).Runs ((cooperation K).discipline i) exit post c s₀ s := by
  unfold connectGated
  refine runs_health (hexit fixed) h hs fun inTime c s' h' hs' hrely => ?_
  cases inTime with
  | false => exact hdone _ c s' s' _ h' hs'
  | true =>
    rw [if_pos rfl, runs_get_bind]
    dsimp only
    split
    · exact hdone _ c s' s' _ h' hs'
    · split
      · next hjoining =>
        rw [runs_modify_bind]
        obtain ⟨hblame, htransport⟩ := h'.blame called ((hcalls hjoining).rely hrely).2
        refine hdone _ c s' _ _ hblame (hblame.sane ?_)
        rw [htransport]
        exact hs'.transport
      · rw [runs_modify_bind, runs_guarded]
        have hbegun := h'.beginAttempt (hrely.job.trans hjob)
        refine runs_authenticate hexit hbegun (hbegun.sane hs'.transport) rfl ?_
        intro r c s₀ s'' complete h'' hs''
        obtain ⟨hended, hsended⟩ := h''.endAttempt hs''
        exact hdone r c s₀ _ _ hended hsended

end Runs

/-! ## The tasks -/

/-- A task takes the gate where its section begins. -/
theorem gated_take (hs : Sane K s) (hgate : s.gate = none) (hturn : Turn i s) :
    Gated K i s.fixed s (take i s) ∧ Sane K (take i s) := by
  have hsteady : Steady K (take i s) :=
    ⟨hs.generation, hs.active, hs.blamed, hs.closed, hs.cleanups⟩
  refine ⟨⟨hsteady, rfl, rfl, ?_, .inr hgate, rfl, hturn, hturn⟩, hsteady, hs.transport⟩
  exact ⟨fun _ hnone => absurd hgate hnone, fun j hj => .inl (Option.some.inj hj).symm, fun _ _ => rfl,
    fun _ _ _ => ⟨rfl, rfl⟩, Nat.le_refl _, fun hc _ => hc, fun _ hn => .inl hn⟩

theorem Gated.ends {c : Cause (Request R) (Answer B)} (h : Gated K i fixed s₀ s) (hs : Sane K s) :
    (cooperation K).Ends i () c s₀ (Control.release s) := ⟨hs.release, h.release⟩

/-- A task that is no cleanup. -/
theorem turn_of_none (h : s.seen.cleanup i = none) : Turn i s := by
  intro n hn
  rw [h] at hn
  cases hn

section Tasks

variable {c : Cause (Request R) (Answer B)}

/-- A task without the gate waits for it. -/
theorem runs_wait {α : Type} {q : Request R} {f : Answer B q → Task T B α}
    {post : α → Cause (Request R) (Answer B) → ConnectionControl T → ConnectionControl T → Prop}
    (hs : Sane K s) (hdone : Guarantee K i s₀ s)
    (hnext : ∀ a c s', Sane K s' → Rely K i s s' → enabled O q a s' = true →
      (f a).Runs ((cooperation K).discipline i) id post c s' s') :
    (Async.ask q >>= f).Runs ((cooperation K).discipline i) id post c s₀ s := by
  rw [runs_ask_bind]
  refine ⟨⟨hs, hdone⟩, fun s' hs' hrely => ?_⟩
  exact ⟨⟨hs', .refl i s'⟩, fun a ha => hnext a _ s' hs' hrely ha⟩

theorem runs_connectWithTimeout {rounds : Nat} (hs : Sane K s) (hunborn : Unborn i s) :
    (do let _ ← connectWithTimeout O i rounds : Task T B Unit).Runs ((cooperation K).discipline i) id
      ((cooperation K).Ends i) c s s := by
  have hjob := hunborn.2
  rw [runs_bind]
  unfold connectWithTimeout
  rw [runs_get_bind]
  split
  · next hgate =>
    rw [runs_modify_bind, runs_guarded]
    obtain ⟨h, hs'⟩ := gated_take hs (Option.isNone_iff_eq_none.mp hgate) (turn_of_none hjob)
    refine runs_connectGated (fun _ => exits_release) h hs' hjob (fun h => nomatch h) ?_
    exact fun _ _ _ _ _ h hs => h.ends hs
  · refine runs_wait hs (.refl i s) fun inTime c s' hs' hrely henabled => ?_
    cases inTime with
    | false => exact ⟨hs', .refl i s'⟩
    | true =>
      rw [if_pos rfl, runs_modify_bind, runs_guarded]
      have hgate : s'.gate = none := by simpa [enabled] using henabled
      have hjob' := hrely.job.trans hjob
      obtain ⟨h, hs''⟩ := gated_take hs' hgate (turn_of_none hjob')
      refine runs_connectGated (fun _ => exits_release) h hs'' hjob' (fun hactive => ?_)
        fun _ _ _ _ _ h hs => h.ends hs
      have hcalls : Calls (ended s) s' := (calls_ended hs.toSteady hactive).rely hrely
      exact hcalls

/-- The gate taken and given back. -/
theorem release_take (hs : Sane K s) (hgate : s.gate = none) :
    Sane K (release (take i s)) ∧ Guarantee K i s (release (take i s)) := by
  refine ⟨⟨⟨hs.generation, hs.active, hs.blamed, hs.closed, hs.cleanups⟩, hs.transport⟩, ?_⟩
  exact ⟨fun _ hnone => absurd hgate hnone, (fun _ hj => nomatch hj), fun _ _ => rfl,
    fun _ _ _ => ⟨rfl, rfl⟩, Nat.le_refl _, fun hc _ => hc, fun _ hn => .inl hn⟩

/-- What a task does without the gate. -/
theorem guarantee_ungated (hjob : s₀.seen.cleanup i = none) (hgate : s.gate = s₀.gate)
    (haround : K.around s₀.transport s.transport) (hfixed : s.fixed = s₀.fixed)
    (hjobs : ∀ j, j ≠ i → s.seen.cleanup j = s₀.seen.cleanup j)
    (hcancelled : s₀.cancelled = true → s.cancelled = true)
    (hmarker : ∀ n, s.seen.marker = some n → s₀.seen.marker = some n) : Guarantee K i s₀ s where
  gate _ _ := ⟨hgate, haround, hfixed⟩
  owner _ hj := .inr (hgate ▸ hj)
  job := hjobs
  late _ hn := nomatch hjob.symm.trans hn
  attempts := Nat.le_of_eq (congrArg (fun f => f.2.1) hfixed).symm
  cancelled hc _ := hcancelled hc
  marker n hn := .inl (hmarker n hn)

theorem Gated.returnOk (h : Gated K i fixed s₀ s) (hs : Sane K s) (superseded : Bool)
    (hclosed : superseded = false → K.closed s.transport) :
    Gated K i fixed s₀ (returnOk superseded s) ∧ Sane K (returnOk superseded s) := by
  have hsteady : Steady K (Control.returnOk superseded s) := by
    refine ⟨hs.generation, hs.active, hs.blamed, fun t hmem => ?_, hs.cleanups⟩
    rcases List.mem_cons.mp hmem with heq | hmem
    · cases heq
      exact hclosed rfl
    · exact hs.closed t hmem
  exact ⟨h.change hsteady rfl h.fixed rfl (.inl rfl) (fun hc _ => hc) fun _ hm => .inl hm,
    hsteady, hs.transport⟩

/-- A disconnect's worker, spawned with its generation. -/
theorem runs_worker {generation : UInt64} (hs : Sane K s) (hjob : s.seen.cleanup i = none)
    (hdone : Guarantee K i s₀ s) :
    (do let _ ← worker O i generation : Task T B Unit).Runs ((cooperation K).discipline i) id
      ((cooperation K).Ends i) c s₀ s := by
  rw [runs_bind]
  unfold worker
  refine runs_wait hs hdone fun _ c s' hs' hrely henabled => ?_
  rw [runs_modify_bind, runs_guarded, runs_get_bind]
  have hgate : s'.gate = none := by simpa [enabled] using henabled
  obtain ⟨h, hs''⟩ := gated_take hs' hgate (turn_of_none (hrely.job.trans hjob))
  split
  · rw [runs_modify_bind]
    obtain ⟨hok, hsok⟩ := h.returnOk hs'' true fun h => nomatch h
    exact hok.ends hsok
  · rw [runs_bind]
    refine runs_own exits_release h (K.disconnect _ _ _ hs''.transport) ?_ ?_
    · intro r c s₀ s' h' hdone
      have hs' := h'.sane hdone.1
      cases r with
      | error err => exact h'.ends hs'
      | ok a =>
        rw [runs_modify_bind]
        obtain ⟨hok, hsok⟩ := h'.returnOk hs' false fun _ => hdone.2 rfl
        exact hok.ends hsok
    · intro cut c s₀ s' h' hs'
      exact h'.ends hs'

theorem runs_cleanup {generation : UInt64} {attempt : Nat} (hs : Sane K s)
    (hown : generation = UInt64.ofNat attempt)
    (hdone : Guarantee K i s₀ s) (hunborn : s₀.seen.cleanup i = none) :
    (cleanup O i generation attempt).Runs ((cooperation K).discipline i) id ((cooperation K).Ends i)
      c s₀ s := by
  unfold cleanup
  rw [runs_modify_bind]
  refine runs_wait (s := { s with seen := { s.seen with cleanup := _ } })
    ⟨⟨hs.generation, hs.active, hs.blamed, hs.closed, hs.cleanups⟩, hs.transport⟩ ?_ ?_
  · refine ⟨hdone.gate, hdone.owner, fun j hj => ?_, (fun _ hn => nomatch hunborn.symm.trans hn),
      hdone.attempts, hdone.cancelled, hdone.marker⟩
    exact (Function.update_of_ne hj _ _).trans (hdone.job j hj)
  · intro _ c s' hs' hrely henabled
    rw [runs_modify_bind, runs_guarded, runs_get_bind]
    have hgate : s'.gate = none := by simpa [enabled] using henabled
    have hjob : s'.seen.cleanup i = some attempt := hrely.job.trans (Function.update_self _ _ _)
    split
    · exact release_take hs' hgate
    · next heq =>
      have hgeneration : s'.generation = generation := by simpa [take] using heq
      have hturn : Turn i s' := by
        intro n hn
        rw [hjob] at hn
        cases hn
        exact hgeneration.trans hown
      obtain ⟨h, hs''⟩ := gated_take hs' hgate hturn
      rw [runs_bind]
      refine runs_own exits_release h (K.disconnect _ _ _ hs''.transport) ?_ ?_
      · exact fun _ _ _ _ h hdone => h.ends (h.sane hdone.1)
      · exact fun _ _ _ _ h hs => h.ends hs

/-- A task of the transport's own, beside the gate. -/
theorem runs_beside {w : W} {t' : T} (hs : Sane K s) (hunborn : Unborn i s)
    (hstart : O.start w s.transport = some t') :
    (do let _ ← own .beside (O.program w) : Task T B Unit).Runs ((cooperation K).discipline i) id
      ((cooperation K).Ends i) c s { s with transport := t' } := by
  rw [runs_bind]
  refine Runs.embed
    (P := fun _ s₀ s => Steady K s₀ ∧ Unborn i s₀ ∧ ∃ t, s = { s₀ with transport := t })
    (fun _ _ => rfl) ?_ ?_ (K.own w s.transport t' hstart hs.transport)
    ⟨hs.toSteady, hunborn, t', rfl⟩ ?_
  · rintro c s₀ s t ⟨hsteady, hunborn, _, rfl⟩
    exact ⟨hsteady, hunborn, t, rfl⟩
  · rintro c s₀ s r c' ⟨hsteady, hunborn, t, rfl⟩ hinv haround
    refine ⟨⟨⟨hsteady.transport t, hinv⟩, guarantee_ungated hunborn.2 rfl haround rfl (fun _ _ => rfl)
      id fun _ => id⟩, fun s' hs' hrely => ⟨⟨hs'.transport, trivial⟩, ?_⟩⟩
    have hunborn' : Unborn i s' := ⟨hrely.ungated hunborn.1, hrely.job.trans hunborn.2⟩
    refine ⟨fun t' hinv' haround' => ⟨⟨⟨hs'.toSteady.transport t', hinv'⟩,
      guarantee_ungated hunborn'.2 rfl haround' rfl (fun _ _ => rfl) id fun _ => id⟩, ?_⟩, ?_⟩
    · rintro a cut -
      exact ⟨⟨hs'.toSteady.transport t', hinv'⟩,
        guarantee_ungated hunborn'.2 rfl haround' rfl (fun _ _ => rfl) id fun _ => id⟩
    · rintro a ha b rfl
      exact ⟨ha, hs'.toSteady, hunborn', s'.transport, rfl⟩
  · rintro a c s₀ s ⟨hsteady, hunborn, t, rfl⟩ ⟨hinv, haround⟩
    exact ⟨⟨hsteady.transport t, hinv⟩,
      guarantee_ungated hunborn.2 rfl haround rfl (fun _ _ => rfl) id fun _ => id⟩

end Tasks

theorem Steady.disconnect (h : Steady K s) : Steady K (disconnect O s) :=
  ⟨h.generation, fun hactive => ⟨rfl, (h.active hactive).2⟩, h.blamed, h.closed, h.cleanups⟩

variable (K) in
/-- **The tasks of a transport cooperate.** -/
theorem cooperation_holds : (cooperation K).Holds := by
  intro i op s s' hs hunborn hstart
  cases op with
  | connect rounds =>
    cases hstart
    exact runs_connectWithTimeout hs hunborn
  | disconnect =>
    cases hstart
    obtain ⟨hinv, haround⟩ := K.invalidate _ hs.transport
    exact ⟨⟨hs.toSteady.disconnect, hinv⟩, guarantee_ungated hunborn.2 rfl haround rfl
      (fun _ _ => rfl) (fun _ => rfl) fun _ hn => nomatch hn⟩
  | worker generation =>
    simp only [control, start] at hstart
    split at hstart
    · cases hstart
      refine runs_worker ⟨⟨hs.generation, hs.active, hs.blamed, hs.closed, hs.cleanups⟩,
        hs.transport⟩ hunborn.2 ?_
      exact guarantee_ungated hunborn.2 rfl (K.around_refl _) rfl (fun _ _ => rfl) id fun _ => id
    · cases hstart
  | cleanup generation attempt =>
    simp only [control, start] at hstart
    split at hstart
    · next hmem =>
      cases hstart
      refine runs_cleanup ⟨⟨hs.generation, hs.active, hs.blamed, hs.closed, fun g n hmem => ?_⟩,
        hs.transport⟩ (hs.cleanups _ _ hmem) ?_ hunborn.2
      · exact hs.cleanups g n (List.mem_of_mem_erase hmem)
      · exact guarantee_ungated hunborn.2 rfl (K.around_refl _) rfl (fun _ _ => rfl) id fun _ => id
    · cases hstart
  | own w =>
    obtain ⟨t, ht, rfl⟩ := Option.map_eq_some_iff.mp hstart
    exact runs_beside hs hunborn ht

theorem sane_new {t : T} (h : K.invariant t) : Sane K (ConnectionControl.new t) :=
  ⟨⟨rfl, (fun h => nomatch h), (fun _ _ h => nomatch h), (fun _ h => nomatch h),
    fun _ _ h => nomatch h⟩, h⟩

theorem unborn_new (t : T) (i : Nat) : Unborn i (ConnectionControl.new t) :=
  ⟨(fun h => nomatch h), rfl⟩

theorem sound_new {t : T} (h : K.invariant t) :
    (cooperation K).Sound (Pool.new (ConnectionControl.new t)) :=
  Cooperation.Sound.new (sane_new h) (unborn_new t)

end Thalovant.Transport.Control
