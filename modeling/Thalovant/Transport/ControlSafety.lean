import Thalovant.Transport.ControlSteps
import Thalovant.Transport.Http

/-!
# Cleanups, marks and disconnects over a run

A cleanup leaves the link alone once the generation is not its own; the mark of an attempt fails no
connect that was called after that attempt; and a disconnect lasts until the next attempt begins. A
connect that was called before the disconnect may still begin its attempt after it.
-/

namespace Thalovant.Transport.Control

open Async

variable {T R : Type} {B : R → Type} {W E : Type} {O : LinkOps T R B W E}

/-! ## A step -/

section Steps

variable {K : Contract O} {p p' : Pool (ConnectionControl T) (Request R) (Answer B)}
  {e : PoolEvent (Request R) (Answer B) (Op W) E}

/-- A cleanup with another's generation gives the gate back, and no more. -/
theorem late_stepped (h : (cooperation K).Stepped p e p') {i n : Nat}
    (hjob : p.state.seen.cleanup i = some n) (hlate : p.state.generation ≠ UInt64.ofNat n)
    (he : (∃ answers, e = .answer i answers) ∨ e = .drop i) :
    p'.state.transport = p.state.transport ∧ p'.state.cancelled = p.state.cancelled := by
  cases h with
  | still => exact ⟨rfl, rfl⟩
  | world => rcases he with ⟨_, he⟩ | he <;> cases he
  | began => rcases he with ⟨_, he⟩ | he <;> cases he
  | answered j answers q p' hpending henabled hother hdone =>
    rcases he with ⟨_, he⟩ | he <;> cases he
    exact hdone.late n hjob hlate
  | dropped j q p' hpending hother hended hdone =>
    rcases he with ⟨_, he⟩ | he <;> cases he
    exact hdone.late n hjob hlate

/-- The attempts only grow, and the mark stays until the next. -/
theorem cancelled_stepped (h : (cooperation K).Stepped p e p') :
    p.state.seen.attempts ≤ p'.state.seen.attempts
    ∧ (p.state.cancelled = true → p'.state.seen.attempts = p.state.seen.attempts →
      p'.state.cancelled = true) := by
  rcases h.cases with rfl | ⟨e', rfl⟩ | ⟨i, c, hdone, -, -⟩
  · exact ⟨Nat.le_refl _, fun hc _ => hc⟩
  · exact ⟨Nat.le_refl _, fun hc _ => hc⟩
  · exact ⟨hdone.attempts, hdone.cancelled⟩

end Steps

/-! ## A run -/

section Runs

variable {K : Contract O} {p : Pool (ConnectionControl T) (Request R) (Answer B)}

theorem cancelled_run (h : (cooperation K).Sound p)
    (events : List (PoolEvent (Request R) (Answer B) (Op W) E)) :
    p.state.seen.attempts ≤ (p.run (control O) events).state.seen.attempts
    ∧ (p.state.cancelled = true →
      (p.run (control O) events).state.seen.attempts = p.state.seen.attempts →
      (p.run (control O) events).state.cancelled = true) := by
  induction events generalizing p with
  | nil => exact ⟨Nat.le_refl _, fun hc _ => hc⟩
  | cons e events ih =>
    obtain ⟨hsound, hstepped⟩ := h.step (cooperation_holds K) e
    obtain ⟨hle, hkept⟩ := cancelled_stepped hstepped
    obtain ⟨hle', hkept'⟩ := ih hsound
    refine ⟨hle.trans hle', fun hc hsame => ?_⟩
    have hsame : (Pool.run (control O) (p.step (control O) e) events).state.seen.attempts
        = p.state.seen.attempts := hsame
    exact hkept' (hkept hc (by omega)) (by omega)

/-- A disconnect that is called leaves the mark. -/
theorem disconnect_step {j : Nat} (hunborn : p.task j = .unborn) :
    (p.step (control O) (.start j .disconnect)).state = disconnect O p.state := by
  simp only [Pool.step, hunborn, control, start]
  rfl

end Runs

/-- **Cleanups, marks and disconnects.** Wherever a run has come to: a cleanup whose generation is not that
of the link changes neither it nor whether it is connected; a connect that has failed where it found the
mark of an attempt was called before that attempt had ended; and from a disconnect on the transport is
not connected, until an attempt begins. -/
theorem control_law (O : LinkOps T R B W E) (t : T)
    (before : List (PoolEvent (Request R) (Answer B) (Op W) E)) :
    let p := (Pool.new (ConnectionControl.new t)).run (control O) before
    (∀ i n e, p.state.seen.cleanup i = some n → p.state.generation ≠ UInt64.ofNat n →
      (∃ answers, e = .answer i answers) ∨ e = .drop i →
      (p.step (control O) e).state.transport = p.state.transport
      ∧ healthcheck O (p.step (control O) e).state = healthcheck O p.state)
    ∧ (∀ called n, (called, n) ∈ p.state.seen.blamed → called < n)
    ∧ ∀ j, p.task j = .unborn → ∀ after,
      let p' := (p.step (control O) (.start j .disconnect)).run (control O) after
      p'.state.seen.attempts = p.state.seen.attempts → (healthcheck O p'.state).connected = false := by
  intro p
  have hsound : (cooperation (Contract.any O)).Sound p :=
    (sound_new (K := Contract.any O) trivial).run (cooperation_holds _) before
  refine ⟨fun i n e hjob hlate he => ?_, hsound.invariant.blamed, fun j hunborn after => ?_⟩
  · obtain ⟨htransport, hcancelled⟩ :=
      late_stepped (hsound.step (cooperation_holds _) e).2 hjob hlate he
    refine ⟨htransport, ?_⟩
    unfold healthcheck
    rw [htransport, hcancelled]
  · intro p' hsame
    have hstart := disconnect_step (O := O) hunborn
    have hrun := (cancelled_run (hsound.step (cooperation_holds _) (.start j .disconnect)).1 after).2
    rw [hstart] at hrun
    have hcancelled : p'.state.cancelled = true := hrun rfl hsame
    unfold healthcheck
    rw [hcancelled]
    exact noiseHealth_cancelled _ _

/-! ## A disconnect that is lost -/

/-- The task that an event begins. -/
def begins : PoolEvent (Request R) (Answer B) (Op W) E → Option Nat
  | .start i _ => some i
  | _ => none

/-- The event calls a connect. -/
def connects : PoolEvent (Request R) (Answer B) (Op W) E → Bool
  | .start _ (.connect _) => true
  | _ => false

section Lost

open Http

/-- A connect that looks at the health of the link while a disconnect is called: its attempt begins
after that, and the disconnect's worker finds another generation. -/
def lostDisconnect : List HttpStep :=
  List.replicate 6 (.answer 0 (answering accepts)) ++ [.world (.process 0)]
    ++ List.replicate 10 (.answer 0 (answering accepts))
    ++ [.start 2 (.worker 0), .answer 2 (answering accepts)]

/-- A disconnect that was called after every connect, with all of them at their end, may leave the
transport connected. -/
theorem control_law_fails : ¬ ∀ (settings : Settings) (before after : List HttpStep) (j : Nat),
    let p := (Pool.new (ConnectionControl.new HttpTransport.new)).run (control (httpOps settings)) before
    p.task j = .unborn → (∀ e ∈ after, connects e = false) →
    let p' := (p.step (control (httpOps settings)) (.start j .disconnect)).run
      (control (httpOps settings)) after
    (∀ i ∈ j :: (before ++ after).filterMap begins, (p'.task i).pending.isNone = true) →
    p'.state.workers = [] →
    (healthcheck (httpOps settings) p'.state).connected = false := by
  intro h
  have hlost := h ⟨.ok (), "secret", fun _ => ""⟩ [.start 0 (.connect 2)] lostDisconnect 1 rfl
    (by decide) (by decide +kernel) (by decide +kernel)
  revert hlost
  decide +kernel

end Lost

end Thalovant.Transport.Control
