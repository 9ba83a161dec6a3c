import Mathlib.Data.List.DropRight
import Thalovant.Client.AskCollector
import Thalovant.Duration
import Thalovant.Lib.Machine

/-!
# The supervisor of a long-lived link

What to do after each attempt to keep a link up, as a function of what happened and when. A failure
waits for the step of a ladder that doubles up to a ceiling; refusals are put up with for a grace.

`Trace` is the run of a supervisor: what it was told and what it decided. The law of a run
(`link_supervisor_law`) reads each decision off the trace before it.
-/

namespace Thalovant.Session

/-! ## The policy -/

structure HubSessionPolicy where
  retry : Duration
  retryCeiling : Duration
  probe : Duration
  probeDown : Duration

namespace HubSessionPolicy

/-- A policy is valid at an instant that its ceiling can be added to. -/
def validate (now : Nat) (policy : HubSessionPolicy) : Result HubSessionPolicy :=
  if policy.retry.isZero || policy.retryCeiling.nanos < policy.retry.nanos || policy.probe.isZero
      || policy.probeDown.isZero || (Client.checkedAdd now policy.retryCeiling.nanos).isNone then
    .error (.connection "invalid hub session policy")
  else .ok policy

def nextWait (policy : HubSessionPolicy) (current : Duration) : Duration :=
  (current.saturatingMul 2).min policy.retryCeiling

theorem retry_le_of_validate {now : Nat} {policy valid : HubSessionPolicy}
    (h : policy.validate now = .ok valid) :
    valid = policy ∧ policy.retry.nanos ≤ policy.retryCeiling.nanos := by
  unfold validate at h
  split at h
  · cases h
  · next hvalid =>
    cases h
    simp only [Bool.or_eq_true, decide_eq_true_eq, not_or, Nat.not_lt] at hvalid
    exact ⟨rfl, hvalid.1.1.1.2⟩

end HubSessionPolicy

/-! ## The supervisor -/

/-- What one attempt to keep a link up came to. -/
inductive LinkOutcome where
  | up
  | dropped
  | failed
  | refused
  | keyChanged
  | clientKeyRejected
  deriving DecidableEq, Repr

/-- What to do after an outcome. -/
inductive LinkDecision where
  | hold
  | retry (wait : Duration)
  | giveUp (reason : LinkOutcome)
  deriving DecidableEq

structure LinkSupervisor where
  policy : HubSessionPolicy
  refusalGrace : Duration
  wait : Duration
  refusedSince : Option Duration

namespace LinkSupervisor

def new (policy : HubSessionPolicy) (refusalGrace : Duration) : LinkSupervisor where
  policy := policy
  refusalGrace := refusalGrace
  wait := policy.retry
  refusedSince := none

/-- The step of the ladder, and the next one after it. -/
def climb (s : LinkSupervisor) : LinkDecision × LinkSupervisor :=
  (.retry s.wait, { s with wait := s.policy.nextWait s.wait })

/-- The decision after an outcome observed at an instant. -/
def after (s : LinkSupervisor) (outcome : LinkOutcome) (now : Duration) :
    LinkDecision × LinkSupervisor :=
  match outcome with
  | .up => (.hold, { s with wait := s.policy.retry, refusedSince := none })
  | .dropped => (.retry .ZERO, s)
  | .keyChanged | .clientKeyRejected => (.giveUp outcome, s)
  | .refused =>
    let since := s.refusedSince.getD now
    let s := { s with refusedSince := some since }
    if s.refusalGrace.nanos ≤ (now.saturatingSub since).nanos then (.giveUp .refused, s) else s.climb
  | .failed => climb { s with refusedSince := none }

end LinkSupervisor

/-! ## Runs -/

/-- What a supervisor was told, when, and what it decided. -/
structure Observed where
  outcome : LinkOutcome
  now : Duration
  decision : LinkDecision

abbrev Trace := List Observed

namespace LinkSupervisor

/-- The supervisor as a machine that answers an outcome with a decision. -/
def step (s : LinkSupervisor) (seen : LinkOutcome × Duration) : Observed × LinkSupervisor :=
  let (decision, s) := s.after seen.1 seen.2
  ({ outcome := seen.1, now := seen.2, decision := decision }, s)

/-- The trace of a supervisor over what it is told. -/
def trace (policy : HubSessionPolicy) (refusalGrace : Duration)
    (seen : List (LinkOutcome × Duration)) : Trace :=
  Machine.outputs step (new policy refusalGrace) seen

end LinkSupervisor

/-- The wait ordered over a failure or a refusal. -/
def Observed.ladderWait (o : Observed) : Option Duration :=
  match o.outcome, o.decision with
  | .failed, .retry wait | .refused, .retry wait => some wait
  | _, _ => none

namespace Trace

/-- The waits ordered over failures and refusals since the link was last up. -/
def ladderWaits (trace : Trace) : List Duration :=
  (trace.rtakeWhile fun o => o.outcome ≠ .up).filterMap Observed.ladderWait

/-- When the refusals began: the first one since the last success or failure. -/
def refusedSince (trace : Trace) : Option Duration :=
  ((trace.rtakeWhile fun o => o.outcome ≠ .up ∧ o.outcome ≠ .failed).find?
    fun o => o.outcome = .refused).map Observed.now

end Trace

/-- The k-th step of the ladder. -/
def HubSessionPolicy.rung (policy : HubSessionPolicy) (k : Nat) : Duration where
  nanos := min (policy.retry.nanos * 2 ^ k) policy.retryCeiling.nanos
  representable := Nat.lt_of_le_of_lt (Nat.min_le_right _ _) policy.retryCeiling.representable

theorem HubSessionPolicy.rung_zero {policy : HubSessionPolicy}
    (h : policy.retry.nanos ≤ policy.retryCeiling.nanos) : policy.rung 0 = policy.retry := by
  cases hretry : policy.retry with
  | mk nanos _ =>
    rw [hretry] at h
    simp [rung, hretry, Nat.min_eq_left h]

theorem HubSessionPolicy.nextWait_rung (policy : HubSessionPolicy) (k : Nat) :
    policy.nextWait (policy.rung k) = policy.rung (k + 1) := by
  have hnanos : (policy.nextWait (policy.rung k)).nanos = (policy.rung (k + 1)).nanos := by
    unfold nextWait
    rw [Duration.nanos_saturatingMul_min]
    simp only [rung, Nat.pow_succ]
    rw [← Nat.mul_assoc]
    omega
  cases hnext : policy.nextWait (policy.rung k)
  cases hrung : policy.rung (k + 1)
  simpa [hnext, hrung] using hnanos

/-! ## The trace after one more outcome -/

namespace Trace

variable {trace : Trace} {o : Observed}

theorem ladderWaits_concat_up (h : o.outcome = .up) : ladderWaits (trace ++ [o]) = [] := by
  simp [ladderWaits, h]

theorem ladderWaits_concat (h : o.outcome ≠ .up) :
    ladderWaits (trace ++ [o]) = ladderWaits trace ++ o.ladderWait.toList := by
  unfold ladderWaits
  rw [List.rtakeWhile_concat_pos _ _ _ (by simpa using h), List.filterMap_append]
  cases hwait : o.ladderWait <;> simp [hwait]

theorem refusedSince_concat_fresh (h : o.outcome = .up ∨ o.outcome = .failed) :
    refusedSince (trace ++ [o]) = none := by
  rcases h with h | h <;> simp [refusedSince, h]

theorem refusedSince_concat (hup : o.outcome ≠ .up) (hfailed : o.outcome ≠ .failed) :
    refusedSince (trace ++ [o])
      = (refusedSince trace).or (if o.outcome = .refused then some o.now else none) := by
  unfold refusedSince
  rw [List.rtakeWhile_concat_pos _ _ _ (by simpa using ⟨hup, hfailed⟩), List.find?_append,
    Option.map_or]
  by_cases h : o.outcome = .refused <;> simp [h]

end Trace

/-! ## What a supervisor holds of its trace -/

namespace LinkSupervisor

variable {policy : HubSessionPolicy} {grace : Duration}

/-- The supervisor holds the next step of the ladder, and when the refusals began. -/
structure Follows (policy : HubSessionPolicy) (grace : Duration) (trace : Trace)
    (s : LinkSupervisor) : Prop where
  policy_eq : s.policy = policy
  grace_eq : s.refusalGrace = grace
  waits : trace.ladderWaits = (List.range trace.ladderWaits.length).map policy.rung
  wait : s.wait = policy.rung trace.ladderWaits.length
  since : s.refusedSince = trace.refusedSince

theorem follows_new (h : policy.retry.nanos ≤ policy.retryCeiling.nanos) (grace : Duration) :
    Follows policy grace [] (new policy grace) where
  policy_eq := rfl
  grace_eq := rfl
  waits := rfl
  wait := (HubSessionPolicy.rung_zero h).symm
  since := rfl

variable {trace : Trace} {s : LinkSupervisor}

/-- What is decided next, read off the trace. -/
theorem Follows.decision (h : Follows policy grace trace s) (outcome : LinkOutcome)
    (now : Duration) : (s.after outcome now).1 = match outcome with
      | .up => .hold
      | .dropped => .retry .ZERO
      | .failed => .retry (policy.rung trace.ladderWaits.length)
      | .refused =>
        if grace.nanos ≤ now.nanos - (trace.refusedSince.getD now).nanos then .giveUp .refused
        else .retry (policy.rung trace.ladderWaits.length)
      | .keyChanged => .giveUp .keyChanged
      | .clientKeyRejected => .giveUp .clientKeyRejected := by
  cases outcome with
  | refused =>
    simp only [after, h.since, h.grace_eq, Duration.saturatingSub]
    split
    · rfl
    · simp only [climb, h.wait]
  | failed => simp only [after, climb, h.wait]
  | up | dropped | keyChanged | clientKeyRejected => rfl

/-- An outcome that leaves the ladder alone. -/
theorem Follows.stay (h : Follows policy grace trace s) {o : Observed} {since : Option Duration}
    (hup : o.outcome ≠ .up) (hwait : o.ladderWait = none)
    (hsince : (trace ++ [o]).refusedSince = since) :
    Follows policy grace (trace ++ [o]) { s with refusedSince := since } := by
  have hwaits : (trace ++ [o]).ladderWaits = trace.ladderWaits := by
    rw [Trace.ladderWaits_concat hup, hwait, Option.toList_none, List.append_nil]
  refine ⟨h.policy_eq, h.grace_eq, ?_, ?_, hsince.symm⟩
  · rw [hwaits]
    exact h.waits
  · rw [hwaits]
    exact h.wait

/-- A step of the ladder is ordered. -/
theorem Follows.climb (h : Follows policy grace trace s) {o : Observed} {since : Option Duration}
    (hup : o.outcome ≠ .up) (hwait : o.ladderWait = some s.wait)
    (hsince : (trace ++ [o]).refusedSince = since) :
    Follows policy grace (trace ++ [o]) (climb { s with refusedSince := since }).2 := by
  have hwaits : (trace ++ [o]).ladderWaits
      = trace.ladderWaits ++ [policy.rung trace.ladderWaits.length] := by
    rw [Trace.ladderWaits_concat hup, hwait, h.wait, Option.toList_some]
  have hlength : (trace ++ [o]).ladderWaits.length = trace.ladderWaits.length + 1 := by
    rw [hwaits, List.length_append, List.length_singleton]
  refine ⟨h.policy_eq, h.grace_eq, ?_, ?_, hsince.symm⟩
  · rw [hlength, hwaits, List.range_succ, List.map_append, ← h.waits]
    rfl
  · rw [hlength]
    show s.policy.nextWait s.wait = _
    rw [h.policy_eq, h.wait, HubSessionPolicy.nextWait_rung]

theorem Follows.step (hpolicy : policy.retry.nanos ≤ policy.retryCeiling.nanos)
    (h : Follows policy grace trace s) (seen : LinkOutcome × Duration) :
    Follows policy grace (trace ++ [(s.step seen).1]) (s.step seen).2 := by
  obtain ⟨outcome, now⟩ := seen
  cases outcome with
  | up =>
    have hwaits := @Trace.ladderWaits_concat_up trace (s.step (.up, now)).1 rfl
    have hsince := @Trace.refusedSince_concat_fresh trace (s.step (.up, now)).1 (.inl rfl)
    refine ⟨h.policy_eq, h.grace_eq, by rw [hwaits]; rfl, ?_, hsince.symm⟩
    rw [hwaits]
    show s.policy.retry = policy.rung 0
    rw [h.policy_eq, HubSessionPolicy.rung_zero hpolicy]
  | dropped | keyChanged | clientKeyRejected =>
    show Follows policy grace _ { s with refusedSince := s.refusedSince }
    refine h.stay (by simp [LinkSupervisor.step]) rfl ?_
    rw [Trace.refusedSince_concat (by simp [LinkSupervisor.step]) (by simp [LinkSupervisor.step]),
      h.since]
    exact Option.or_none
  | failed =>
    exact h.climb (by simp [LinkSupervisor.step]) rfl (Trace.refusedSince_concat_fresh (.inr rfl))
  | refused =>
    have hsince : ∀ decision, Trace.refusedSince
        (trace ++ [{ outcome := .refused, now := now, decision := decision }])
          = some (s.refusedSince.getD now) := by
      intro decision
      rw [Trace.refusedSince_concat (by simp) (by simp), h.since]
      cases trace.refusedSince <;> rfl
    unfold LinkSupervisor.step LinkSupervisor.after
    dsimp only
    split
    · exact h.stay (by simp) rfl (hsince _)
    · exact h.climb (by simp) rfl (hsince _)

/-- A supervisor follows its trace. -/
theorem follows_trace (hpolicy : policy.retry.nanos ≤ policy.retryCeiling.nanos)
    (seen : List (LinkOutcome × Duration)) :
    Follows policy grace (LinkSupervisor.trace policy grace seen)
      (Machine.final LinkSupervisor.step (new policy grace) seen) := by
  induction seen using List.reverseRecOn with
  | nil => exact follows_new hpolicy grace
  | append_singleton seen x ih =>
    unfold LinkSupervisor.trace at ih ⊢
    rw [Machine.outputs_concat, Machine.final_concat]
    exact ih.step hpolicy x

/-- **The law of a supervisor.** Whatever a supervisor with a valid policy was told: the waits it
ordered since the link was last up are the steps of the ladder, and its next decision is to hold on a
link that is up, to dial again at once on a drop, to give up on a changed or a rejected key, to give
up on a refusal exactly when refusals have lasted the grace, and else to wait for the next step. -/
theorem link_supervisor_law {clock : Nat} {policy valid : HubSessionPolicy}
    (hvalid : policy.validate clock = .ok valid) (grace : Duration)
    (seen : List (LinkOutcome × Duration)) :
    (∀ k wait, (LinkSupervisor.trace valid grace seen).ladderWaits[k]? = some wait →
      wait.nanos = min (valid.retry.nanos * 2 ^ k) valid.retryCeiling.nanos)
    ∧ ∀ outcome now,
      ((Machine.final LinkSupervisor.step (new valid grace) seen).after outcome now).1 =
        match outcome with
        | .up => .hold
        | .dropped => .retry .ZERO
        | .failed => .retry (valid.rung (LinkSupervisor.trace valid grace seen).ladderWaits.length)
        | .refused =>
          if grace.nanos ≤ now.nanos
              - ((LinkSupervisor.trace valid grace seen).refusedSince.getD now).nanos then
            .giveUp .refused
          else .retry (valid.rung (LinkSupervisor.trace valid grace seen).ladderWaits.length)
        | .keyChanged => .giveUp .keyChanged
        | .clientKeyRejected => .giveUp .clientKeyRejected := by
  obtain ⟨rfl, hpolicy⟩ := HubSessionPolicy.retry_le_of_validate hvalid
  have hfollows := @follows_trace valid grace hpolicy seen
  refine ⟨?_, hfollows.decision⟩
  intro k wait hwait
  rw [hfollows.waits, List.getElem?_map] at hwait
  obtain ⟨j, hj, rfl⟩ := Option.map_eq_some_iff.mp hwait
  obtain ⟨_, hk⟩ := List.getElem?_eq_some_iff.mp hj
  rw [List.getElem_range] at hk
  rw [← hk]
  rfl

end LinkSupervisor

/-- The policy of a session that names none. -/
def HubSessionPolicy.default : HubSessionPolicy where
  retry := .fromSecs 10
  retryCeiling := .fromSecs 120
  probe := .fromSecs 60
  probeDown := .fromSecs 5

namespace LinkSupervisor

theorem link_supervisor_law_default :
    HubSessionPolicy.default.validate 0 = .ok HubSessionPolicy.default
    ∧ ∀ k wait, (LinkSupervisor.trace HubSessionPolicy.default (.fromSecs 600)
        [(.failed, .fromSecs 1), (.refused, .fromSecs 12)]).ladderWaits[k]? = some wait →
      wait.nanos = min (HubSessionPolicy.default.retry.nanos * 2 ^ k)
        HubSessionPolicy.default.retryCeiling.nanos := by
  have hvalid : HubSessionPolicy.default.validate 0 = .ok HubSessionPolicy.default := rfl
  exact ⟨hvalid, (link_supervisor_law hvalid _ _).1⟩

end LinkSupervisor

end Thalovant.Session
