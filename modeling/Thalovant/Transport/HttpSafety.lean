import Thalovant.Transport.HttpAdmission

/-!
# HTTP admission over a run

What the transport takes the hub to hold is what the hub holds, as far as the hub's acknowledgments have
come. A `/connect` that was processed without its answer having come registers the client behind the
transport's back: it is then not `admitted`, connects again, and disconnects without a request.
-/

namespace Thalovant.Transport.Http

open Async Control

/-- Every registration that the hub holds has been acknowledged. -/
def Acknowledged (s : HttpTransport) : Prop := ∀ n ∈ s.hub.registrations, n ∈ s.seen.acked

/-- What is not known to be held is held exactly if it has not been acknowledged. -/
theorem Unknown.iff {registrations acked : List Nat} (h : ∀ n ∈ registrations, n ∉ acked) :
    registrations = [] ↔ ∀ n ∈ registrations, n ∈ acked := by
  constructor
  · rintro rfl n hn
    cases hn
  · intro hacked
    exact List.eq_nil_iff_forall_not_mem.mpr fun n hn => h n hn (hacked n hn)

/-- **HTTP admission.** Wherever a run has come to: a `/connect` found no registration exactly if each that
the hub held had been acknowledged; the transport is admitted whenever the hub holds a registration
exactly if, where it is not, each that the hub holds has been acknowledged; and a disconnect that was not
superseded returned `Ok` with no registration left exactly if each that the hub held had been
acknowledged. -/
theorem http_admission_law (settings : Settings) (events : List HttpStep) :
    let s := ((Pool.new (ConnectionControl.new HttpTransport.new)).run (control (httpOps settings))
      events).state
    (∀ registrations acked, (registrations, acked) ∈ s.transport.link.seen.connects →
      (registrations = [] ↔ ∀ n ∈ registrations, n ∈ acked))
    ∧ ((s.transport.link.hub.registrations ≠ [] → s.transport.link.admitted = true)
      ↔ (s.transport.link.admitted = false → Acknowledged s.transport.link))
    ∧ ∀ t, (false, t) ∈ s.seen.closed → (t.link.hub.registrations = [] ↔ Acknowledged t.link) := by
  intro s
  have hsane : Sane (admission settings) s :=
    ((sound_new (K := admission settings) admission_new).run (cooperation_holds _) events).invariant
  have hadmission : Admission s.transport.link := hsane.transport
  refine ⟨fun registrations acked hmem => ?_, ?_, fun t ht => ?_⟩
  · exact Unknown.iff (hadmission.connects registrations acked hmem)
  · constructor
    · intro hadmitted hnot n hn
      have hheld := hadmitted (List.ne_nil_of_mem hn)
      rw [hnot] at hheld
      cases hheld
    · intro hacked hheld
      by_contra hnot
      have hnot : s.transport.link.admitted = false := by simpa using hnot
      exact hheld ((Unknown.iff (hadmission.admitted hnot)).mpr (hacked hnot))
  · exact Unknown.iff (hsane.closed t ht)

/-- The answer to a `/connect` that the hub has processed is lost; then a disconnect, and a second
connect. -/
def lostAnswer : List HttpStep :=
  .start 0 (.connect 1) :: List.replicate 5 (.answer 0 (answering accepts))
    ++ [.world (.process 0), .answer 0 (answering fun
      | .quiet => ()
      | .response _ _ => .failed "connection reset by peer"
      | .poll => .late)]
    ++ List.replicate 2 (.answer 0 (answering accepts))
    ++ [.start 1 .disconnect, .start 2 (.worker 1)] ++ List.replicate 3 (.answer 2 (answering accepts))
    ++ .start 3 (.connect 1) :: List.replicate 5 (.answer 3 (answering accepts))

/-- The flag does not mirror what the hub holds. -/
theorem http_admission_law_fails : ¬ ∀ (settings : Settings) (events : List HttpStep),
    let s := ((Pool.new (ConnectionControl.new HttpTransport.new)).run (control (httpOps settings))
      events).state
    (∀ registrations ∈ s.transport.link.seen.connects.map Prod.fst, registrations = [])
    ∧ (s.transport.link.hub.registrations ≠ [] → s.transport.link.admitted = true)
    ∧ ∀ t ∈ s.seen.closed.map Prod.snd, t.link.hub.registrations = [] := by
  intro h
  have hlost := (h ⟨.ok (), "secret", fun _ => ""⟩ lostAnswer).1
  revert hlost
  decide +kernel

end Thalovant.Transport.Http
