import Thalovant.Transport.ControlSteps
import Thalovant.Transport.Http

/-!
# HTTP admission

What the client knows of the hub's registrations. Of those whose `/connect` was acknowledged it knows:
while the hub holds one the transport is `admitted`, and a `/disconnect` that is acknowledged ends them.
Of a `/connect` that was processed without its answer having come it knows nothing.
-/

namespace Thalovant.Transport.Http

open Async Control

/-! ## What is known -/

/-- None of the registrations has been acknowledged. -/
def Unknown (s : HttpTransport) : Prop := ∀ n ∈ s.hub.registrations, n ∉ s.seen.acked

/-- How the requests are numbered, and what each `/connect` found. -/
structure Numbered (s : HttpTransport) : Prop where
  flight : ∀ n path, (n, path) ∈ s.hub.flight → n < s.seen.sent ∧ n ∉ s.hub.processed
  processed : ∀ n ∈ s.hub.processed, n < s.seen.sent
  acked : ∀ n ∈ s.seen.acked, n ∈ s.hub.processed
  connects : ∀ registrations acked, (registrations, acked) ∈ s.seen.connects →
    ∀ n ∈ registrations, n ∉ acked

/-- The transport is admitted while the hub holds a registration that has been acknowledged. -/
structure Admission (s : HttpTransport) : Prop extends Numbered s where
  admitted : s.admitted = false → Unknown s

/-- What happens around a task that has the gate. -/
structure Around (s s' : HttpTransport) : Prop where
  admitted : s'.admitted = s.admitted
  seen : s'.seen = s.seen
  processed : ∀ n ∈ s.hub.processed, n ∈ s'.hub.processed
  flight : ∀ x ∈ s'.hub.flight, x ∈ s.hub.flight
  registrations : ∀ n ∈ s'.hub.registrations,
    n ∈ s.hub.registrations ∨ ∃ path, (n, path) ∈ s.hub.flight
  ended : ∀ n, n ∉ s.hub.processed → (∀ path, (n, path) ∈ s.hub.flight → path = "/disconnect") →
    n ∈ s'.hub.processed → ∀ m ∈ s'.hub.registrations, ∃ path, (m, path) ∈ s.hub.flight

variable {s s' s'' : HttpTransport}

theorem Numbered.of_hub (h : Numbered s) (hhub : s'.hub = s.hub) (hseen : s'.seen = s.seen) :
    Numbered s' := by
  refine ⟨?_, ?_, ?_, ?_⟩ <;> simp only [hhub, hseen]
  · exact h.flight
  · exact h.processed
  · exact h.acked
  · exact h.connects

theorem Around.refl (s : HttpTransport) : Around s s where
  admitted := rfl
  seen := rfl
  processed _ h := h
  flight _ h := h
  registrations _ h := .inl h
  ended _ hnot _ h := absurd h hnot

theorem Around.trans (h : Around s s') (h' : Around s' s'') : Around s s'' where
  admitted := h'.admitted.trans h.admitted
  seen := h'.seen.trans h.seen
  processed n hn := h'.processed n (h.processed n hn)
  flight x hx := h.flight x (h'.flight x hx)
  registrations n hn := by
    rcases h'.registrations n hn with hn | ⟨path, hn⟩
    · exact h.registrations n hn
    · exact .inr ⟨path, h.flight _ hn⟩
  ended n hnot hpath hdone m hm := by
    by_cases hn : n ∈ s'.hub.processed
    · rcases h'.registrations m hm with hm | ⟨path, hm⟩
      · exact h.ended n hnot hpath hn m hm
      · exact ⟨path, h.flight _ hm⟩
    · obtain ⟨path, hm⟩ := h'.ended n hn (fun path h' => hpath path (h.flight _ h')) hdone m hm
      exact ⟨path, h.flight _ hm⟩

/-- Whatever concerns the session alone. -/
theorem Around.of_hub (hhub : s'.hub = s.hub) (hseen : s'.seen = s.seen)
    (hadmitted : s'.admitted = s.admitted) : Around s s' := by
  refine ⟨hadmitted, hseen, ?_, ?_, ?_, ?_⟩ <;> rw [hhub]
  · exact fun _ h => h
  · exact fun _ h => h
  · exact fun _ h => .inl h
  · exact fun _ hnot _ h => absurd h hnot

/-- A registration that comes meanwhile has not been acknowledged. -/
theorem Around.unknown (h : Around s s') (hs : Numbered s) (hunknown : Unknown s) : Unknown s' := by
  intro n hn hacked
  rw [h.seen] at hacked
  rcases h.registrations n hn with hn | ⟨path, hn⟩
  · exact hunknown n hn hacked
  · exact (hs.flight n path hn).2 (hs.acked n hacked)

/-- What is known stays known, if what is on its way has not been processed. -/
theorem Admission.around (h : Admission s) (haround : Around s s')
    (hflight : ∀ n path, (n, path) ∈ s'.hub.flight → n ∉ s'.hub.processed)
    (hprocessed : ∀ n ∈ s'.hub.processed, n < s.seen.sent) : Admission s' where
  flight n path hn := by
    rw [haround.seen]
    exact ⟨(h.flight n path (haround.flight _ hn)).1, hflight n path hn⟩
  processed n hn := by
    rw [haround.seen]
    exact hprocessed n hn
  acked n hn := haround.processed n (h.acked n (by rwa [haround.seen] at hn))
  connects := by
    rw [haround.seen]
    exact h.connects
  admitted hnot := haround.unknown h.toNumbered (h.admitted (by rwa [haround.admitted] at hnot))

/-- Whatever concerns the session alone. -/
theorem Admission.of_hub (h : Admission s) (hhub : s'.hub = s.hub) (hseen : s'.seen = s.seen)
    (hadmitted : s'.admitted = s.admitted) : Admission s' := by
  refine h.around (.of_hub hhub hseen hadmitted) ?_ ?_ <;> rw [hhub]
  · exact fun n path hn => (h.flight n path hn).2
  · exact h.processed

/-! ## The hub -/

theorem mem_of_lookup {n : Nat} {path : String} {flight : List (Nat × String)}
    (h : flight.lookup n = some path) : (n, path) ∈ flight := by
  obtain ⟨l₁, l₂, rfl, -⟩ := List.lookup_eq_some_iff.mp h
  simp

/-- The hub processes a request. -/
theorem around_process (h : Admission s) (n : Nat) :
    Around s { s with hub := s.hub.process n } ∧ Admission { s with hub := s.hub.process n } := by
  cases hlookup : s.hub.flight.lookup n with
  | none =>
    have hstill : s.hub.process n = s.hub := by
      unfold Hub.process
      rw [hlookup]
    rw [hstill]
    exact ⟨.refl s, h⟩
  | some path =>
    have hmem := mem_of_lookup hlookup
    have hprocess : s.hub.process n = {
        flight := s.hub.flight.filter (·.1 ≠ n)
        processed := n :: s.hub.processed
        registrations := if path = "/connect" then n :: s.hub.registrations
          else if path = "/disconnect" then []
          else s.hub.registrations } := by
      unfold Hub.process
      rw [hlookup]
    have haround : Around s { s with hub := s.hub.process n } := by
      rw [hprocess]
      refine ⟨rfl, rfl, fun m hm => List.mem_cons_of_mem _ hm, fun x hx => (List.mem_filter.mp hx).1,
        fun m hm => ?_, fun m hnot hpath hm k hk => ?_⟩
      · dsimp only at hm
        split at hm
        · rcases List.mem_cons.mp hm with rfl | hm
          · exact .inr ⟨path, hmem⟩
          · exact .inl hm
        · split at hm
          · cases hm
          · exact .inl hm
      · -- a `/disconnect` that is processed ends every registration there is
        rcases List.mem_cons.mp hm with rfl | hm
        · have hdisconnect := hpath path hmem
          subst hdisconnect
          simp at hk
        · exact absurd hm hnot
    refine ⟨haround, h.around haround (fun m path' hm hdone => ?_) fun m hm => ?_⟩
    · rw [hprocess] at hm hdone
      obtain ⟨hm, hne⟩ := List.mem_filter.mp hm
      rcases List.mem_cons.mp hdone with rfl | hdone
      · simp at hne
      · exact (h.flight m path' hm).2 hdone
    · rw [hprocess] at hm
      rcases List.mem_cons.mp hm with rfl | hm
      · exact (h.flight m path hmem).1
      · exact h.processed m hm

/-- A request is lost. -/
theorem around_lose (h : Admission s) (n : Nat) :
    Around s { s with hub := s.hub.lose n } ∧ Admission { s with hub := s.hub.lose n } := by
  have haround : Around s { s with hub := s.hub.lose n } :=
    ⟨rfl, rfl, fun _ hm => hm, fun x hx => (List.mem_filter.mp hx).1, fun _ hm => .inl hm,
      fun _ hnot _ hm => absurd hm hnot⟩
  exact ⟨haround, h.around haround
    (fun m path hm => (h.flight m path (List.mem_filter.mp hm).1).2) h.processed⟩

theorem around_world (settings : Settings) (e : HttpEvent) (h : Admission s) :
    Around s (world settings e s) ∧ Admission (world settings e s) := by
  cases e with
  | process n => exact around_process h n
  | lose n => exact around_lose h n
  | polled outcome =>
    cases outcome with
    | read ready => exact ⟨.of_hub rfl rfl rfl, h.of_hub rfl rfl rfl⟩
    | failed err kkFailed => exact ⟨.of_hub rfl rfl rfl, h.of_hub rfl rfl rfl⟩
    | late => exact ⟨.refl s, h⟩

/-! ## Requests -/

/-- A request goes out; a `/connect` only where the transport is not admitted. -/
theorem Admission.send (h : Admission s) (path : String)
    (hpath : path = "/connect" → s.admitted = false) : Admission (send path s) where
  flight n path' hn := by
    rcases List.mem_cons.mp hn with heq | hn
    · cases heq
      exact ⟨Nat.lt_succ_self _, fun hn => Nat.lt_irrefl _ (h.processed _ hn)⟩
    · exact ⟨Nat.lt_succ_of_lt (h.flight n path' hn).1, (h.flight n path' hn).2⟩
  processed n hn := Nat.lt_succ_of_lt (h.processed n hn)
  acked := h.acked
  connects registrations acked hmem := by
    by_cases hconnect : path = "/connect"
    · simp only [Http.send, if_pos hconnect] at hmem
      rcases List.mem_cons.mp hmem with heq | hmem
      · cases heq
        exact h.admitted (hpath hconnect)
      · exact h.connects registrations acked hmem
    · simp only [Http.send, if_neg hconnect] at hmem
      exact h.connects registrations acked hmem
  admitted := h.admitted

/-- A `/disconnect` that has been processed has ended every registration that was known. -/
theorem Admission.ended (h : Admission s) (haround : Around (Http.send "/disconnect" s) s')
    (hprocessed : s.seen.sent ∈ s'.hub.processed) : Unknown s' := by
  intro m hm hacked
  have hnot : s.seen.sent ∉ s.hub.processed := fun hn => Nat.lt_irrefl _ (h.processed _ hn)
  have hown : ∀ path, (s.seen.sent, path) ∈ (Http.send "/disconnect" s).hub.flight →
      path = "/disconnect" := by
    intro path hn
    rcases List.mem_cons.mp hn with heq | hn
    · cases heq
      rfl
    · exact absurd (h.flight _ path hn).1 (Nat.lt_irrefl _)
  obtain ⟨path, hflight⟩ := haround.ended s.seen.sent hnot hown hprocessed m hm
  have hsent := h.send "/disconnect" fun h => nomatch h
  rw [haround.seen] at hacked
  exact (hsent.flight m path hflight).2 (hsent.acked m hacked)

/-- A request's number is acknowledged once it has been processed. -/
theorem Admission.acknowledge (h : Admission s) {n : Nat} (path : String)
    (hprocessed : n ∈ s.hub.processed) : Numbered (acknowledge n path s) := by
  unfold Http.acknowledge
  split
  · refine ⟨h.flight, h.processed, fun m hm => ?_, h.connects⟩
    rcases List.mem_cons.mp hm with rfl | hm
    · exact hprocessed
    · exact h.acked m hm
  · exact h.toNumbered

/-! ## The tasks -/

section Runs

abbrev Admitting : Discipline (Marked HttpTransport) HttpRequest HttpResponse where
  enabled := enabled
  invariant s := Admission s.link
  rely s s' := Around s.link s'.link
  guarantee _ _ _ _ := True

variable {α : Type} {c : Cause HttpRequest HttpResponse} {s₀ s : Marked HttpTransport}

/-- A task waits, with what it knows. -/
theorem runs_ask {r : HttpRequest} {f : HttpResponse r → HttpTask α}
    {post : α → Cause HttpRequest HttpResponse → Marked HttpTransport → Marked HttpTransport → Prop}
    (h : Admission s.link)
    (hnext : ∀ a c s', Admission s'.link → Around s.link s'.link → enabled r a s' = true →
      (f a).Runs Admitting id post c s' s') :
    (Async.ask r >>= f).Runs Admitting id post c s₀ s := by
  rw [runs_ask_bind]
  exact ⟨⟨h, trivial⟩, fun s' hs' haround =>
    ⟨⟨hs', trivial⟩, fun a ha => hnext a _ s' hs' haround ha⟩⟩

theorem runs_quiet {f : Unit → HttpTask α}
    {post : α → Cause HttpRequest HttpResponse → Marked HttpTransport → Marked HttpTransport → Prop}
    (h : Admission s.link)
    (hnext : ∀ c s', Admission s'.link → Around s.link s'.link → (f ()).Runs Admitting id post c s' s') :
    (quiet >>= f).Runs Admitting id post c s₀ s :=
  runs_ask h fun _ c s' hs' haround _ => hnext c s' hs' haround

theorem runs_modify {f : HttpTransport → HttpTransport} {g : Unit → HttpTask α}
    {post : α → Cause HttpRequest HttpResponse → Marked HttpTransport → Marked HttpTransport → Prop} :
    (modify f >>= g).Runs Admitting id post c s₀ s
    ↔ (g ()).Runs Admitting id post c s₀ (s.setLink f) := runs_modify_bind

/-- What a request leaves: an answer that acknowledges it is the only one that tells anything. -/
structure Requested (path : String) (s s' : HttpTransport) (r : Option (Result Unit)) : Prop where
  admitted : s'.admitted = s.admitted
  numbered : Numbered s'
  unanswered : r ≠ some (.ok ()) → Admission s'
  ended : r = some (.ok ()) → path = "/disconnect" → Unknown s'

theorem runs_request {path : String} (h : Admission s.link)
    (hpath : path = "/connect" → s.link.admitted = false) :
    (request path).Runs Admitting id (fun r _ _ s' => Requested path s.link s'.link r) c s₀ s := by
  unfold request
  rw [runs_get_bind, runs_modify]
  have hsent := h.send path hpath
  refine runs_ask hsent fun answer c s' hs' haround henabled => ?_
  have hfailed : ∀ r, r ≠ some (.ok ()) → Requested path s.link s'.link r := fun r hr =>
    ⟨haround.admitted, hs'.toNumbered, fun _ => hs', fun h => absurd h hr⟩
  cases answer with
  | late => exact hfailed none nofun
  | failed message => exact hfailed _ nofun
  | reply reply =>
    dsimp only
    cases hread : readReply path reply with
    | error err => exact hfailed _ nofun
    | ok body =>
      rw [runs_modify]
      have hprocessed : s.link.seen.sent ∈ s'.link.hub.processed := by
        simpa [enabled, hread, Except.isOk, Except.toBool] using henabled
      refine ⟨?_, hs'.acknowledge path hprocessed, fun h => absurd rfl h, fun _ hdisconnect => ?_⟩
      · exact (admitted_acknowledge _ _ _).trans haround.admitted
      · subst hdisconnect
        exact h.ended haround hprocessed

variable {settings : Settings}

/-- What a task leaves when it returns. -/
abbrev Leaves (post : α → HttpTransport → Prop) (a : α) (_ : Cause HttpRequest HttpResponse)
    (_ s' : Marked HttpTransport) : Prop := Admission s'.link ∧ post a s'.link

theorem runs_markConnectionError (err : ThalovantError) (h : Admission s.link) :
    (markConnectionError settings err).Runs Admitting id
      (Leaves fun _ s' => s'.admitted = s.link.admitted) c s₀ s := by
  unfold markConnectionError
  refine runs_quiet h fun c s' hs' haround => ?_
  rw [runs_modify]
  refine runs_quiet (hs'.of_hub rfl rfl rfl) fun c s'' hs'' haround' => ?_
  exact ⟨hs''.of_hub rfl rfl rfl, haround'.admitted.trans haround.admitted⟩

theorem runs_pollCurrentSession (h : Admission s.link) :
    (pollCurrentSession settings).Runs Admitting id (Leaves fun _ _ => True) c s₀ s := by
  unfold pollCurrentSession
  refine runs_quiet h fun c s' hs' haround => ?_
  rw [runs_get_bind]
  split
  · exact ⟨hs', trivial⟩
  · refine runs_ask hs' fun outcome c s'' hs'' haround' _ => ?_
    cases outcome with
    | late => exact ⟨hs'', trivial⟩
    | read ready => exact ⟨hs''.of_hub rfl rfl rfl, trivial⟩
    | failed err kkFailed =>
      dsimp only
      rw [runs_modify_bind, runs_bind]
      refine (runs_markConnectionError err ?_).mono fun _ _ _ _ h => ⟨h.1, trivial⟩
      exact hs''

/-- The rounds of the handshake, by induction on how many there are. -/
theorem runs_handshake (rounds : Nat) (h : Admission s.link) :
    (handshake settings rounds).Runs Admitting id (Leaves fun _ _ => True) c s₀ s := by
  induction rounds generalizing c s₀ s with
  | zero => exact ⟨h, trivial⟩
  | succ rounds ih =>
    unfold handshake
    refine runs_quiet h fun c s' hs' haround => ?_
    rw [runs_get_bind]
    split
    · exact ⟨hs', trivial⟩
    · rw [runs_bind]
      refine (runs_pollCurrentSession hs').mono fun polled c s₀ s hs => ?_
      rcases polled with _ | _ | _
      · exact hs
      · exact hs
      · exact ih hs.1

/-- The admission. It is asked for where the transport is not admitted. -/
theorem runs_connectInner (rounds : Nat) (h : Admission s.link) (hnot : s.link.admitted = false) :
    (connectInner settings rounds).Runs Admitting id (Leaves fun _ _ => True) c s₀ s := by
  unfold connectInner
  split
  · exact ⟨h, trivial⟩
  · split
    · exact ⟨h, trivial⟩
    · refine runs_quiet h fun c s' hs' haround => ?_
      rw [runs_modify, runs_bind]
      have hready : Admission { s'.link with ready := false } := hs'.of_hub rfl rfl rfl
      refine Runs.mono (fun answered c s₀ s hs => ?_)
        (runs_request hready fun _ => haround.admitted.trans hnot)
      rcases answered with _ | err | _
      · exact ⟨hs.unanswered nofun, trivial⟩
      · exact ⟨hs.unanswered nofun, trivial⟩
      · rw [runs_modify]
        refine runs_quiet ⟨hs.numbered.of_hub rfl rfl, nofun⟩ fun c s' hs' haround => ?_
        rw [runs_modify, runs_bind]
        refine Runs.mono (fun done c s₀ s hs => ?_) (runs_handshake rounds ?_)
        rotate_left
        · exact hs'.of_hub rfl rfl rfl
        rcases done with _ | err | _
        · exact hs
        · exact hs
        · refine runs_quiet hs.1 fun c s' hs' haround => ?_
          rw [runs_modify]
          exact runs_quiet (hs'.of_hub rfl rfl rfl) fun c s' hs' haround => ⟨hs', trivial⟩

theorem runs_resetAdmitted (h : Admission s.link) :
    (resetAdmitted settings).Runs Admitting id
      (Leaves fun r s' => r = .ok () → s'.admitted = false) c s₀ s := by
  unfold resetAdmitted
  rw [runs_get_bind]
  split
  · rw [runs_bind]
    refine (runs_request h fun h => absurd h (by decide)).mono fun answered c s₀ s hs => ?_
    rcases answered with _ | err | _
    · dsimp only [Option.getD]
      rw [runs_bind]
      refine (runs_markConnectionError _ ?_).mono fun _ _ _ _ h => ⟨h.1, nofun⟩
      exact hs.unanswered nofun
    · dsimp only [Option.getD]
      rw [runs_bind]
      refine (runs_markConnectionError err ?_).mono fun _ _ _ _ h => ⟨h.1, nofun⟩
      exact hs.unanswered nofun
    · dsimp only [Option.getD]
      rw [runs_modify]
      have hunknown := hs.ended rfl rfl
      exact ⟨⟨hs.numbered.of_hub rfl rfl, fun _ => hunknown⟩, fun _ => rfl⟩
  · next hnot => exact ⟨h, fun _ => by simpa using hnot⟩

theorem runs_connectLocked (rounds : Nat) (h : Admission s.link) :
    (connectLocked settings rounds).Runs Admitting id (Leaves fun _ _ => True) c s₀ s := by
  unfold connectLocked
  refine runs_quiet h fun c s' hs' haround => ?_
  rw [runs_bind]
  refine (runs_resetAdmitted hs').mono fun reset c s₀ s hs => ?_
  rcases reset with err | _
  · exact ⟨hs.1, trivial⟩
  · refine runs_quiet hs.1 fun c s' hs' haround => ?_
    rw [runs_modify]
    refine runs_quiet (hs'.of_hub rfl rfl rfl) fun c s'' hs'' haround' => ?_
    rw [runs_modify, runs_bind]
    have hnot : s''.link.admitted = false :=
      haround'.admitted.trans (haround.admitted.trans (hs.2 rfl))
    refine Runs.mono (fun connected c s₀ s hs => ?_) (runs_connectInner rounds ?_ hnot)
    rotate_left
    · exact hs''.of_hub rfl rfl rfl
    rcases connected with _ | err | _
    · dsimp only [Option.getD]
      rw [runs_bind]
      exact (runs_markConnectionError _ hs.1).mono fun _ _ _ _ h => ⟨h.1, trivial⟩
    · dsimp only [Option.getD]
      rw [runs_bind]
      exact (runs_markConnectionError err hs.1).mono fun _ _ _ _ h => ⟨h.1, trivial⟩
    · exact ⟨hs.1, trivial⟩

/-- A disconnect that succeeds leaves no registration that was known. -/
theorem runs_disconnectInner (h : Admission s.link) :
    disconnectInner.Runs Admitting id (Leaves fun r s' => r = .ok () → Unknown s') c s₀ s := by
  unfold disconnectInner
  refine runs_quiet h fun c s' hs' haround => ?_
  rw [runs_modify]
  refine runs_quiet (hs'.of_hub rfl rfl rfl) fun c s'' hs'' haround' => ?_
  have hclosed : Admission { s''.link with
      health := { s''.link.health with
        connected := false, handshakeComplete := false, phase := .closed } } :=
    hs''.of_hub rfl rfl rfl
  rw [runs_modify, runs_get_bind]
  split
  · next hnot => exact ⟨hclosed, fun _ => hclosed.admitted (by simpa using hnot)⟩
  · rw [runs_bind]
    refine (runs_request hclosed fun h => absurd h (by decide)).mono fun answered c s₀ s hs => ?_
    rcases answered with _ | err | _
    · exact ⟨hs.unanswered nofun, nofun⟩
    · exact ⟨hs.unanswered nofun, nofun⟩
    · dsimp only [Option.getD]
      rw [runs_modify]
      have hunknown := hs.ended rfl rfl
      exact ⟨⟨hs.numbered.of_hub rfl rfl, fun _ => hunknown⟩, fun _ => hunknown⟩

end Runs

/-! ## The transport -/

variable (settings : Settings)

/-- What an HTTP transport keeps. -/
def admission : Contract (httpOps settings) where
  invariant s := Admission s.link
  around s s' := Around s.link s'.link
  closed s := Unknown s.link
  around_refl s := .refl s.link
  around_trans h h' := h.trans h'
  world e _ h := (around_world settings e h).symm
  invalidate s h := ⟨h, .refl s.link⟩
  connect rounds _ _ _ h := runs_connectKkThenXx (fun _ _ h => h)
    (fun _ _ _ h => (runs_connectLocked rounds h).mono fun _ _ _ _ h => h.1) h
  disconnect _ _ _ h := runs_disconnectInner h
  own w := nomatch w

theorem admission_new : Admission HttpTransport.new.link where
  flight _ _ h := nomatch h
  processed _ h := nomatch h
  acked _ h := nomatch h
  connects _ _ h := nomatch h
  admitted _ _ h := nomatch h

end Thalovant.Transport.Http
