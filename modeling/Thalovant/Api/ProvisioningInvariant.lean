import Thalovant.Api.Provisioning

/-!
# What stays while clients are made and deleted

A client that is gone does not come back, and what a call has done is its own. The invariant joins what
the API holds with what each call has sent and returned; what the API and other programs do keeps it.
-/

namespace Thalovant.Api

variable {lib : ProvisionLibraries} {secrets : Nat → ClientSecrets} {calls : Nat → ClientCall}

/-! ## What does not come back -/

/-- The client is not there, and will not be. -/
def Absent (id : String) (s : ClientStore) : Prop :=
  id ∈ s.gone ∨ s.etags id = [] ∧ id ∈ s.named

theorem Absent.not_live {id : String} {s : ClientStore} (h : Absent id s) : s.live id = false := by
  rcases h with h | ⟨h, -⟩
  · simp [ClientStore.live, h]
  · simp [ClientStore.live, h]

theorem absent_of_not_live {id : String} {s : ClientStore} (h : s.live id = false)
    (hnamed : id ∈ s.named) : Absent id s := by
  unfold ClientStore.live at h
  by_cases hgone : id ∈ s.gone
  · exact .inl hgone
  · refine .inr ⟨?_, hnamed⟩
    simpa [hgone] using h

/-- What stays, whatever happens. -/
structure Grows (s s' : ClientStore) : Prop where
  absent : ∀ id, Absent id s → Absent id s'
  etags : ∀ id, ∀ etag ∈ s.etags id, etag ∈ s'.etags id
  named : ∀ id ∈ s.named, id ∈ s'.named
  made : ∀ i id, s.made i = some id → s'.made i = some id
  declined : ∀ i ∈ s.declined, i ∈ s'.declined
  stale : ∀ d ∈ s.stale, d ∈ s'.stale

theorem Grows.refl (s : ClientStore) : Grows s s :=
  ⟨fun _ h => h, fun _ _ h => h, fun _ h => h, fun _ _ h => h, fun _ h => h, fun _ h => h⟩

theorem Grows.trans {s s' s'' : ClientStore} (h : Grows s s') (h' : Grows s' s'') : Grows s s'' :=
  ⟨fun id ha => h'.absent id (h.absent id ha), fun id e he => h'.etags id e (h.etags id e he),
    fun id hn => h'.named id (h.named id hn), fun i id hm => h'.made i id (h.made i id hm),
    fun i hd => h'.declined i (h.declined i hd), fun d hd => h'.stale d (h.stale d hd)⟩

/-- What a call has done is as it was. -/
structure SameCall (i : Nat) (s s' : ClientStore) : Prop where
  posted : s'.posted i = s.posted i
  gets : s'.gets i = s.gets i
  sent : s'.sent i = s.sent i
  answers : s'.answers i = s.answers i
  shown : s'.shown i = s.shown i
  outcome : s'.outcome i = s.outcome i
  /-- A POST that is not on its way makes nothing. -/
  idle : i ∉ s.creates → i ∉ s'.creates ∧ s'.made i = s.made i ∧ (i ∈ s'.declined → i ∈ s.declined)

theorem SameCall.refl (i : Nat) (s : ClientStore) : SameCall i s s :=
  ⟨rfl, rfl, rfl, rfl, rfl, rfl, fun h => ⟨h, rfl, id⟩⟩

theorem SameCall.trans {i : Nat} {s s' s'' : ClientStore} (h : SameCall i s s')
    (h' : SameCall i s' s'') : SameCall i s s'' := by
  refine ⟨h'.posted.trans h.posted, h'.gets.trans h.gets, h'.sent.trans h.sent,
    h'.answers.trans h.answers, h'.shown.trans h.shown, h'.outcome.trans h.outcome, fun hidle => ?_⟩
  obtain ⟨hcreates, hmade, hdeclined⟩ := h.idle hidle
  obtain ⟨hcreates', hmade', hdeclined'⟩ := h'.idle hcreates
  exact ⟨hcreates', hmade'.trans hmade, fun hd => hdeclined (hdeclined' hd)⟩

/-! ## The invariant -/

/-- What a DELETE is for. -/
def Target (call : ClientCall) (i : Nat) (id : String) (s : ClientStore) : Prop :=
  match call with
  | .delete named _ => id = named
  | .create _ _ _ => s.made i = some id

/-- The etag of a DELETE was given, or the call has been shown it. -/
def Shown (call : ClientCall) (i : Nat) (id etag : String) (s : ClientStore) : Prop :=
  etag ∈ s.shown i ∨ call = .delete id (some etag)

/-- What a call that makes a client returns, once the API has answered that it made one. -/
def MadeRight (lib : ProvisionLibraries) (secrets : ClientSecrets) (hub : Value) (kind : Option String)
    (options : BootstrapIdentityOptions) (client : Value) (i : Nat) (s : ClientStore)
    (result : Except ProvisionError BootstrapIdentityResult) : Prop :=
  if ∀ asked, kind = some asked → connectionType client = some asked then
    result = (bootstrapIdentity lib hub client options (siteIdOf options) secrets).mapError .sdk
  else ∃ asked, kind = some asked ∧
    match clientId client with
    | none => result = .error (.unsupportedConnectionType asked (wrongKind client) none none)
    | some id => s.made i = some id ∧
        (result = .error (.unsupportedConnectionType asked (deletedReason client) none none) ∧ Absent id s
          ∨ result = .error (.unsupportedConnectionType asked (keptReason client id) none none))

/-- What a call returns. -/
def Right (lib : ProvisionLibraries) (secrets : ClientSecrets) (i : Nat) (s : ClientStore) :
    ClientCall → Outcome → Prop
  | .delete id _, .deleted result => result = .ok () → Absent id s
  | .create hub kind options, .created result =>
    match s.answers i with
    | some client =>
      (∃ hubId, s.posted i = some (clientPayload hubId options
        (clientSpec options (kind.map trim) (siteIdOf options) secrets)))
      ∧ MadeRight lib secrets hub (kind.map trim) options client i s result
    | none => ∃ err, result = .error err ∧
        ∀ asked reason status problem,
          err = .unsupportedConnectionType asked reason status problem → i ∈ s.declined
  | _, _ => False

/-- How far a call has come. -/
structure Turns (i : Nat) (s : ClientStore) : Prop where
  gets : s.gets i ≤ 2
  sent : (s.sent i).length ≤ 2
  earlier : ∀ d ∈ (s.sent i).tail, d ∈ s.stale

structure SaneClients (lib : ProvisionLibraries) (secrets : Nat → ClientSecrets)
    (calls : Nat → ClientCall) (s : ClientStore) : Prop where
  known : ∀ id ∈ s.gone, s.etags id ≠ []
  waiting : ∀ i ∈ s.creates, s.made i = none ∧ i ∉ s.declined
  declined : ∀ i ∈ s.declined, s.made i = none
  made : ∀ i id, s.made i = some id → s.etags id ≠ []
  flight : ∀ d ∈ s.deletes, d ∈ s.sent d.call ∧ d ∉ s.removals ∧ d ∉ s.stale
  stale : ∀ d ∈ s.stale, d ∈ s.sent d.call ∧ d ∉ s.removals
  removed : ∀ d ∈ s.removals,
    d ∈ s.sent d.call ∧ d.id ∈ s.gone ∧ (s.etags d.id).head? = some d.etag
  sent : ∀ i, ∀ d ∈ s.sent i, d.call = i ∧ d.attempt < (s.sent i).length ∧ Target (calls i) i d.id s
    ∧ Shown (calls i) i d.id d.etag s
  turns : ∀ i, Turns i s
  outcome : ∀ i outcome, s.outcome i = some outcome → Right lib (secrets i) i s (calls i) outcome

theorem saneClients_new : SaneClients lib secrets calls .new where
  known _ h := nomatch h
  waiting _ h := nomatch h
  declined _ h := nomatch h
  made _ _ h := nomatch h
  flight _ h := nomatch h
  stale _ h := nomatch h
  removed _ h := nomatch h
  sent _ _ h := nomatch h
  turns _ := ⟨Nat.zero_le 2, Nat.zero_le 2, nofun⟩
  outcome _ _ h := nomatch h

/-! ## What is kept -/

theorem Target.grows {call : ClientCall} {i : Nat} {id : String} {s s' : ClientStore}
    (h : Target call i id s) (hgrows : Grows s s') : Target call i id s' := by
  cases call with
  | delete named etag => exact h
  | create hub kind options => exact hgrows.made i id h

theorem Shown.same {call : ClientCall} {i : Nat} {id etag : String} {s s' : ClientStore}
    (h : Shown call i id etag s) (hsame : SameCall i s s') : Shown call i id etag s' := by
  unfold Shown
  rw [hsame.shown]
  exact h

theorem Right.grows {i : Nat} {call : ClientCall} {outcome : Outcome} {s s' : ClientStore}
    (h : Right lib (secrets i) i s call outcome) (hgrows : Grows s s') (hsame : SameCall i s s') :
    Right lib (secrets i) i s' call outcome := by
  cases call with
  | delete id etag =>
    cases outcome with
    | deleted result => exact fun hok => hgrows.absent id (h hok)
    | created result => exact h
  | create hub kind options =>
    cases outcome with
    | deleted result => exact h
    | created result =>
      unfold Right at h ⊢
      rw [hsame.answers, hsame.posted]
      cases hanswer : s.answers i with
      | none =>
        rw [hanswer] at h
        obtain ⟨err, herr, hdeclined⟩ := h
        exact ⟨err, herr, fun asked reason status problem he =>
          hgrows.declined i (hdeclined asked reason status problem he)⟩
      | some client =>
        rw [hanswer] at h
        refine ⟨h.1, ?_⟩
        have hmade := h.2
        unfold MadeRight at hmade ⊢
        split
        · next hkind => rwa [if_pos hkind] at hmade
        · next hkind =>
          rw [if_neg hkind] at hmade
          obtain ⟨asked, hasked, hmade⟩ := hmade
          refine ⟨asked, hasked, ?_⟩
          cases hid : clientId client with
          | none => rwa [hid] at hmade
          | some id =>
            rw [hid] at hmade
            refine ⟨hgrows.made i id hmade.1, hmade.2.imp_left ?_⟩
            exact fun hdeleted => ⟨hdeleted.1, hgrows.absent id hdeleted.2⟩

theorem Turns.grows {i : Nat} {s s' : ClientStore} (h : Turns i s) (hgrows : Grows s s')
    (hsame : SameCall i s s') : Turns i s' := by
  constructor
  · exact hsame.gets ▸ h.gets
  · exact hsame.sent ▸ h.sent
  · exact hsame.sent ▸ fun d hd => hgrows.stale d (h.earlier d hd)

/-- What the calls have done is as it was, so what is to be shown is about the API. -/
theorem SaneClients.of_same {s s' : ClientStore} (h : SaneClients lib secrets calls s)
    (hgrows : Grows s s') (hsame : ∀ i, SameCall i s s')
    (hknown : ∀ id ∈ s'.gone, s'.etags id ≠ [])
    (hwaiting : ∀ i ∈ s'.creates, s'.made i = none ∧ i ∉ s'.declined)
    (hdeclined : ∀ i ∈ s'.declined, s'.made i = none)
    (hmade : ∀ i id, s'.made i = some id → s'.etags id ≠ [])
    (hflight : ∀ d ∈ s'.deletes, d ∈ s.sent d.call ∧ d ∉ s'.removals ∧ d ∉ s'.stale)
    (hstale : ∀ d ∈ s'.stale, d ∈ s.sent d.call ∧ d ∉ s'.removals)
    (hremoved : ∀ d ∈ s'.removals,
      d ∈ s.sent d.call ∧ d.id ∈ s'.gone ∧ (s'.etags d.id).head? = some d.etag) :
    SaneClients lib secrets calls s' where
  known := hknown
  waiting := hwaiting
  declined := hdeclined
  made := hmade
  flight d hd := (hsame d.call).sent ▸ hflight d hd
  stale d hd := (hsame d.call).sent ▸ hstale d hd
  removed d hd := (hsame d.call).sent ▸ hremoved d hd
  sent i d hd := by
    rw [(hsame i).sent] at hd ⊢
    obtain ⟨hcall, hattempt, htarget, hshown⟩ := h.sent i d hd
    exact ⟨hcall, hattempt, htarget.grows hgrows, hshown.same (hsame i)⟩
  turns i := (h.turns i).grows hgrows (hsame i)
  outcome i outcome ho := (h.outcome i outcome ((hsame i).outcome ▸ ho)).grows hgrows (hsame i)

/-! ## The API -/

/-- What the API and the other programs do keeps the invariant, and leaves what the calls rely on. -/
structure WorldStep (lib : ProvisionLibraries) (secrets : Nat → ClientSecrets)
    (calls : Nat → ClientCall) (s s' : ClientStore) : Prop where
  sane : SaneClients lib secrets calls s'
  grows : Grows s s'
  same : ∀ i, SameCall i s s'

theorem WorldStep.refl {s : ClientStore} (h : SaneClients lib secrets calls s) :
    WorldStep lib secrets calls s s := ⟨h, .refl s, fun i => .refl i s⟩

theorem WorldStep.trans {s s' s'' : ClientStore} (h : WorldStep lib secrets calls s s')
    (h' : WorldStep lib secrets calls s' s'') : WorldStep lib secrets calls s s'' :=
  ⟨h'.sane, h.grows.trans h'.grows, fun i => (h.same i).trans (h'.same i)⟩

theorem etags_putEtag_self (id etag : String) (s : ClientStore) :
    (s.putEtag id etag).etags id = etag :: s.etags id := Function.update_self _ _ _

theorem etags_putEtag_of_ne {id other : String} (h : other ≠ id) (etag : String) (s : ClientStore) :
    (s.putEtag id etag).etags other = s.etags other := Function.update_of_ne h _ _

theorem Absent.putEtag {id other etag : String} {s : ClientStore} (h : Absent other s)
    (hid : s.live id = true ∨ s.isFresh id = true) : Absent other (s.putEtag id etag) := by
  rcases h with hgone | ⟨hetags, hnamed⟩
  · exact .inl hgone
  · refine .inr ⟨?_, hnamed⟩
    have hne : other ≠ id := by
      rintro rfl
      rcases hid with hlive | hfresh
      · simp [ClientStore.live, hetags] at hlive
      · simp [ClientStore.isFresh, hnamed] at hfresh
    exact (etags_putEtag_of_ne hne etag s).trans hetags

theorem grows_putEtag {id etag : String} {s : ClientStore}
    (hid : s.live id = true ∨ s.isFresh id = true) : Grows s (s.putEtag id etag) := by
  refine ⟨fun other h => h.putEtag hid, fun other e he => ?_, fun _ h => h, fun _ _ h => h,
    fun _ h => h, fun _ h => h⟩
  by_cases hother : other = id
  · subst hother
    rw [etags_putEtag_self]
    exact List.mem_cons_of_mem _ he
  · rw [etags_putEtag_of_ne hother]
    exact he

theorem etags_putEtag_ne {id etag other : String} {s : ClientStore} (h : s.etags other ≠ []) :
    (s.putEtag id etag).etags other ≠ [] := by
  by_cases hother : other = id
  · subst hother
    rw [etags_putEtag_self]
    exact List.cons_ne_nil _ _
  · rw [etags_putEtag_of_ne hother]
    exact h

/-- What is gone has its etags still. -/
theorem etags_putEtag_of_gone {id etag other : String} {s : ClientStore}
    (hid : s.live id = true ∨ s.isFresh id = true) (hgone : other ∈ s.gone) (hknown : s.etags other ≠ []) :
    (s.putEtag id etag).etags other = s.etags other := by
  refine etags_putEtag_of_ne ?_ etag s
  rintro rfl
  rcases hid with hlive | hfresh
  · simp [ClientStore.live, hgone] at hlive
  · simp [ClientStore.isFresh, hknown] at hfresh

theorem same_putEtag (i : Nat) (id etag : String) (s : ClientStore) : SameCall i s (s.putEtag id etag) :=
  ⟨rfl, rfl, rfl, rfl, rfl, rfl, fun h => ⟨h, rfl, fun hd => hd⟩⟩

/-- A client that is there, or a new one, gets an etag. -/
theorem WorldStep.putEtag {id : String} {s : ClientStore} (h : SaneClients lib secrets calls s)
    (hid : s.live id = true ∨ s.isFresh id = true) (etag : String) :
    WorldStep lib secrets calls s (s.putEtag id etag) := by
  have hgrows : Grows s (s.putEtag id etag) := grows_putEtag hid
  have hsame : ∀ i, SameCall i s (s.putEtag id etag) := fun i => same_putEtag i id etag s
  refine ⟨h.of_same hgrows hsame (fun other hgone => ?_) h.waiting h.declined
    (fun i other hmade => etags_putEtag_ne (h.made i other hmade)) h.flight h.stale fun d hd => ?_,
    hgrows, hsame⟩
  · exact etags_putEtag_ne (h.known other hgone)
  · obtain ⟨hsent, hgone, hetag⟩ := h.removed d hd
    exact ⟨hsent, hgone, etags_putEtag_of_gone hid hgone (h.known d.id hgone) ▸ hetag⟩

/-- What becomes of a POST that the API processes. -/
theorem make_cases (calls : Nat → ClientCall) (i : Nat) (earlier : Option Nat) (id etag : String)
    (s : ClientStore) :
    s.make calls i earlier id etag = s
    ∨ i ∈ s.creates ∧ (s.isFresh id = true ∧ s.make calls i earlier id etag
        = { s.putEtag id etag with
            creates := s.creates.filter (· ≠ i), made := Function.update s.made i (some id) }
      ∨ ∃ j found, s.made j = some found ∧ s.make calls i earlier id etag
        = { s with
            creates := s.creates.filter (· ≠ i), made := Function.update s.made i (some found) }) := by
  unfold ClientStore.make
  split
  · next hi =>
    split
    · split
      · next hfresh => exact .inr ⟨hi, .inl ⟨hfresh, rfl⟩⟩
      · exact .inl rfl
    · next j =>
      split
      · next hkey =>
        obtain ⟨found, hfound⟩ := Option.isSome_iff_exists.mp (Bool.and_eq_true_iff.mp hkey).2
        exact .inr ⟨hi, .inr ⟨j, found, hfound, by rw [hfound]⟩⟩
      · exact .inl rfl
  · exact .inl rfl

/-- A POST that was on its way has made a client, or found one. -/
theorem WorldStep.made {i : Nat} {id : String} {s : ClientStore} (h : SaneClients lib secrets calls s)
    (hi : i ∈ s.creates) (hid : s.etags id ≠ []) :
    WorldStep lib secrets calls s
      { s with creates := s.creates.filter (· ≠ i), made := Function.update s.made i (some id) } := by
  obtain ⟨hnone, hnot⟩ := h.waiting i hi
  have hmade : ∀ j, j ≠ i → Function.update s.made i (some id) j = s.made j := fun j hj =>
    Function.update_of_ne hj _ _
  have hgrows : Grows s
      { s with creates := s.creates.filter (· ≠ i), made := Function.update s.made i (some id) } := by
    refine ⟨fun _ h => h, fun _ _ h => h, fun _ h => h, fun j other hj => ?_, fun _ h => h, fun _ h => h⟩
    have hne : j ≠ i := by
      rintro rfl
      rw [hnone] at hj
      cases hj
    exact (hmade j hne).trans hj
  have hsame : ∀ j, SameCall j s
      { s with creates := s.creates.filter (· ≠ i), made := Function.update s.made i (some id) } := by
    intro j
    refine ⟨rfl, rfl, rfl, rfl, rfl, rfl, fun hidle => ⟨fun hmem => ?_, ?_, fun hd => hd⟩⟩
    · exact hidle (List.mem_filter.mp hmem).1
    · exact hmade j fun hj => hidle (hj ▸ hi)
  refine ⟨h.of_same hgrows hsame h.known (fun j hj => ?_) (fun j hj => ?_) (fun j other hj => ?_)
    h.flight h.stale h.removed, hgrows, hsame⟩
  · obtain ⟨hj, hne⟩ := List.mem_filter.mp hj
    obtain ⟨hjmade, hjdeclined⟩ := h.waiting j hj
    exact ⟨(hmade j (by simpa using hne)).trans hjmade, hjdeclined⟩
  · have hne : j ≠ i := fun he => hnot (he ▸ hj)
    exact (hmade j hne).trans (h.declined j hj)
  · by_cases hne : j = i
    · subst hne
      have : other = id := by simpa using hj.symm
      exact this ▸ hid
    · exact h.made j other ((hmade j hne).symm.trans hj)

/-- A POST that was on its way has made nothing, and never will. -/
theorem WorldStep.declined {i : Nat} {s : ClientStore} (h : SaneClients lib secrets calls s)
    (hi : i ∈ s.creates) :
    WorldStep lib secrets calls s
      { s with creates := s.creates.filter (· ≠ i), declined := i :: s.declined } := by
  obtain ⟨hnone, -⟩ := h.waiting i hi
  have hgrows : Grows s { s with creates := s.creates.filter (· ≠ i), declined := i :: s.declined } :=
    ⟨fun _ h => h, fun _ _ h => h, fun _ h => h, fun _ _ h => h, fun _ h => List.mem_cons_of_mem _ h,
      fun _ h => h⟩
  have hsame : ∀ j, SameCall j s
      { s with creates := s.creates.filter (· ≠ i), declined := i :: s.declined } := by
    intro j
    refine ⟨rfl, rfl, rfl, rfl, rfl, rfl, fun hidle => ⟨fun hmem => ?_, rfl, fun hd => ?_⟩⟩
    · exact hidle (List.mem_filter.mp hmem).1
    · exact (List.mem_cons.mp hd).resolve_left fun hj => hidle (hj ▸ hi)
  refine ⟨h.of_same hgrows hsame h.known (fun j hj => ?_) ?_ h.made h.flight h.stale h.removed,
    hgrows, hsame⟩
  · obtain ⟨hj, hne⟩ := List.mem_filter.mp hj
    obtain ⟨hmade, hdeclined⟩ := h.waiting j hj
    have hne : j ≠ i := by simpa using hne
    exact ⟨hmade, fun hmem => (List.mem_cons.mp hmem).elim hne hdeclined⟩
  · exact List.forall_mem_cons.mpr ⟨hnone, h.declined⟩

/-- A POST that was on its way is lost. -/
theorem WorldStep.lost {s : ClientStore} (h : SaneClients lib secrets calls s) (i : Nat) :
    WorldStep lib secrets calls s { s with creates := s.creates.filter (· ≠ i) } := by
  have hgrows : Grows s { s with creates := s.creates.filter (· ≠ i) } :=
    ⟨fun _ h => h, fun _ _ h => h, fun _ h => h, fun _ _ h => h, fun _ h => h, fun _ h => h⟩
  have hsame : ∀ j, SameCall j s { s with creates := s.creates.filter (· ≠ i) } := fun j =>
    ⟨rfl, rfl, rfl, rfl, rfl, rfl,
      fun hidle => ⟨fun hmem => hidle (List.mem_filter.mp hmem).1, rfl, fun hd => hd⟩⟩
  exact ⟨h.of_same hgrows hsame h.known (fun j hj => h.waiting j (List.mem_filter.mp hj).1)
    h.declined h.made h.flight h.stale h.removed, hgrows, hsame⟩

theorem same_of_deletes {i : Nat} {s : ClientStore} (deletes removals stale : List Delete)
    (gone : List String) :
    SameCall i s { s with deletes := deletes, removals := removals, stale := stale, gone := gone } :=
  ⟨rfl, rfl, rfl, rfl, rfl, rfl, fun h => ⟨h, rfl, fun hd => hd⟩⟩

theorem grows_gone {s : ClientStore} (id : String) (deletes removals : List Delete) :
    Grows s { s with gone := id :: s.gone, deletes := deletes, removals := removals } :=
  ⟨fun _ h => h.imp_left (List.mem_cons_of_mem _), fun _ _ h => h, fun _ h => h, fun _ _ h => h,
    fun _ h => h, fun _ h => h⟩

theorem etags_ne_of_live {id : String} {s : ClientStore} (h : s.live id = true) : s.etags id ≠ [] := by
  rintro hnil
  simp [ClientStore.live, hnil] at h

theorem grows_arrive (d : Delete) (s : ClientStore) : Grows s (s.arrive d) :=
  ⟨fun _ h => h, fun _ _ h => h, fun _ h => h, fun _ _ h => h, fun _ h => h, fun _ h => h⟩

/-- A DELETE is no longer on its way. -/
theorem WorldStep.arrive {s : ClientStore} (h : SaneClients lib secrets calls s) (d : Delete) :
    WorldStep lib secrets calls s (s.arrive d) :=
  ⟨h.of_same (grows_arrive d s) (fun _ => same_of_deletes _ _ _ _) h.known h.waiting h.declined h.made
    (fun p hp => h.flight p (List.mem_filter.mp hp).1) h.stale h.removed, grows_arrive d s,
    fun _ => same_of_deletes _ _ _ _⟩

/-- What becomes of a DELETE that the API processes. -/
theorem processDelete_cases (d : Delete) (s : ClientStore) :
    s.process d = s ∨ d ∈ s.deletes ∧ (s.process d = s.arrive d
      ∨ s.live d.id = true ∧ (s.etags d.id).head? = some d.etag
        ∧ s.process d = { s.arrive d with gone := d.id :: s.gone, removals := d :: s.removals }
      ∨ s.process d = { s.arrive d with stale := d :: s.stale }) := by
  unfold ClientStore.process
  split
  · next hd =>
    split
    · next hlive =>
      split
      · next hetag => exact .inr ⟨hd, .inr (.inl ⟨hlive, hetag, rfl⟩)⟩
      · exact .inr ⟨hd, .inr (.inr rfl)⟩
    · exact .inr ⟨hd, .inl rfl⟩
  · exact .inl rfl

theorem WorldStep.process {s : ClientStore} (h : SaneClients lib secrets calls s) (d : Delete) :
    WorldStep lib secrets calls s (s.process d) := by
  rcases processDelete_cases d s with hstill | ⟨hd, hlost | ⟨hlive, hetag, hgone⟩ | hstale⟩
  · rw [hstill]
    exact .refl h
  · rw [hlost]
    exact .arrive h d
  · obtain ⟨hsent, hremovals, hnot⟩ := h.flight d hd
    have hknown : s.etags d.id ≠ [] := etags_ne_of_live hlive
    rw [hgone]
    refine ⟨h.of_same (grows_gone d.id _ _) (fun _ => same_of_deletes _ _ _ _)
      (List.forall_mem_cons.mpr ⟨hknown, h.known⟩) h.waiting h.declined h.made
      (fun p hp => ?_) (fun p hp => ?_)
      (List.forall_mem_cons.mpr ⟨⟨hsent, List.mem_cons_self, hetag⟩, fun p hp => ?_⟩), grows_gone d.id _ _,
      fun _ => same_of_deletes _ _ _ _⟩
    · obtain ⟨hp, hne⟩ := List.mem_filter.mp hp
      obtain ⟨hpsent, hpremovals, hpstale⟩ := h.flight p hp
      exact ⟨hpsent, fun hmem => (List.mem_cons.mp hmem).elim (by simpa using hne) hpremovals, hpstale⟩
    · obtain ⟨hpsent, hpremovals⟩ := h.stale p hp
      refine ⟨hpsent, fun hmem => (List.mem_cons.mp hmem).elim (fun he => hnot (he ▸ hp)) hpremovals⟩
    · obtain ⟨hpsent, hpgone, hpetag⟩ := h.removed p hp
      exact ⟨hpsent, List.mem_cons_of_mem _ hpgone, hpetag⟩
  · obtain ⟨hsent, hremovals, hnot⟩ := h.flight d hd
    have hgrows : Grows s { s.arrive d with stale := d :: s.stale } :=
      ⟨fun _ h => h, fun _ _ h => h, fun _ h => h, fun _ _ h => h, fun _ h => h,
        fun _ h => List.mem_cons_of_mem _ h⟩
    rw [hstale]
    refine ⟨h.of_same hgrows (fun _ => same_of_deletes _ _ _ _) h.known h.waiting h.declined h.made
      (fun p hp => ?_) (List.forall_mem_cons.mpr ⟨⟨hsent, hremovals⟩, h.stale⟩) h.removed, hgrows,
      fun _ => same_of_deletes _ _ _ _⟩
    obtain ⟨hp, hne⟩ := List.mem_filter.mp hp
    obtain ⟨hpsent, hpremovals, hpstale⟩ := h.flight p hp
    exact ⟨hpsent, hpremovals, fun hmem => (List.mem_cons.mp hmem).elim (by simpa using hne) hpstale⟩

theorem WorldStep.make {s : ClientStore} (h : SaneClients lib secrets calls s) (i : Nat)
    (earlier : Option Nat) (id etag : String) :
    WorldStep lib secrets calls s (s.make calls i earlier id etag) := by
  rcases make_cases calls i earlier id etag s with hstill | ⟨hi, ⟨hfresh, hmade⟩ | ⟨j, found, hj, hmade⟩⟩
  · rw [hstill]
    exact .refl h
  · have hput : WorldStep lib secrets calls s (s.putEtag id etag) := .putEtag h (.inr hfresh) etag
    have hid : (s.putEtag id etag).etags id ≠ [] :=
      etags_putEtag_self id etag s ▸ List.cons_ne_nil _ _
    rw [hmade]
    exact hput.trans (.made hput.sane hi hid)
  · rw [hmade]
    exact .made h hi (h.made j found hj)

theorem worldStep {s : ClientStore} (h : SaneClients lib secrets calls s) (e : ClientsEvent) :
    WorldStep lib secrets calls s (clientsWorld calls e s) := by
  cases e with
  | add id etag =>
    show WorldStep lib secrets calls s (s.add id etag)
    unfold ClientStore.add
    split
    · next hfresh => exact .putEtag h (.inr hfresh) etag
    · exact .refl h
  | change id etag =>
    show WorldStep lib secrets calls s (s.change id etag)
    unfold ClientStore.change
    split
    · next hlive => exact .putEtag h (.inl (Bool.and_eq_true_iff.mp hlive).1) etag
    · exact .refl h
  | remove id =>
    show WorldStep lib secrets calls s (s.remove id)
    unfold ClientStore.remove
    split
    · next hlive =>
      have hknown : s.etags id ≠ [] := etags_ne_of_live hlive
      refine ⟨h.of_same (grows_gone id _ _) (fun _ => same_of_deletes _ _ _ _)
        (List.forall_mem_cons.mpr ⟨hknown, h.known⟩) h.waiting h.declined h.made h.flight
        h.stale fun d hd => ?_, grows_gone id _ _, fun _ => same_of_deletes _ _ _ _⟩
      obtain ⟨hsent, hgone, hetag⟩ := h.removed d hd
      exact ⟨hsent, List.mem_cons_of_mem _ hgone, hetag⟩
    · exact .refl h
  | make i earlier id etag => exact .make h i earlier id etag
  | decline i =>
    show WorldStep lib secrets calls s (s.decline i)
    unfold ClientStore.decline
    split
    · next hi => exact .declined h hi
    · exact .refl h
  | loseCreate i => exact .lost h i
  | process d => exact .process h d
  | loseDelete d => exact .arrive h d

end Thalovant.Api
