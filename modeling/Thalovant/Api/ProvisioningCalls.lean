import Thalovant.Api.ProvisioningInvariant

/-!
# The calls that make and delete clients

What each section of a call keeps and what it comes to, so that all of them work together:
`clientsCooperation_holds`.
-/

namespace Thalovant.Api

open Async

variable {lib : ProvisionLibraries} {secrets : Nat → ClientSecrets} {calls : Nat → ClientCall}

/-! ## The calls -/

/-- What a call relies on. -/
structure ClientRely (i : Nat) (s s' : ClientStore) : Prop where
  grows : Grows s s'
  same : SameCall i s s'

/-- What a call guarantees: it does nothing for another call. -/
structure ClientGuarantee (i : Nat) (s s' : ClientStore) : Prop where
  grows : Grows s s'
  others : ∀ j, j ≠ i → SameCall j s s'

theorem ClientGuarantee.refl (i : Nat) (s : ClientStore) : ClientGuarantee i s s :=
  ⟨.refl s, fun j _ => .refl j s⟩

theorem ClientGuarantee.trans {i : Nat} {s s' s'' : ClientStore} (h : ClientGuarantee i s s')
    (h' : ClientGuarantee i s' s'') : ClientGuarantee i s s'' :=
  ⟨h.grows.trans h'.grows, fun j hj => (h.others j hj).trans (h'.others j hj)⟩

/-- A call that has done nothing yet. -/
structure Fresh (i : Nat) (s : ClientStore) : Prop where
  creates : i ∉ s.creates
  made : s.made i = none
  declined : i ∉ s.declined
  gets : s.gets i = 0
  sent : s.sent i = []
  answers : s.answers i = none
  outcome : s.outcome i = none

theorem Fresh.same {i : Nat} {s s' : ClientStore} (h : Fresh i s) (hsame : SameCall i s s') :
    Fresh i s' := by
  obtain ⟨hcreates, hmade, hdeclined⟩ := hsame.idle h.creates
  exact ⟨hcreates, hmade.trans h.made, fun hd => h.declined (hdeclined hd), hsame.gets.trans h.gets,
    hsame.sent.trans h.sent, hsame.answers.trans h.answers, hsame.outcome.trans h.outcome⟩

variable (lib secrets calls) in
/-- How the calls work together. -/
def clientsCooperation : Cooperation (clientsSystem lib secrets calls) where
  invariant := SaneClients lib secrets calls
  rely := ClientRely
  guarantee i _ s _ s' := ClientGuarantee i s s'
  unborn := Fresh
  rely_refl i s := ⟨.refl s, .refl i s⟩
  rely_trans h h' := ⟨h.grows.trans h'.grows, h.same.trans h'.same⟩
  others hij _ h := ⟨h.grows, h.others _ hij⟩
  world h := ⟨(worldStep h _).sane, fun i => ⟨(worldStep h _).grows, (worldStep h _).same i⟩⟩
  unborn_rely h h0 := h0.same h.same

/-! ## What a call does -/

variable {i : Nat} {s : ClientStore}

/-- A call that has not returned yet does something: what it has sent and its turns are right after it,
and it made nothing. -/
theorem SaneClients.of_acting {s' : ClientStore} (h : SaneClients lib secrets calls s)
    (hg : ClientGuarantee i s s') (houtcome : s'.outcome i = none)
    (hetags : s'.etags = s.etags) (hgone : s'.gone = s.gone) (hmade : s'.made = s.made)
    (hdeclined : s'.declined = s.declined) (hremovals : s'.removals = s.removals)
    (hstale : s'.stale = s.stale)
    (hwaiting : ∀ j ∈ s'.creates, s.made j = none ∧ j ∉ s.declined)
    (hflight : ∀ d ∈ s'.deletes, d ∈ s'.sent d.call ∧ d ∉ s.removals ∧ d ∉ s.stale)
    (hsent : ∀ d ∈ s.sent i, d ∈ s'.sent i)
    (hmine : ∀ d ∈ s'.sent i, d.call = i ∧ d.attempt < (s'.sent i).length
      ∧ Target (calls i) i d.id s' ∧ Shown (calls i) i d.id d.etag s')
    (hturns : Turns i s') : SaneClients lib secrets calls s' := by
  have hkept : ∀ d : Delete, d ∈ s.sent d.call → d ∈ s'.sent d.call := by
    intro d hd
    by_cases hi : d.call = i
    · rw [hi] at hd ⊢
      exact hsent d hd
    · rwa [(hg.others d.call hi).sent]
  constructor
  · exact hgone ▸ hetags ▸ h.known
  · exact hmade ▸ hdeclined ▸ hwaiting
  · exact hdeclined ▸ hmade ▸ h.declined
  · exact hmade ▸ hetags ▸ h.made
  · exact hremovals ▸ hstale ▸ hflight
  · exact hstale ▸ hremovals ▸ fun d hd => ⟨hkept d (h.stale d hd).1, (h.stale d hd).2⟩
  · exact hremovals ▸ hgone ▸ hetags ▸ fun d hd => ⟨hkept d (h.removed d hd).1, (h.removed d hd).2⟩
  · intro j d hd
    by_cases hj : j = i
    · subst hj
      exact hmine d hd
    · have hsame := hg.others j hj
      rw [hsame.sent] at hd ⊢
      obtain ⟨hcall, hattempt, htarget, hshown⟩ := h.sent j d hd
      exact ⟨hcall, hattempt, htarget.grows hg.grows, hshown.same hsame⟩
  · intro j
    by_cases hj : j = i
    · exact hj ▸ hturns
    · exact (h.turns j).grows hg.grows (hg.others j hj)
  · intro j outcome ho
    by_cases hj : j = i
    · subst hj
      rw [houtcome] at ho
      cases ho
    · have hsame := hg.others j hj
      exact (h.outcome j outcome (hsame.outcome ▸ ho)).grows hg.grows hsame

/-- A call that is to delete a client, and has not returned. -/
structure Engaged (call : ClientCall) (i : Nat) (answer posted : Option Value) (id : String)
    (s : ClientStore) : Prop where
  outcome : s.outcome i = none
  answers : s.answers i = answer
  posted : s.posted i = posted
  target : Target call i id s

theorem Engaged.grows {call : ClientCall} {answer posted : Option Value} {id : String}
    {s' : ClientStore} (h : Engaged call i answer posted id s) (hgrows : Grows s s')
    (houtcome : s'.outcome i = s.outcome i) (hanswers : s'.answers i = s.answers i)
    (hposted : s'.posted i = s.posted i) : Engaged call i answer posted id s' :=
  ⟨houtcome.trans h.outcome, hanswers.trans h.answers, hposted.trans h.posted, h.target.grows hgrows⟩

/-- It has read the client so often, and sent so many DELETEs, which were refused. -/
structure Turned (i reads deletes : Nat) (s : ClientStore) : Prop where
  gets : s.gets i ≤ reads
  sent : (s.sent i).length ≤ deletes
  stale : ∀ d ∈ s.sent i, d ∈ s.stale

theorem Engaged.rely {call : ClientCall} {answer posted : Option Value} {id : String}
    {s' : ClientStore} (h : Engaged call i answer posted id s) (hrely : ClientRely i s s') :
    Engaged call i answer posted id s' :=
  h.grows hrely.grows hrely.same.outcome hrely.same.answers hrely.same.posted

theorem Turned.rely {reads deletes : Nat} {s' : ClientStore} (h : Turned i reads deletes s)
    (hrely : ClientRely i s s') : Turned i reads deletes s' where
  gets := hrely.same.gets ▸ h.gets
  sent := hrely.same.sent ▸ h.sent
  stale := hrely.same.sent ▸ fun d hd => hrely.grows.stale d (h.stale d hd)

/-- The call asks for the client. -/
theorem SaneClients.countRead (h : SaneClients lib secrets calls s) (id : String)
    (houtcome : s.outcome i = none) (hgets : s.gets i ≤ 1) :
    SaneClients lib secrets calls (countRead i id s) ∧ ClientGuarantee i s (countRead i id s) := by
  have hgrows : Grows s (Api.countRead i id s) :=
    ⟨fun other ha => ha.imp_right fun ha => ⟨ha.1, List.mem_cons_of_mem _ ha.2⟩, fun _ _ h => h,
      fun _ h => List.mem_cons_of_mem _ h, fun _ _ h => h, fun _ h => h, fun _ h => h⟩
  have hg : ClientGuarantee i s (Api.countRead i id s) :=
    ⟨hgrows, fun j hj => ⟨rfl, Function.update_of_ne hj _ _, rfl, rfl, rfl, rfl,
      fun hidle => ⟨hidle, rfl, fun hd => hd⟩⟩⟩
  refine ⟨h.of_acting hg houtcome rfl rfl rfl rfl rfl rfl h.waiting h.flight (fun _ hd => hd) ?_
    ⟨?_, (h.turns i).sent, (h.turns i).earlier⟩, hg⟩
  · exact h.sent i
  · show Function.update s.gets i (s.gets i + 1) i ≤ 2
    rw [Function.update_self]
    omega

/-- The call is shown an etag. -/
theorem SaneClients.noteEtag (h : SaneClients lib secrets calls s) (etag : Option String)
    (houtcome : s.outcome i = none) :
    SaneClients lib secrets calls (noteEtag i etag s) ∧ ClientGuarantee i s (noteEtag i etag s) := by
  have hgrows : Grows s (Api.noteEtag i etag s) :=
    ⟨fun _ h => h, fun _ _ h => h, fun _ h => h, fun _ _ h => h, fun _ h => h, fun _ h => h⟩
  have hg : ClientGuarantee i s (Api.noteEtag i etag s) :=
    ⟨hgrows, fun j hj => ⟨rfl, rfl, rfl, rfl, Function.update_of_ne hj _ _, rfl,
      fun hidle => ⟨hidle, rfl, fun hd => hd⟩⟩⟩
  refine ⟨h.of_acting hg houtcome rfl rfl rfl rfl rfl rfl h.waiting h.flight (fun _ hd => hd)
    (fun d hd => ?_) ⟨(h.turns i).gets, (h.turns i).sent, (h.turns i).earlier⟩, hg⟩
  obtain ⟨hcall, hattempt, htarget, hshown⟩ := h.sent i d hd
  refine ⟨hcall, hattempt, htarget, hshown.imp_left fun hmem => ?_⟩
  show d.etag ∈ Function.update s.shown i (etag.toList ++ s.shown i) i
  rw [Function.update_self]
  exact List.mem_append_right _ hmem

/-- The call sends a DELETE with an etag that it may use. -/
theorem SaneClients.sendDelete {id etag : String} {answer posted : Option Value} {k : Nat}
    (h : SaneClients lib secrets calls s) (hengaged : Engaged (calls i) i answer posted id s)
    (hturned : Turned i (k + 1) k s) (hk : k ≤ 1) (hshown : Shown (calls i) i id etag s) :
    SaneClients lib secrets calls (sendDelete ⟨i, (s.sent i).length, id, etag⟩ s)
      ∧ ClientGuarantee i s (sendDelete ⟨i, (s.sent i).length, id, etag⟩ s) := by
  have hgrows : Grows s (Api.sendDelete ⟨i, (s.sent i).length, id, etag⟩ s) :=
    ⟨fun other ha => ha.imp_right fun ha => ⟨ha.1, List.mem_cons_of_mem _ ha.2⟩, fun _ _ h => h,
      fun _ h => List.mem_cons_of_mem _ h, fun _ _ h => h, fun _ h => h, fun _ h => h⟩
  have hg : ClientGuarantee i s (Api.sendDelete ⟨i, (s.sent i).length, id, etag⟩ s) :=
    ⟨hgrows, fun j hj => ⟨rfl, rfl, Function.update_of_ne hj _ _, rfl, rfl, rfl,
      fun hidle => ⟨hidle, rfl, fun hd => hd⟩⟩⟩
  have hself : (Api.sendDelete ⟨i, (s.sent i).length, id, etag⟩ s).sent i
      = ⟨i, (s.sent i).length, id, etag⟩ :: s.sent i := Function.update_self _ _ _
  have hmem : ∀ d ∈ s.sent i, d ∈ (Api.sendDelete ⟨i, (s.sent i).length, id, etag⟩ s).sent i :=
    fun d hd => hself ▸ List.mem_cons_of_mem _ hd
  -- the DELETEs of a call are numbered, so no earlier one is this one
  have hfresh : (⟨i, (s.sent i).length, id, etag⟩ : Delete) ∉ s.sent i := fun hd =>
    absurd (h.sent i _ hd).2.1 (Nat.lt_irrefl _)
  refine ⟨h.of_acting hg hengaged.outcome rfl rfl rfl rfl rfl rfl h.waiting
    (List.forall_mem_cons.mpr ⟨⟨?_, fun hd => ?_, fun hd => ?_⟩, fun d hd => ?_⟩) hmem ?_
    ⟨(h.turns i).gets, ?_, ?_⟩, hg⟩
  · exact hself ▸ List.mem_cons_self
  · exact hfresh (h.removed _ hd).1
  · exact hfresh (h.stale _ hd).1
  · obtain ⟨hsent, hremovals, hstale⟩ := h.flight d hd
    refine ⟨?_, hremovals, hstale⟩
    by_cases hi : d.call = i
    · rw [hi] at hsent ⊢
      exact hmem d hsent
    · exact (hg.others d.call hi).sent ▸ hsent
  · rw [hself]
    refine List.forall_mem_cons.mpr ⟨⟨rfl, Nat.lt_succ_self _, hengaged.target, hshown⟩, fun d hd => ?_⟩
    obtain ⟨hcall, hattempt, htarget, hd'⟩ := h.sent i d hd
    exact ⟨hcall, Nat.lt_succ_of_lt hattempt, htarget, hd'⟩
  · rw [hself, List.length_cons]
    exact Nat.succ_le_succ (hturned.sent.trans hk)
  · rw [hself]
    exact hturned.stale

/-! ## One attempt -/

theorem statusCode_of_headerValue {text : String} {err : ThalovantError}
    (h : headerValue text = .error err) : err.statusCode = none := by
  unfold headerValue at h
  split at h
  · cases h
  · cases h
    rfl

variable {c : Cause ClientRequest ClientResponse} {s₀ : ClientStore} {answer posted : Option Value}
  {id : String} {k : Nat}

/-- Where the etag is to delete with, the call has been shown it, and where there is no such client there
never will be. -/
def EtagRead (lib : ProvisionLibraries) (secrets : Nat → ClientSecrets) (calls : Nat → ClientCall)
    (i : Nat) (answer posted : Option Value) (id : String) (k : Nat) (result : Result String)
    (_ : Cause ClientRequest ClientResponse) (s₀ s : ClientStore) : Prop :=
  SaneClients lib secrets calls s ∧ ClientGuarantee i s₀ s ∧ Engaged (calls i) i answer posted id s
  ∧ Turned i (k + 1) k s ∧
  match result with
  | .ok etag => Shown (calls i) i id etag s
  | .error err => err.statusCode = some 404 → Absent id s

theorem runs_currentEtag {etag : Option String} (hs : SaneClients lib secrets calls s)
    (hg : ClientGuarantee i s₀ s) (hengaged : Engaged (calls i) i answer posted id s)
    (hturned : Turned i k k s) (hk : k ≤ 1)
    (hshown : ∀ given, etag = some given → Shown (calls i) i id given s) :
    (currentEtag i id etag).Runs ((clientsCooperation lib secrets calls).discipline i) (fun s => s)
      (EtagRead lib secrets calls i answer posted id k) c s₀ s := by
  cases etag with
  | some given =>
    exact ⟨hs, hg, hengaged, ⟨hturned.gets.trans (Nat.le_succ k), hturned.sent, hturned.stale⟩,
      hshown given rfl⟩
  | none =>
    obtain ⟨hread, hgread⟩ := hs.countRead id hengaged.outcome (hturned.gets.trans hk)
    have hengaged₁ : Engaged (calls i) i answer posted id (countRead i id s) :=
      hengaged.grows hgread.grows rfl rfl rfl
    have hturned₁ : Turned i (k + 1) k (countRead i id s) := by
      refine ⟨?_, hturned.sent, hturned.stale⟩
      show Function.update s.gets i (s.gets i + 1) i ≤ k + 1
      rw [Function.update_self]
      exact Nat.succ_le_succ hturned.gets
    have hnamed : id ∈ (countRead i id s).named := List.mem_cons_self
    refine runs_modify_bind.mpr (runs_ask_bind.mpr ⟨⟨hread, hg.trans hgread⟩, fun s₁ hs₁ hrely => ?_⟩)
    refine ⟨⟨hs₁, .refl i s₁⟩, fun reply henabled => ?_⟩
    cases reply with
    | error err =>
      refine ⟨hs₁, .refl i s₁, hengaged₁.rely hrely, hturned₁.rely hrely, fun h404 => ?_⟩
      have hnot : s₁.live id = false := by
        have henabled : clientsEnabled (.get id) (.error err) s₁ = true := henabled
        simpa [clientsEnabled, h404] using henabled
      exact absent_of_not_live hnot (hrely.grows.named id hnamed)
    | ok client =>
      have hengaged₂ := hengaged₁.rely hrely
      have hturned₂ := hturned₁.rely hrely
      obtain ⟨hnote, hgnote⟩ := hs₁.noteEtag (etagOf client) hengaged₂.outcome
      refine runs_modify_bind.mpr ⟨hnote, hgnote, hengaged₂.grows hgnote.grows rfl rfl rfl,
        ⟨hturned₂.gets, hturned₂.sent, hturned₂.stale⟩, ?_⟩
      cases hetag : etagOf client with
      | none => exact nofun
      | some etag =>
        refine .inl ?_
        show etag ∈ Function.update s₁.shown i ((some etag).toList ++ s₁.shown i) i
        rw [Function.update_self]
        exact List.mem_append_left _ List.mem_cons_self

/-- What an attempt comes to. -/
def Attempted (lib : ProvisionLibraries) (secrets : Nat → ClientSecrets) (calls : Nat → ClientCall)
    (i : Nat) (answer posted : Option Value) (id : String) (k : Nat) (result : Result Unit)
    (_ : Cause ClientRequest ClientResponse) (s₀ s : ClientStore) : Prop :=
  SaneClients lib secrets calls s ∧ ClientGuarantee i s₀ s ∧ Engaged (calls i) i answer posted id s
  ∧ (result = .ok () → Absent id s) ∧ (hasStatus 404 result = true → Absent id s)
  ∧ (hasStatus 412 result = true → Turned i (k + 1) (k + 1) s)

theorem runs_deleteAttempt {etag : Option String} (hs : SaneClients lib secrets calls s)
    (hg : ClientGuarantee i s₀ s) (hengaged : Engaged (calls i) i answer posted id s)
    (hturned : Turned i k k s) (hk : k ≤ 1)
    (hshown : ∀ given, etag = some given → Shown (calls i) i id given s) :
    (deleteAttempt i id etag).Runs ((clientsCooperation lib secrets calls).discipline i) (fun s => s)
      (Attempted lib secrets calls i answer posted id k) c s₀ s := by
  unfold deleteAttempt
  refine runs_bind.mpr (Runs.mono (fun result c s₀ s h => ?_)
    (runs_currentEtag hs hg hengaged hturned hk hshown))
  obtain ⟨hs, hg, hengaged, hturned, hresult⟩ := h
  cases result with
  | error err =>
    refine ⟨hs, hg, hengaged, nofun, fun h404 => hresult (of_decide_eq_true h404), fun _ => ?_⟩
    exact ⟨hturned.gets, hturned.sent.trans (Nat.le_succ k), hturned.stale⟩
  | ok etag =>
    dsimp only
    cases hheader : headerValue etag with
    | error err =>
      have hapi := statusCode_of_headerValue hheader
      refine ⟨hs, hg, hengaged, nofun, fun h404 => ?_, fun h412 => ?_⟩
      · simp [hasStatus, hapi] at h404
      · simp [hasStatus, hapi] at h412
    | ok _ =>
      refine runs_get_bind.mpr (runs_modify_bind.mpr (runs_ask_bind.mpr ?_))
      obtain ⟨hsend, hgsend⟩ := hs.sendDelete hengaged hturned hk hresult
      have hengaged₁ : Engaged (calls i) i answer posted id
          (sendDelete ⟨i, (s.sent i).length, id, etag⟩ s) := hengaged.grows hgsend.grows rfl rfl rfl
      refine ⟨⟨hsend, hg.trans hgsend⟩, fun s₁ hs₁ hrely => ⟨⟨hs₁, .refl i s₁⟩, fun reply henabled => ?_⟩⟩
      have hsent : s₁.sent i = ⟨i, (s.sent i).length, id, etag⟩ :: s.sent i :=
        hrely.same.sent.trans (Function.update_self _ _ _)
      have hnamed : id ∈ s₁.named := hrely.grows.named id List.mem_cons_self
      refine ⟨hs₁, .refl i s₁, hengaged₁.rely hrely, fun hok => ?_, fun h404 => ?_, fun h412 => ?_⟩
      · cases reply with
        | error err => cases hok
        | ok value =>
          have hremoved : (⟨i, (s.sent i).length, id, etag⟩ : Delete) ∈ s₁.removals := by
            have henabled : clientsEnabled (.delete _) (.ok value) s₁ = true := henabled
            simpa [clientsEnabled] using henabled
          exact .inl (hs₁.removed _ hremoved).2.1
      · cases reply with
        | ok value => cases h404
        | error err =>
          have h404 : err.statusCode = some 404 := of_decide_eq_true h404
          have henabled : clientsEnabled (.delete _) (.error err) s₁ = true := henabled
          simp [clientsEnabled, h404] at henabled
          exact absent_of_not_live henabled hnamed
      · cases reply with
        | ok value => cases h412
        | error err =>
          have h412 : err.statusCode = some 412 := of_decide_eq_true h412
          have henabled : clientsEnabled (.delete _) (.error err) s₁ = true := henabled
          simp [clientsEnabled, h412] at henabled
          refine ⟨hrely.same.gets ▸ hturned.gets, ?_, ?_⟩
          · rw [hsent, List.length_cons]
            exact Nat.succ_le_succ hturned.sent
          · rw [hsent]
            exact List.forall_mem_cons.mpr ⟨henabled, fun d hd => hrely.grows.stale d
              (hturned.stale d hd)⟩

/-- What deleting a client comes to. -/
def Deleted (lib : ProvisionLibraries) (secrets : Nat → ClientSecrets) (calls : Nat → ClientCall)
    (i : Nat) (answer posted : Option Value) (id : String) (result : Result Unit)
    (_ : Cause ClientRequest ClientResponse) (s₀ s : ClientStore) : Prop :=
  SaneClients lib secrets calls s ∧ ClientGuarantee i s₀ s ∧ Engaged (calls i) i answer posted id s
  ∧ (result = .ok () → Absent id s)

theorem runs_deleteClient {etag : Option String} (hs : SaneClients lib secrets calls s)
    (hg : ClientGuarantee i s₀ s) (hengaged : Engaged (calls i) i answer posted id s)
    (hturned : Turned i 0 0 s) (hshown : ∀ given, etag = some given → Shown (calls i) i id given s) :
    (deleteClient i id etag).Runs ((clientsCooperation lib secrets calls).discipline i) (fun s => s)
      (Deleted lib secrets calls i answer posted id) c s₀ s := by
  unfold deleteClient
  refine runs_bind.mpr (Runs.mono (fun first c s₀ s h => ?_)
    (runs_deleteAttempt hs hg hengaged hturned (Nat.zero_le 1) fun given hgiven =>
      hshown given (Option.filter_eq_some_iff.mp hgiven).1))
  obtain ⟨hs, hg, hengaged, hok, h404, h412⟩ := h
  split
  · next h => exact ⟨hs, hg, hengaged, fun _ => h404 h⟩
  · split
    · next h =>
      -- the second attempt reads the etag, and there is no third
      refine runs_bind.mpr (Runs.mono (fun second c s₀ s h => ?_)
        (runs_deleteAttempt hs hg hengaged (h412 h) (Nat.le_refl 1) nofun))
      obtain ⟨hs, hg, hengaged, hok, h404, -⟩ := h
      refine ⟨hs, hg, hengaged, ?_⟩
      split
      · next h => exact fun _ => h404 h
      · exact hok
    · exact ⟨hs, hg, hengaged, hok⟩

/-! ## Making a client -/

/-- The call POSTs. -/
theorem SaneClients.sendCreate (h : SaneClients lib secrets calls s) (payload : Value)
    (hfresh : Fresh i s) :
    SaneClients lib secrets calls (sendCreate i payload s)
      ∧ ClientGuarantee i s (sendCreate i payload s) := by
  have hgrows : Grows s (Api.sendCreate i payload s) :=
    ⟨fun _ h => h, fun _ _ h => h, fun _ h => h, fun _ _ h => h, fun _ h => h, fun _ h => h⟩
  have hg : ClientGuarantee i s (Api.sendCreate i payload s) :=
    ⟨hgrows, fun j hj => ⟨Function.update_of_ne hj _ _, rfl, rfl, rfl, rfl, rfl,
      fun hidle => ⟨fun hmem => (List.mem_cons.mp hmem).elim hj hidle, rfl, fun hd => hd⟩⟩⟩
  refine ⟨h.of_acting hg hfresh.outcome rfl rfl rfl rfl rfl rfl
    (List.forall_mem_cons.mpr ⟨⟨hfresh.made, hfresh.declined⟩, h.waiting⟩) h.flight (fun _ hd => hd)
    (fun d hd => h.sent i d hd) ⟨(h.turns i).gets, (h.turns i).sent, (h.turns i).earlier⟩, hg⟩

/-- The call has been answered with the client that its POST made. -/
theorem SaneClients.noteAnswer (h : SaneClients lib secrets calls s) (client : Value)
    (houtcome : s.outcome i = none) :
    SaneClients lib secrets calls (noteAnswer i client s)
      ∧ ClientGuarantee i s (noteAnswer i client s) := by
  obtain ⟨hnote, hgnote⟩ := h.noteEtag (etagOf client) houtcome
  have hgrows : Grows (Api.noteEtag i (etagOf client) s) (Api.noteAnswer i client s) :=
    ⟨fun _ h => h, fun _ _ h => h, fun _ h => h, fun _ _ h => h, fun _ h => h, fun _ h => h⟩
  have hg : ClientGuarantee i (Api.noteEtag i (etagOf client) s) (Api.noteAnswer i client s) :=
    ⟨hgrows, fun j hj => ⟨rfl, rfl, rfl, Function.update_of_ne hj _ _, rfl, rfl,
      fun hidle => ⟨hidle, rfl, fun hd => hd⟩⟩⟩
  refine ⟨hnote.of_acting hg houtcome rfl rfl rfl rfl rfl rfl hnote.waiting hnote.flight
    (fun _ hd => hd) (fun d hd => hnote.sent i d hd)
    ⟨(hnote.turns i).gets, (hnote.turns i).sent, (hnote.turns i).earlier⟩, hgnote.trans hg⟩

/-- What the call returns is to be right. -/
def Finishes (lib : ProvisionLibraries) (secrets : Nat → ClientSecrets) (calls : Nat → ClientCall)
    (i : Nat) {α : Type} (outcome : α → Outcome) (result : α)
    (_ : Cause ClientRequest ClientResponse) (s₀ s : ClientStore) : Prop :=
  SaneClients lib secrets calls s ∧ ClientGuarantee i s₀ s
  ∧ Right lib (secrets i) i s (calls i) (outcome result)

/-- What comes of a client that the API says it made. -/
def Required (lib : ProvisionLibraries) (secrets : Nat → ClientSecrets) (calls : Nat → ClientCall)
    (i : Nat) (posted : Option Value) (client : Value) (kind : String)
    (result : Except ProvisionError Unit) (_ : Cause ClientRequest ClientResponse)
    (s₀ s : ClientStore) : Prop :=
  SaneClients lib secrets calls s ∧ ClientGuarantee i s₀ s ∧ s.answers i = some client
  ∧ s.posted i = posted ∧
  match result with
  | .ok () => connectionType client = some kind
  | .error err => connectionType client ≠ some kind ∧
    match clientId client with
    | none => err = .unsupportedConnectionType kind (wrongKind client) none none
    | some id => s.made i = some id ∧
        (err = .unsupportedConnectionType kind (deletedReason client) none none ∧ Absent id s
          ∨ err = .unsupportedConnectionType kind (keptReason client id) none none)

theorem runs_requireConnectionType {client : Value} (kind : String) {hub : Value} {asked : Option String}
    {options : BootstrapIdentityOptions} (hcall : calls i = .create hub asked options)
    (hs : SaneClients lib secrets calls s) (hg : ClientGuarantee i s₀ s) (houtcome : s.outcome i = none)
    (hanswer : s.answers i = some client) (hposted : s.posted i = posted)
    (hturned : Turned i 0 0 s) (hmade : ∀ id, clientId client = some id → s.made i = some id)
    (hshown : ∀ etag, etagOf client = some etag → etag ∈ s.shown i) :
    (requireConnectionType i client kind).Runs ((clientsCooperation lib secrets calls).discipline i)
      (fun s => s) (Required lib secrets calls i posted client kind) c s₀ s := by
  unfold requireConnectionType
  split
  · next hkind => exact ⟨hs, hg, hanswer, hposted, hkind⟩
  · next hkind =>
    split
    · next hid =>
      refine ⟨hs, hg, hanswer, hposted, hkind, ?_⟩
      rw [hid]
    · next id hid =>
      have htarget : Target (calls i) i id s := by
        rw [hcall]
        exact hmade id hid
      refine runs_bind.mpr (Runs.mono (fun result c s₀ s h => ?_)
        (runs_deleteClient hs hg ⟨houtcome, hanswer, hposted, htarget⟩ hturned
          fun etag hetag => .inl (hshown etag hetag)))
      obtain ⟨hs, hg, hengaged, hok⟩ := h
      have hmade : s.made i = some id := by
        have htarget := hengaged.target
        rwa [hcall] at htarget
      cases result with
      | ok value =>
        refine ⟨hs, hg, hengaged.answers, hengaged.posted, hkind, ?_⟩
        rw [hid]
        exact ⟨hmade, .inl ⟨rfl, hok rfl⟩⟩
      | error err =>
        refine ⟨hs, hg, hengaged.answers, hengaged.posted, hkind, ?_⟩
        rw [hid]
        exact ⟨hmade, .inr rfl⟩

theorem right_of_no_answer {hub : Value} {kind : Option String} {options : BootstrapIdentityOptions}
    {err : ProvisionError} (hanswer : s.answers i = none)
    (herr : ∀ asked reason status problem,
      err = .unsupportedConnectionType asked reason status problem → i ∈ s.declined) :
    Right lib (secrets i) i s (.create hub kind options) (.created (.error err)) := by
  unfold Right
  rw [hanswer]
  exact ⟨err, rfl, herr⟩

theorem right_of_answer {hub client : Value} {kind : Option String} {options : BootstrapIdentityOptions}
    {result : Except ProvisionError BootstrapIdentityResult} {hubId : String}
    (hanswer : s.answers i = some client)
    (hposted : s.posted i = some (clientPayload hubId options
      (clientSpec options (kind.map trim) (siteIdOf options) (secrets i))))
    (hmade : MadeRight lib (secrets i) hub (kind.map trim) options client i s result) :
    Right lib (secrets i) i s (.create hub kind options) (.created result) := by
  unfold Right
  rw [hanswer]
  exact ⟨⟨hubId, hposted⟩, hmade⟩

/-- What the POST of a call comes to. -/
def Posted (lib : ProvisionLibraries) (secrets : Nat → ClientSecrets) (calls : Nat → ClientCall)
    (i : Nat) (payload : Value) (result : Result Value) (_ : Cause ClientRequest ClientResponse)
    (s₀ s : ClientStore) : Prop :=
  SaneClients lib secrets calls s ∧ ClientGuarantee i s₀ s ∧ s.outcome i = none ∧ s.answers i = none ∧
  match result with
  | .error err => err.statusCode = some 422 → i ∈ s.declined
  | .ok client => s.posted i = some payload ∧ Turned i 0 0 s
      ∧ ∀ id, clientId client = some id → s.made i = some id

theorem runs_createClient {payload : Value} {key : Option String} (hs : SaneClients lib secrets calls s)
    (hg : ClientGuarantee i s₀ s) (hfresh : Fresh i s) :
    (createClient i payload key).Runs ((clientsCooperation lib secrets calls).discipline i)
      (fun s => s) (Posted lib secrets calls i payload) c s₀ s := by
  unfold createClient
  split
  · next err hheader =>
    refine ⟨hs, hg, hfresh.outcome, hfresh.answers, fun h422 => ?_⟩
    have hnone : err.statusCode = none := by
      cases key with
      | none => cases hheader
      | some key => exact statusCode_of_headerValue hheader
    rw [hnone] at h422
    cases h422
  · obtain ⟨hsend, hgsend⟩ := hs.sendCreate payload hfresh
    refine runs_modify_bind.mpr (runs_ask_bind.mpr ?_)
    refine ⟨⟨hsend, hg.trans hgsend⟩, fun s₁ hs₁ hrely => ⟨⟨hs₁, .refl i s₁⟩, fun reply henabled => ?_⟩⟩
    have houtcome : s₁.outcome i = none := hrely.same.outcome.trans hfresh.outcome
    have hanswers : s₁.answers i = none := hrely.same.answers.trans hfresh.answers
    cases reply with
    | error err =>
      refine ⟨hs₁, .refl i s₁, houtcome, hanswers, fun h422 => ?_⟩
      have henabled : clientsEnabled (.create i) (.error err) s₁ = true := henabled
      simpa [clientsEnabled, h422] using henabled
    | ok client =>
      have hposted : s₁.posted i = some payload := by
        rw [hrely.same.posted]
        exact Function.update_self i (some payload) s.posted
      have hgets : s₁.gets i = 0 := hrely.same.gets.trans hfresh.gets
      have hsent : s₁.sent i = [] := hrely.same.sent.trans hfresh.sent
      refine ⟨hs₁, .refl i s₁, houtcome, hanswers, hposted, ⟨hgets.le, ?_, ?_⟩, fun id hid => ?_⟩
      · rw [hsent]
        exact Nat.le_refl 0
      · rw [hsent]
        exact nofun
      · have henabled : clientsEnabled (.create i) (.ok client) s₁ = true := henabled
        unfold clientsEnabled at henabled
        cases hmade : s₁.made i with
        | none => simp [hmade] at henabled
        | some found =>
          simp [hmade, hid] at henabled
          rw [henabled.1]

theorem statusCode_of_refuses {err : ThalovantError} (h : refusesConnectionType lib err = true) :
    err.statusCode = some 422 := by
  unfold refusesConnectionType at h
  exact of_decide_eq_true (Bool.and_eq_true_iff.mp h).1

/-- A client of the kind that was asked for is made an identity of. -/
theorem madeRight_of_kind {secrets : ClientSecrets} {hub client : Value} {kind : Option String}
    {options : BootstrapIdentityOptions} (h : ∀ asked, kind = some asked → connectionType client = some asked) :
    MadeRight lib secrets hub kind options client i s
      ((bootstrapIdentity lib hub client options (siteIdOf options) secrets).mapError .sdk) := by
  rw [MadeRight, if_pos h]

/-- One of another kind is refused, with what became of it. -/
theorem madeRight_of_refused {secrets : ClientSecrets} {hub client : Value} {kind : String}
    {options : BootstrapIdentityOptions} {err : ProvisionError} (h : connectionType client ≠ some kind)
    (herr : match clientId client with
      | none => err = .unsupportedConnectionType kind (wrongKind client) none none
      | some id => s.made i = some id ∧
          (err = .unsupportedConnectionType kind (deletedReason client) none none ∧ Absent id s
            ∨ err = .unsupportedConnectionType kind (keptReason client id) none none)) :
    MadeRight lib secrets hub (some kind) options client i s (.error err) := by
  rw [MadeRight, if_neg fun hall => h (hall kind rfl)]
  refine ⟨kind, rfl, ?_⟩
  cases hid : clientId client with
  | none =>
    rw [hid] at herr
    exact congrArg Except.error herr
  | some id =>
    rw [hid] at herr
    exact ⟨herr.1, herr.2.imp (fun h => ⟨congrArg Except.error h.1, h.2⟩) (congrArg Except.error)⟩

theorem runs_provisionClientIdentity {hub : Value} {asked : Option String}
    {options : BootstrapIdentityOptions} (hcall : calls i = .create hub asked options)
    (hs : SaneClients lib secrets calls s) (hg : ClientGuarantee i s₀ s) (hfresh : Fresh i s) :
    (provisionClientIdentity lib secrets i hub (asked.map trim) options).Runs
      ((clientsCooperation lib secrets calls).discipline i) (fun s => s)
      (Finishes lib secrets calls i .created) c s₀ s := by
  have hbefore : ∀ (err : ThalovantError) (s : ClientStore), s.answers i = none →
      Right lib (secrets i) i s (calls i) (.created (.error (.sdk err))) := fun err s hanswer =>
    hcall ▸ right_of_no_answer hanswer nofun
  unfold provisionClientIdentity
  split
  · exact ⟨hs, hg, hbefore _ s hfresh.answers⟩
  · split
    · exact ⟨hs, hg, hbefore _ s hfresh.answers⟩
    · next hubId hhub =>
      refine runs_bind.mpr (Runs.mono (fun result c s₀ s h => ?_) (runs_createClient hs hg hfresh))
      obtain ⟨hs, hg, houtcome, hanswer, hresult⟩ := h
      cases result with
      | error err =>
        cases hkind : asked.map trim with
        | none => exact ⟨hs, hg, hbefore err s hanswer⟩
        | some kind =>
          dsimp only
          split
          · next hrefuses =>
            have hdeclined := hresult (statusCode_of_refuses hrefuses)
            exact ⟨hs, hg, hcall ▸ right_of_no_answer hanswer fun _ _ _ _ _ => hdeclined⟩
          · exact ⟨hs, hg, hbefore err s hanswer⟩
      | ok client =>
        obtain ⟨hposted, hturned, hmade⟩ := hresult
        obtain ⟨hnote, hgnote⟩ := hs.noteAnswer client houtcome
        have hanswer : (noteAnswer i client s).answers i = some client := Function.update_self _ _ _
        refine runs_modify_bind.mpr ?_
        cases hkind : asked.map trim with
        | none =>
          rw [hkind] at hposted
          refine ⟨hnote, hg.trans hgnote, hcall ▸ right_of_answer hanswer (hkind ▸ hposted) ?_⟩
          exact hkind ▸ madeRight_of_kind nofun
        | some kind =>
          rw [hkind] at hposted
          refine runs_bind.mpr (Runs.mono (fun result c s₀ s h => ?_)
            (runs_requireConnectionType kind hcall hnote (hg.trans hgnote) houtcome hanswer
              hposted ⟨hturned.gets, hturned.sent, hturned.stale⟩ hmade fun etag hetag => ?_))
          · obtain ⟨hs, hg, hanswer, hposted, hresult⟩ := h
            cases result with
            | ok _ =>
              refine ⟨hs, hg, hcall ▸ right_of_answer hanswer (hkind ▸ hposted) ?_⟩
              exact hkind ▸ madeRight_of_kind fun other hother => Option.some.inj hother ▸ hresult
            | error err =>
              refine ⟨hs, hg, hcall ▸ right_of_answer hanswer (hkind ▸ hposted) ?_⟩
              exact hkind ▸ madeRight_of_refused hresult.1 hresult.2
          · show etag ∈ Function.update s.shown i ((etagOf client).toList ++ s.shown i) i
            rw [Function.update_self, hetag]
            exact List.mem_append_left _ List.mem_cons_self

theorem runs_createClientIdentity {hub : Value} {asked : Option String}
    {options : BootstrapIdentityOptions} (hcall : calls i = .create hub asked options)
    (hs : SaneClients lib secrets calls s) (hg : ClientGuarantee i s₀ s) (hfresh : Fresh i s) :
    (createClientIdentity lib secrets i hub asked options).Runs
      ((clientsCooperation lib secrets calls).discipline i) (fun s => s)
      (Finishes lib secrets calls i .created) c s₀ s := by
  unfold createClientIdentity
  split
  · exact ⟨hs, hg, hcall ▸ right_of_no_answer hfresh.answers nofun⟩
  · exact runs_provisionClientIdentity hcall hs hg hfresh

/-- The call returns. -/
theorem SaneClients.settle {outcome : Outcome} (h : SaneClients lib secrets calls s)
    (hright : Right lib (secrets i) i s (calls i) outcome) :
    SaneClients lib secrets calls (settle i outcome s) ∧ ClientGuarantee i s (settle i outcome s) := by
  have hgrows : Grows s (Api.settle i outcome s) :=
    ⟨fun _ h => h, fun _ _ h => h, fun _ h => h, fun _ _ h => h, fun _ h => h, fun _ h => h⟩
  refine ⟨⟨h.known, h.waiting, h.declined, h.made, h.flight, h.stale, h.removed, h.sent,
    fun j => ⟨(h.turns j).gets, (h.turns j).sent, (h.turns j).earlier⟩, fun j other ho => ?_⟩,
    hgrows, fun j hj => ⟨rfl, rfl, rfl, rfl, rfl, Function.update_of_ne hj _ _,
      fun hidle => ⟨hidle, rfl, fun hd => hd⟩⟩⟩
  by_cases hj : j = i
  · subst hj
    have hself : (Api.settle j outcome s).outcome j = some outcome := Function.update_self _ _ _
    rw [hself, Option.some.injEq] at ho
    exact ho ▸ hright
  · exact h.outcome j other ((Function.update_of_ne hj _ s.outcome).symm.trans ho)

variable (lib secrets calls) in
/-- **The calls work together.** -/
theorem clientsCooperation_holds : (clientsCooperation lib secrets calls).Holds := by
  intro i _ s s' hs hfresh hstart
  cases hstart
  have hfinish : ∀ outcome c s₀ s, SaneClients lib secrets calls s → ClientGuarantee i s₀ s →
      Right lib (secrets i) i s (calls i) outcome →
      (Async.modify (settle i outcome)).Runs ((clientsCooperation lib secrets calls).discipline i) id
        ((clientsCooperation lib secrets calls).Ends i) c s₀ s := by
    intro outcome c s₀ s hs hg hright
    obtain ⟨hsettle, hgsettle⟩ := hs.settle hright
    exact ⟨hsettle, hg.trans hgsettle⟩
  refine runs_bind.mpr ?_
  cases hcall : calls i with
  | create hub asked options =>
    refine runs_bind.mpr (Runs.mono (fun result c s₀ s h => ?_)
      (runs_createClientIdentity hcall hs (.refl i s) hfresh))
    exact hfinish _ _ _ _ h.1 h.2.1 h.2.2
  | delete id etag =>
    have htarget : Target (calls i) i id s := by
      rw [hcall]
      rfl
    refine runs_bind.mpr (Runs.mono (fun result c s₀ s h => ?_)
      (runs_deleteClient hs (.refl i s) ⟨hfresh.outcome, hfresh.answers, rfl, htarget⟩
        ⟨hfresh.gets.le, ?_, ?_⟩ fun given hgiven => .inr (hgiven ▸ hcall)))
    · refine hfinish _ _ _ _ h.1 h.2.1 ?_
      rw [hcall]
      exact h.2.2.2
    · rw [hfresh.sent]
      exact Nat.le_refl 0
    · rw [hfresh.sent]
      exact nofun

end Thalovant.Api
