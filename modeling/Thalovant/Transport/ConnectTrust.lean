import Mathlib.Data.List.Induction
import Thalovant.Transport.ConnectSteps

/-!
# Trust on first use is never downgraded

Clients connect over one store, in any interleaving of their steps and whatever the hubs send. A
session comes only with a pin check, no pin is changed or removed, and the second attempt of a connect
comes after a KK handshake that failed and is XX.

`Client.Sound` is the invariant of a client; `clientStep_sound` keeps it, one case for each step.
-/

namespace Thalovant.Transport

open Thalovant.Noise Thalovant.Noise.Store

variable {S : Surroundings}

/-! ## The pins -/

/-- A pin that is held is held after a step. -/
theorem clientStep_pinOf {client : Client S.snow} {d : Disk} {step : LinkStep} {folder n key : String}
    (h : d.pinOf folder n = some key) : (clientStep S (client, d) step).2.2.pinOf folder n = some key := by
  rcases clientStep_pins client d step with ⟨c, data, binary, -, hstep⟩ | ⟨-, hstep⟩ <;>
    rw [Disk.pinOf, hstep]
  · rcases receive_pins data binary (c, d) with ⟨-, hpins | ⟨target, source, -, -, -, -, hempty, hpins⟩⟩ |
      ⟨-, remote, -, -, dir, -, ⟨hpin, hpins⟩ | ⟨pinned, -, -, hpins⟩⟩ <;> rw [hpins]
    · exact h
    · by_cases hfolder : folder = target
      · rw [Disk.pinOf, hfolder, hempty] at h
        cases h
      · rw [pinsWith, if_neg hfolder]
        exact h
    · by_cases hfolder : folder = dir
      · subst hfolder
        rw [pinsWith, if_pos rfl]
        show SortedMap.get n (SortedMap.insert c.nodeId remote (d.pins folder).entries) = some key
        have hne : n ≠ c.nodeId := by
          rintro rfl
          rw [hpin] at h
          cases h
        rw [SortedMap.get_insert_of_ne hne]
        exact h
      · rw [pinsWith, if_neg hfolder]
        exact h
    · exact h
  · exact h

/-- A session that a client has is the one it had, or a frame has installed it. -/
theorem clientStep_session {client : Client S.snow} {d : Disk} {step : LinkStep}
    {c' : NoiseChannel S.snow} (hc' : (clientStep S (client, d) step).2.1.channel = some c')
    (h : c'.session.isSome = true) :
    (∃ c, client.channel = some c ∧ c.session.isSome = true)
    ∨ ∃ c data binary, frameOf client step = some (c, data, binary) ∧ c.session = none
      ∧ (receive S.env data binary (c, d)).2.1.session = c'.session := by
  -- what a frame leaves
  have hframe : ∀ {data binary written c c₁ failed}, step = .frame data binary written →
      client.channel = some c → (receive S.env data binary (c, d)).2.1 = c₁ →
      some ({ c₁ with failed := failed } : NoiseChannel S.snow) = some c' →
      (∃ c, client.channel = some c ∧ c.session.isSome = true)
      ∨ ∃ c data binary, frameOf client step = some (c, data, binary) ∧ c.session = none
        ∧ (receive S.env data binary (c, d)).2.1.session = c'.session := by
    rintro data binary written c c₁ failed rfl hchannel rfl hsome
    cases hsome
    rcases hsession : c.session with _ | session
    · exact .inr ⟨c, data, binary, by rw [frameOf, hchannel]; rfl, hsession, rfl⟩
    · exact .inl ⟨c, hchannel, by rw [hsession]; rfl⟩
  have hstep := clientStep_cases client d step
  generalize (clientStep S (client, d) step).2 = out at hstep hc'
  cases hstep with
  | unread data binary written c c₁ err d' hchannel hr =>
    exact hframe rfl hchannel (by rw [hr]) hc'
  | read data binary written c c₁ r d' hchannel hr =>
    exact hframe rfl hchannel (by rw [hr]) hc'
  | unsent message written c c₁ err hchannel hr =>
    have hsession := @encode_session _ S.env message (c, d)
    rw [hr] at hsession
    cases hc'
    exact .inl ⟨c, hchannel, hsession.symm.trans h⟩
  | sent message written c c₁ writes hchannel hr =>
    have hsession := @encode_session _ S.env message (c, d)
    rw [hr] at hsession
    cases hc'
    exact .inl ⟨c, hchannel, hsession.symm.trans h⟩
  | opened => cases hc'; cases h
  | abandoned => cases hc'
  | dropped => cases hc'
  | worked n c data binary hn => exact .inl ⟨c', hc', h⟩
  | _ => exact .inl ⟨c', hc', h⟩

/-! ## The client -/

/-- How many attempts a connect may have made. -/
def Client.attempts {snow : Snow} (client : Client snow) : Nat :=
  match client.phase, client.opened with
  | .idle, _ => 2
  | .first, false => 0
  | .first, true => 1
  | .second, false => 1
  | .second, true => 2

theorem Client.attempts_le {snow : Snow} (client : Client snow) : client.attempts ≤ 2 := by
  unfold attempts
  split <;> decide

/-- What every client keeps. -/
structure Client.Sound {snow : Snow} (client : Client snow) : Prop where
  channel : ∀ c, client.channel = some c → c.Sound
  forced : client.phase = .second → client.forceXx = true
  second : client.phase = .second → client.opened = true → ∀ c, client.channel = some c →
    c.forceXx = true
  links : client.links ≤ client.attempts

theorem soundChannel_new (snow : Snow) (identity : Identity) (stateDir : Option String)
    (forceXx : Bool) (adoptFrom : Option String) :
    (NoiseChannel.new snow identity stateDir forceXx adoptFrom).Sound :=
  ⟨(fun h => nomatch h), (fun _ h => nomatch h), fun _ _ h => nomatch h⟩

theorem Client.sound_new (snow : Snow) (identity : Identity) (stateDir adoptFrom : Option String) :
    (Client.new snow identity stateDir adoptFrom).Sound :=
  ⟨(fun _ h => nomatch h), (fun h => nomatch h), (fun h => nomatch h), Nat.zero_le _⟩

/-- The client with another channel, of the same kind of attempt. -/
theorem Client.Sound.setChannel {snow : Snow} {client : Client snow} (h : client.Sound)
    {c c' : NoiseChannel snow} (hchannel : client.channel = some c) (hs : c'.Sound)
    (hforce : c'.forceXx = c.forceXx) (kkFailed : Bool) :
    ({ client with channel := some c', kkFailed := kkFailed } : Client snow).Sound := by
  refine ⟨?_, h.forced, ?_, h.links⟩
  · rintro _ ⟨⟩
    exact hs
  · rintro hphase hopened _ ⟨⟩
    rw [hforce]
    exact h.second hphase hopened c hchannel

theorem clientStep_sound {client : Client S.snow} (h : client.Sound) (d : Disk) (step : LinkStep) :
    (clientStep S (client, d) step).2.1.Sound := by
  have hstep := clientStep_cases client d step
  generalize (clientStep S (client, d) step).2 = out at hstep ⊢
  cases hstep with
  | still => exact h
  | connected hphase =>
    exact ⟨h.channel, (fun h => nomatch h), (fun h => nomatch h), Nat.le_refl _⟩
  | opened hphase hopened =>
    refine ⟨?_, h.forced, ?_, ?_⟩
    · rintro _ ⟨⟩
      exact soundChannel_new _ _ _ _ _
    · rintro hphase' - _ ⟨⟩
      exact h.forced hphase'
    · -- an attempt that is under way opens one link
      have hlinks := h.links
      show client.links + 1 ≤ Client.attempts { client with opened := true }
      unfold Client.attempts at hlinks ⊢
      rw [hopened] at hlinks
      rcases hp : client.phase with _ | _ | _ <;> rw [hp] at hlinks
      · exact absurd hp hphase
      · exact Nat.succ_le_succ hlinks
      · exact Nat.succ_le_succ hlinks
  | unread data binary written c c' err d' hchannel hr =>
    have hs := @receive_sound _ S.env data binary (c, d) (h.channel c hchannel)
    rw [hr] at hs
    exact h.setChannel hchannel hs.1 hs.2 _
  | read data binary written c c' r d' hchannel hr =>
    have hs := @receive_sound _ S.env data binary (c, d) (h.channel c hchannel)
    rw [hr] at hs
    exact h.setChannel hchannel (hs.1.written (failed_of_received hr) written) hs.2 _
  | abandoned => exact ⟨(fun _ h => nomatch h), h.forced, (fun _ _ _ h => nomatch h), h.links⟩
  | worked => exact ⟨h.channel, h.forced, h.second, h.links⟩
  | unsent message written c c' err hchannel hr =>
    have hs := @encode_sound _ S.env message (c, d) (h.channel c hchannel)
    rw [hr] at hs
    exact h.setChannel hchannel hs.1 hs.2 _
  | sent message written c c' writes hchannel hr =>
    have hs := @encode_sound _ S.env message (c, d) (h.channel c hchannel)
    rw [hr] at hs
    exact h.setChannel hchannel (hs.1.written (session_of_encoded hr).2.2.1 written) hs.2 _
  | refused => exact ⟨h.channel, h.forced, h.second, h.links⟩
  | dropped => exact ⟨(fun _ h => nomatch h), h.forced, (fun _ _ _ h => nomatch h), h.links⟩
  -- the second attempt is by XX, and may open one link more
  | retried err hphase hkk =>
    refine ⟨h.channel, fun _ => rfl, (fun _ h => nomatch h), ?_⟩
    have hlinks := h.links
    unfold Client.attempts at hlinks
    rw [hphase] at hlinks
    rcases hopened : client.opened with _ | _ <;> rw [hopened] at hlinks
    · exact Nat.le_trans hlinks (Nat.zero_le _)
    · exact hlinks
  | finished =>
    exact ⟨h.channel, (fun h => nomatch h), (fun h => nomatch h), h.links.trans client.attempts_le⟩
  | cancelled =>
    exact ⟨h.channel, (fun h => nomatch h), (fun h => nomatch h), h.links.trans client.attempts_le⟩

/-! ## The second attempt -/

/-- A KK handshake has failed in the connect under way, or its second attempt has begun. -/
def Client.Spent {snow : Snow} (client : Client snow) : Prop :=
  client.kkFailed = true ∨ client.phase = .second

theorem failsKk_of_noteFailure {client : Client S.snow} {c c' : NoiseChannel S.snow} {d d' : Disk}
    {data : Bytes} {binary written : Bool} {err : ThalovantError} (h : client.Sound)
    (hchannel : client.channel = some c)
    (hr : receive S.env data binary (c, d) = (.error err, (c', d')))
    (hnote : noteFailure S err c' client.kkFailed = true) :
    client.Spent ∨ FailsKk S client (.frame data binary written) := by
  unfold noteFailure at hnote
  rcases hkk : client.kkFailed with _ | _
  · rw [hkk, Bool.false_or, Bool.and_eq_true] at hnote
    rcases hfailed : c.failed with _ | _
    · have hkk' : (receive S.env data binary (c, d)).2.1.kkFailed = true := by rw [hr]; exact hnote.2
      exact .inr (failsKk_of_kkFailed (s := (c, d)) hchannel (h.channel c hchannel) hfailed hkk')
    · -- the channel had failed before: its error is not a verdict
      have hr' := @receive_of_failed Disk S.env data binary (c, d) hfailed
      rw [hr] at hr'
      cases hr'
      exact absurd hnote.1 (by decide)
  · exact .inl (.inl hkk)

/-- **What makes for a second attempt is a KK handshake that failed.** -/
theorem clientStep_spent {client : Client S.snow} (h : client.Sound) {d : Disk} {step : LinkStep}
    (hspent : (clientStep S (client, d) step).2.1.Spent) :
    (clientStep S (client, d) step).2.1.generation = client.generation
    ∧ (client.Spent ∨ FailsKk S client step) := by
  have hstep := clientStep_cases client d step
  generalize (clientStep S (client, d) step).2 = out at hstep hspent ⊢
  cases hstep with
  | connected => rcases hspent with hspent | hspent <;> cases hspent
  | unread data binary written c c' err d' hchannel hr =>
    refine ⟨rfl, ?_⟩
    rcases hspent with hspent | hspent
    · dsimp only at hspent
      split at hspent
      · exact .inl (.inl hspent)
      · exact failsKk_of_noteFailure h hchannel hr hspent
    · exact .inl (.inr hspent)
  | refused =>
    refine ⟨rfl, ?_⟩
    rcases hspent with hspent | hspent
    · rcases Bool.or_eq_true_iff.mp hspent with hspent | hpending
      · exact .inl (.inl hspent)
      · obtain ⟨c, hchannel, hpending⟩ := (Option.any_eq_true _ _).mp hpending
        unfold NoiseChannel.kkPending at hpending
        rw [Bool.and_eq_true, Bool.and_eq_true, decide_eq_true_eq, Option.isNone_iff_eq_none]
          at hpending
        obtain ⟨⟨hsession, hsome⟩, hpattern⟩ := hpending
        obtain ⟨handshake, hhandshake⟩ := Option.isSome_iff_exists.mp hsome
        exact .inr ⟨c, handshake, hchannel, hsession, hhandshake, Option.some.inj
          (((h.channel c hchannel).pattern handshake hhandshake).symm.trans hpattern)⟩
    · exact .inl (.inr hspent)
  | retried err hphase hkk => exact ⟨rfl, .inl (.inl hkk)⟩
  | finished result forceXx =>
    rcases hspent with hspent | hspent
    · exact ⟨rfl, .inl (.inl hspent)⟩
    · cases hspent
  | cancelled =>
    rcases hspent with hspent | hspent
    · exact ⟨rfl, .inl (.inl hspent)⟩
    · cases hspent
  | _ => exact ⟨rfl, .inl hspent⟩

/-- What a connect returns is the result of the attempt that ends it. -/
theorem finish_some {attempt result : Result Unit} {client : Client S.snow}
    (h : (finish S attempt client).1 = some result) :
    attempt = result ∧ client.phase ≠ .idle ∧ (finish S attempt client).2.phase = .idle := by
  unfold finish at h ⊢
  rcases hphase : client.phase with _ | _ | _ <;> rw [hphase] at h
  · cases h
  · rcases hkk : client.kkFailed with _ | _ <;> rcases attempt with err | ⟨⟩ <;> rw [hkk] at h <;>
      cases h <;> exact ⟨rfl, by decide, rfl⟩
  · cases h
    exact ⟨rfl, by decide, rfl⟩

/-! ## Over a run of all clients -/

variable {ι : Type} [DecidableEq ι]

theorem clientsStep_self (w : Clients S ι) (i : ι) (step : LinkStep) :
    (clientsStep S w (i, step)).2.client i = (clientStep S (w.client i, w.disk) step).2.1 :=
  Function.update_self i _ _

theorem clientsStep_of_ne (w : Clients S ι) {i j : ι} (h : j ≠ i) (step : LinkStep) :
    (clientsStep S w (i, step)).2.client j = w.client j :=
  Function.update_of_ne h _ _

theorem clientsStep_sound (w : Clients S ι) (x : ι × LinkStep) (h : ∀ i, (w.client i).Sound) (i : ι) :
    ((clientsStep S w x).2.client i).Sound := by
  by_cases hi : i = x.1
  · subst hi
    rw [clientsStep_self w x.1 x.2]
    exact clientStep_sound (h x.1) w.disk x.2
  · rw [clientsStep_of_ne w hi x.2]
    exact h i

/-- In the connect that client `i` is in after a run, a KK handshake has failed. One counts that fails on
a link which an earlier connect has left behind, as its failure is read before the connect makes its own. -/
def FailedKk (w : Clients S ι) (steps : List (ι × LinkStep)) (i : ι) : Prop :=
  ∃ before step after, steps = before ++ (i, step) :: after
    ∧ FailsKk S ((Machine.final (clientsStep S) w before).client i) step
    ∧ ((Machine.final (clientsStep S) w before).client i).generation
      = ((Machine.final (clientsStep S) w steps).client i).generation

theorem failedKk_of_spent {w : Clients S ι} (hsound : ∀ i, (w.client i).Sound)
    (hfresh : ∀ i, ¬ (w.client i).Spent) (i : ι) {steps : List (ι × LinkStep)}
    (h : ((Machine.final (clientsStep S) w steps).client i).Spent) : FailedKk w steps i := by
  induction steps using List.reverseRecOn with
  | nil => exact absurd h (hfresh i)
  | append_singleton steps x ih =>
    have hkeep : ((Machine.final (clientsStep S) w steps).client i).Spent →
        ((Machine.final (clientsStep S) w (steps ++ [x])).client i).generation
          = ((Machine.final (clientsStep S) w steps).client i).generation →
        FailedKk w (steps ++ [x]) i := by
      intro hspent hgeneration
      obtain ⟨before, step, after, rfl, hfails, hsame⟩ := ih hspent
      exact ⟨before, step, after ++ [x], by rw [List.append_assoc, List.cons_append], hfails,
        hsame.trans hgeneration.symm⟩
    rw [Machine.final_concat] at h hkeep
    obtain ⟨j, step⟩ := x
    by_cases hi : i = j
    · subst hi
      rw [clientsStep_self] at h hkeep
      have hs := Machine.final_invariant clientsStep_sound steps hsound i
      obtain ⟨hgeneration, hspent | hfails⟩ := clientStep_spent hs h
      · exact hkeep hspent hgeneration
      · refine ⟨steps, step, [], rfl, hfails, ?_⟩
        rw [Machine.final_concat, clientsStep_self, hgeneration]
    · rw [clientsStep_of_ne _ hi] at h hkeep
      exact hkeep h rfl

/--
**Trust on first use is never downgraded.**

After every run of clients that connect over one store, for every next step of a client:

* A frame that gives a channel its session leaves a key that has passed the pin check: there was no
  pin for the hub and the key is now it, or the pin is the key up to ASCII case. A client has its
  sessions from such frames.
* Every other step leaves the pins, or fills an empty file from an older folder, on an offer. A pin
  that is held stays for ever.
* A connect makes at most two channels. Its second attempt follows an error, and a KK handshake that
  failed during the connect, on a link of its own or on one left behind, and has the pattern XX.
* What a connect returns is the result of the attempt that ends it.
-/
theorem trust_never_downgraded (identity : ι → Identity) (stateDir adoptFrom : ι → Option String)
    (disk : Disk) (steps : List (ι × LinkStep)) (i : ι) (step : LinkStep) :
    let w₀ : Clients S ι :=
      { client := fun i => Client.new S.snow (identity i) (stateDir i) (adoptFrom i), disk := disk }
    let w := Machine.final (clientsStep S) w₀ steps
    let w' := (clientsStep S w (i, step)).2
    (∀ c data binary, frameOf (w.client i) step = some (c, data, binary) → c.session = none →
      (receive S.env data binary (c, w.disk)).2.1.session.isSome = true →
      ∃ remote, (receive S.env data binary (c, w.disk)).2.1.HasKey remote
        ∧ (receive S.env data binary (c, w.disk)).2.1.nodeId = c.nodeId
        ∧ PinCheck S c remote w.disk w'.disk.pins)
    ∧ (∀ c', (w'.client i).channel = some c' → c'.session.isSome = true →
      (∃ c, (w.client i).channel = some c ∧ c.session.isSome = true)
      ∨ ∃ c data binary, frameOf (w.client i) step = some (c, data, binary) ∧ c.session = none
        ∧ (receive S.env data binary (c, w.disk)).2.1.session = c'.session)
    ∧ ((∀ c data binary, frameOf (w.client i) step = some (c, data, binary) → c.session = none →
        (receive S.env data binary (c, w.disk)).2.1.session = none) →
      w'.disk.pins = w.disk.pins
      ∨ ∃ c data binary, frameOf (w.client i) step = some (c, data, binary)
        ∧ Adopts S c w.disk w'.disk.pins)
    ∧ (∀ folder n key, w.disk.pinOf folder n = some key → ∀ later,
      (Machine.final (clientsStep S) w later).disk.pinOf folder n = some key)
    ∧ (w.client i).links ≤ 2
    ∧ ((w.client i).phase ≠ .second → (w'.client i).phase = .second →
      ∃ err, step = .finish (.error err))
    ∧ ((w.client i).phase = .second → FailedKk w₀ steps i
      ∧ ((w.client i).opened = true → ∀ c handshake, (w.client i).channel = some c →
        c.handshake = some handshake → handshake.pattern = NOISE_PATTERN_XX))
    ∧ (∀ result, (clientsStep S w (i, step)).1 = some result →
      step = .finish result ∧ (w.client i).phase ≠ .idle ∧ (w'.client i).phase = .idle) := by
  intro w₀ w w'
  have hsound : ∀ i, (w.client i).Sound :=
    Machine.final_invariant clientsStep_sound steps fun i => Client.sound_new _ _ _ _
  have hself : w'.client i = (clientStep S (w.client i, w.disk) step).2.1 := clientsStep_self w i step
  have hdisk : w'.disk = (clientStep S (w.client i, w.disk) step).2.2 := rfl
  refine ⟨?_, ?_, ?_, ?_, (hsound i).links.trans (w.client i).attempts_le, ?_, fun hphase => ⟨?_, ?_⟩, ?_⟩
  · -- a frame gives a session: only a completed handshake does, with its pin check
    intro c data binary hreceived hnone hsome
    rcases clientStep_pins (w.client i) w.disk step with ⟨c', data', binary', hreceived', hpins⟩ |
      ⟨hnothing, -⟩
    · obtain ⟨rfl, rfl, rfl⟩ : c = c' ∧ data = data' ∧ binary = binary' := by
        simpa using hreceived.symm.trans hreceived'
      rcases receive_pins data binary (c, w.disk) with ⟨hsame, -⟩ | ⟨-, remote, hkey, hnode, hcheck⟩
      · rw [hsame, hnone] at hsome
        cases hsome
      · exact ⟨remote, hkey, hnode, by rw [hdisk, hpins]; exact hcheck⟩
    · rw [hnothing] at hreceived
      cases hreceived
  · intro c' hc' hsome
    rw [hself] at hc'
    exact clientStep_session hc' hsome
  · -- no frame gave a session: the only writes left are those of an offer that adopts a pin
    intro hnone
    rw [hdisk]
    rcases clientStep_pins (w.client i) w.disk step with ⟨c, data, binary, hreceived, hpins⟩ |
      ⟨-, hpins⟩
    · rw [hpins]
      rcases receive_pins data binary (c, w.disk) with ⟨-, hkept | hadopts⟩ |
        ⟨hsession, remote, ⟨session, hsession', -⟩, -⟩
      · exact .inl hkept
      · exact .inr ⟨c, data, binary, hreceived, hadopts⟩
      · exact absurd (hsession'.symm.trans (hnone c data binary hreceived hsession)) (by simp)
    · exact .inl hpins
  · intro folder n key hpin later
    exact Machine.final_invariant
      (P := fun w : Clients S ι => w.disk.pinOf folder n = some key)
      (fun w x hw => clientStep_pinOf hw) later hpin
  · -- a second attempt is only begun by the end of the first
    intro hbefore hafter
    rw [hself] at hafter
    have hstep := clientStep_cases (w.client i) w.disk step
    generalize (clientStep S (w.client i, w.disk) step).2 = out at hstep hafter
    cases hstep with
    | retried err => exact ⟨err, rfl⟩
    | connected => cases hafter
    | finished => cases hafter
    | cancelled => cases hafter
    | _ => exact absurd hafter hbefore
  · -- what a second attempt follows is kept over the whole run, as `Spent`
    refine failedKk_of_spent (fun i => Client.sound_new _ _ _ _) (fun i hspent => ?_) i (.inr hphase)
    rcases hspent with h | h <;> cases h
  · intro hopened c handshake hchannel hhandshake
    have hc := (hsound i).channel c hchannel
    exact hc.forced ((hsound i).second hphase hopened c hchannel) _ (hc.pattern handshake hhandshake)
  · intro result hresult
    rw [hself]
    have hresult' : (clientStep S (w.client i, w.disk) step).1 = some result := hresult
    cases step with
    | finish attempt =>
      obtain ⟨rfl, hphases⟩ := finish_some hresult'
      exact ⟨rfl, hphases⟩
    | _ => cases hresult'

end Thalovant.Transport
