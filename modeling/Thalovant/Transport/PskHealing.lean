import Thalovant.Transport.PskFrames

/-!
# A stale cached key heals itself

A client tries one handshake after another over one store, and its password may change between them.
Where the first message of a handshake was written and the hub's answer does not authenticate, or
never comes, the cached key is evicted: in `continue_handshake`, or as the channel is dropped.

Nobody waits for the drop where a caller is cancelled. Before the session a frame is read by a worker
that owns the channel. Without its caller the worker goes on by itself and then drops the channel
(`abandon`). `clear_noise` hands the channel to a worker too, and a caller that has run out of time
leaves it there (`clear`). So the workers' steps (`work`, `drop`) come anywhere in the run, also in the
middle of later attempts, and a handshake that begins before such a drop finds the stale key again
(`heals_fails_of_late_drop`). Where none is late the next handshake derives anew.
-/

namespace Thalovant.Transport

open Thalovant.Noise Thalovant.Noise.Store Fallible

variable (S : Surroundings) (stateDir : Option String)

/-! ## Attempts and their channels -/

/-- A channel of the client, with the number of the attempt that made it. -/
structure Owned where
  number : Nat
  channel : NoiseChannel S.snow

/-- The channels of one client, and the store. -/
structure Attempts where
  /-- The transport's channel. -/
  slot : Option (Owned S)
  /-- The channels left to workers, each with the frame that its worker has yet to read. -/
  workers : List (Owned S × Option LinkFrame)
  opened : Nat
  disk : Disk

/-- Before the first attempt. -/
def Attempts.new (d : Disk) : Attempts S where
  slot := none
  workers := []
  opened := 0
  disk := d

inductive AttemptStep where
  /-- An attempt makes its channel, under the identity there is now. -/
  | open (identity : Identity) (adoptFrom : Option String) (forceXx : Bool)
  /-- `receive_noise`, and the writes that follow it. -/
  | read (f : LinkFrame)
  /-- `receive_noise`, whose caller is cancelled. -/
  | abandon (data : Bytes) (binary : Bool)
  /-- `clear_noise`. -/
  | clear
  /-- The n-th worker reads its frame. -/
  | work (n : Nat)
  /-- The n-th worker drops its channel; one that its runtime never ran does so too. -/
  | drop (n : Nat)

/-- One step. A frame is read in one step, as the store's lock orders the calls of two workers. -/
def attemptStep (s : Attempts S) : AttemptStep → Attempts S
  | .open identity adoptFrom forceXx =>
    { s with
      slot := some
        { number := s.opened
          channel := NoiseChannel.new S.snow identity stateDir forceXx adoptFrom }
      opened := s.opened + 1
      disk := dropChannel S (s.slot.map Owned.channel) s.disk }
  | .read f =>
    match s.slot with
    | none => s
    | some o =>
      let (channel, disk) := readFrame S (o.channel, s.disk) f
      { s with slot := some { o with channel := channel }, disk := disk }
  | .abandon data binary =>
    match s.slot with
    | none => s
    | some o =>
      -- under a session the frame is read at once, without a worker
      if o.channel.session.isSome then s
      else { s with slot := none, workers := (o, some ⟨data, binary, true⟩) :: s.workers }
  | .clear =>
    match s.slot with
    | none => s
    | some o => { s with slot := none, workers := (o, none) :: s.workers }
  | .work n =>
    match s.workers[n]? with
    | some (o, some f) =>
      let (channel, disk) := readFrame S (o.channel, s.disk) f
      { s with workers := s.workers.set n ({ o with channel := channel }, none), disk := disk }
    | _ => s
  | .drop n =>
    match s.workers[n]? with
    | none => s
    | some (o, _) =>
      { s with
        workers := s.workers.eraseIdx n
        disk := dropChannel S (some o.channel) s.disk }

def runAttempts (s : Attempts S) (steps : List AttemptStep) : Attempts S :=
  steps.foldl (attemptStep S stateDir) s

/-! ## What is said of a run -/

variable {S}

namespace Attempts

variable (s : Attempts S)

/-- The channels that have not been dropped. -/
def live : List (Owned S) := s.slot.toList ++ s.workers.map Prod.fst

/-- The channel and the frame that a step reads. -/
def reading : AttemptStep → Option (Owned S × LinkFrame)
  | .read f => s.slot.map fun o => (o, f)
  | .work n => s.workers[n]?.bind fun w => w.2.map fun f => (w.1, f)
  | _ => none

/-- The link of a channel. -/
def link (o : Owned S) : Link S.env := (o.channel, s.disk)

/-- The hub's offer for a node id is answered or refused, under this password. -/
def Starts (step : AttemptStep) (nodeId password : String) : Prop :=
  ∃ o f, s.reading step = some (o, f) ∧ Offered S (s.link o) f ∧ o.channel.nodeId = nodeId
    ∧ o.channel.identity.password = password

/-- An attempt writes its first message for a node id, with this pre-shared key. -/
def Begins (step : AttemptStep) (number : Nat) (nodeId password : String) (psk : Bytes) : Prop :=
  ∃ o f, s.reading step = some (o, f) ∧ o.number = number ∧ Offered S (s.link o) f
    ∧ o.channel.nodeId = nodeId ∧ o.channel.identity.password = password
    ∧ o.channel.handshake = none ∧ (readFrame S (s.link o) f).1.handshake.isSome = true
    ∧ (startPsk S o.channel s.disk).1 = .ok psk

/-- The hub's answer to an attempt authenticates. -/
def Authenticates (step : AttemptStep) (number : Nat) : Prop :=
  ∃ o f payload, s.reading step = some (o, f) ∧ o.number = number ∧ Answered S (s.link o) f (.ok payload)

/-- The transport no longer has the attempt's channel, or its handshake is over. -/
def GivenUp (number : Nat) : Prop :=
  ∀ o, s.slot = some o → o.number = number → o.channel.handshake = none

end Attempts

variable (S)

/--
After a handshake that was given up without an answer that authenticated, the next one for the node id
begins with the key of its own password, and finds none cached. "The next" allows for others between
the two that had that password; nothing is cached if there were none.
-/
def Heals (folder : String) (s : Attempts S) (steps : List AttemptStep) : Prop :=
  let reach := runAttempts S stateDir s
  ∀ before first between next after number number' nodeId password password' psk psk',
    steps = before ++ first :: (between ++ next :: after) →
    (reach before).Begins first number nodeId password psk →
    (∀ earlier step later, between = earlier ++ step :: later →
      ¬ (reach (before ++ first :: earlier)).Authenticates step number) →
    (reach (before ++ first :: between)).GivenUp number →
    (reach (before ++ first :: between)).Begins next number' nodeId password' psk' →
    ((∀ earlier step later, between = earlier ++ step :: later →
        ∀ other, (reach (before ++ first :: earlier)).Starts step nodeId other → other = password') →
      S.derivePsk password' nodeId = .ok psk')
    ∧ ((∀ earlier step later, between = earlier ++ step :: later →
        ∀ other, ¬ (reach (before ++ first :: earlier)).Starts step nodeId other) →
      (reach (before ++ first :: between)).disk.cached folder nodeId = none)

/-- An offer is answered only when no channel of the client still waits for that node id. -/
def Orderly (s : Attempts S) (steps : List AttemptStep) : Prop :=
  let reach := runAttempts S stateDir s
  ∀ before next after o f, steps = before ++ next :: after →
    (reach before).reading next = some (o, f) → Offered S ((reach before).link o) f →
    o.channel.handshake = none →
    ∀ other ∈ (reach before).live, ¬ Waits o.channel.nodeId ((reach before).link other)

variable {S} {stateDir}

/-! ## One step -/

/-- What a step has done: a channel has read a frame, one has been dropped, or neither. -/
inductive Acted (stateDir : Option String) (s : Attempts S) (step : AttemptStep) :
    Attempts S → Prop where
  | kept (s' : Attempts S) (hreading : s.reading step = none) (hlive : ∀ o ∈ s.live, o ∈ s'.live)
      (hnew : ∀ o ∈ s'.live, o ∈ s.live ∨ o.channel.stateDir = stateDir)
      (hdisk : s'.disk = s.disk) : Acted stateDir s step s'
  | read (o o' : Owned S) (f : LinkFrame) (s' : Attempts S) (hreading : s.reading step = some (o, f))
      (ho : o ∈ s.live) (ho' : o' ∈ s'.live) (hnumber : o'.number = o.number)
      (hlink : s'.link o' = readFrame S (s.link o) f)
      (hlive : ∀ other ∈ s.live, other ≠ o → other ∈ s'.live)
      (hnew : ∀ other ∈ s'.live, other ∈ s.live ∨ other = o') : Acted stateDir s step s'
  | dropped (o : Owned S) (s' : Attempts S) (hreading : s.reading step = none) (ho : o ∈ s.live)
      (hdisk : s'.disk = dropChannel S (some o.channel) s.disk)
      (hlive : ∀ other ∈ s.live, other ≠ o → other ∈ s'.live)
      (hnew : ∀ other ∈ s'.live, other ∈ s.live ∨ other.channel.stateDir = stateDir) :
      Acted stateDir s step s'

theorem Attempts.mem_live {s : Attempts S} {o : Owned S} :
    o ∈ s.live ↔ s.slot = some o ∨ ∃ (n : Nat) (w : Owned S × Option LinkFrame), s.workers[n]? = some w ∧ w.1 = o := by
  unfold Attempts.live
  rw [List.mem_append, Option.mem_toList, List.mem_map]
  refine or_congr_right ⟨?_, ?_⟩
  · rintro ⟨w, hw, rfl⟩
    obtain ⟨n, hn⟩ := List.mem_iff_getElem?.mp hw
    exact ⟨n, w, hn, rfl⟩
  · rintro ⟨n, w, hn, rfl⟩
    exact ⟨w, List.mem_of_getElem? hn, rfl⟩

/-- A channel that goes from the slot to a worker. -/
theorem live_of_detached {s : Attempts S} {o : Owned S} (hslot : s.slot = some o)
    (f : Option LinkFrame) (other : Owned S) :
    other ∈ ({ s with slot := none, workers := (o, f) :: s.workers } : Attempts S).live
      ↔ other ∈ s.live := by
  simp [Attempts.live, hslot, eq_comm]

theorem attemptStep_acted (stateDir : Option String) (s : Attempts S) (step : AttemptStep) :
    Acted stateDir s step (attemptStep S stateDir s step) := by
  have hsame : s.reading step = none → Acted stateDir s step s := fun h =>
    .kept s h (fun _ h => h) (fun _ h => .inl h) rfl
  cases step with
  | «open» identity adoptFrom forceXx =>
    have hnew : ∀ other ∈ (attemptStep S stateDir s (.open identity adoptFrom forceXx)).live,
        other ∈ s.live ∨ other.channel.stateDir = stateDir := by
      intro other h
      rcases Attempts.mem_live.mp h with h | h
      · cases h
        exact .inr rfl
      · exact .inl (Attempts.mem_live.mpr (.inr h))
    have hkept : ∀ other ∈ s.live, s.slot ≠ some other →
        other ∈ (attemptStep S stateDir s (.open identity adoptFrom forceXx)).live := fun other h hne =>
      Attempts.mem_live.mpr (.inr ((Attempts.mem_live.mp h).resolve_left hne))
    rcases hslot : s.slot with _ | o
    · exact .kept _ rfl (fun other h => hkept other h (by simp [hslot])) hnew
        (by simp [attemptStep, hslot, dropChannel])
    · refine .dropped o _ rfl (Attempts.mem_live.mpr (.inl hslot)) (by simp [attemptStep, hslot])
        (fun other h hne => hkept other h ?_) hnew
      rw [hslot]
      exact fun h => hne (Option.some.inj h).symm
  | read f =>
    rcases hslot : s.slot with _ | o
    · have h : attemptStep S stateDir s (.read f) = s := by simp [attemptStep, hslot]
      rw [h]
      exact hsame (by simp [Attempts.reading, hslot])
    · refine .read o { o with channel := (readFrame S (s.link o) f).1 } f _
        (by simp [Attempts.reading, hslot]) (Attempts.mem_live.mpr (.inl hslot)) ?_ rfl ?_ ?_ ?_
      · exact Attempts.mem_live.mpr (.inl (by simp [attemptStep, hslot, Attempts.link]))
      · simp [attemptStep, hslot, Attempts.link]
      · intro other h hne
        rcases Attempts.mem_live.mp h with h | ⟨n, w, hn, hw⟩
        · exact absurd (Option.some.inj (h.symm.trans hslot)) hne
        · exact Attempts.mem_live.mpr (.inr ⟨n, w, by simpa [attemptStep, hslot] using hn, hw⟩)
      · intro other h
        simp only [attemptStep, hslot] at h
        rcases Attempts.mem_live.mp h with h | ⟨n, w, hn, hw⟩
        · exact .inr (Option.some.inj h).symm
        · exact .inl (Attempts.mem_live.mpr (.inr ⟨n, w, hn, hw⟩))
  | abandon data binary =>
    rcases hslot : s.slot with _ | o
    · have h : attemptStep S stateDir s (.abandon data binary) = s := by simp [attemptStep, hslot]
      rw [h]
      exact hsame rfl
    · by_cases hsession : o.channel.session.isSome = true
      · have h : attemptStep S stateDir s (.abandon data binary) = s := by
          simp [attemptStep, hslot, hsession]
        rw [h]
        exact hsame rfl
      · have hmem := live_of_detached hslot (some ⟨data, binary, true⟩)
        have h : attemptStep S stateDir s (.abandon data binary)
            = { s with slot := none, workers := (o, some ⟨data, binary, true⟩) :: s.workers } := by
          simp [attemptStep, hslot, hsession]
        rw [h]
        exact .kept _ rfl (fun other => (hmem other).mpr) (fun other h => .inl ((hmem other).mp h)) rfl
  | clear =>
    rcases hslot : s.slot with _ | o
    · have h : attemptStep S stateDir s .clear = s := by simp [attemptStep, hslot]
      rw [h]
      exact hsame rfl
    · have hmem := live_of_detached hslot none
      have h : attemptStep S stateDir s .clear
          = { s with slot := none, workers := (o, none) :: s.workers } := by
        simp [attemptStep, hslot]
      rw [h]
      exact .kept _ rfl (fun other => (hmem other).mpr) (fun other h => .inl ((hmem other).mp h)) rfl
  | work n =>
    rcases hworker : s.workers[n]? with _ | ⟨o, _ | f⟩
    · have h : attemptStep S stateDir s (.work n) = s := by simp [attemptStep, hworker]
      rw [h]
      exact hsame (by simp [Attempts.reading, hworker])
    · have h : attemptStep S stateDir s (.work n) = s := by simp [attemptStep, hworker]
      rw [h]
      exact hsame (by simp [Attempts.reading, hworker])
    · have hn : n < s.workers.length := (List.getElem?_eq_some_iff.mp hworker).1
      refine .read o { o with channel := (readFrame S (s.link o) f).1 } f _
        (by simp [Attempts.reading, hworker]) (Attempts.mem_live.mpr (.inr ⟨n, _, hworker, rfl⟩))
        ?_ rfl ?_ ?_ ?_
      · refine Attempts.mem_live.mpr (.inr ⟨n, ({ o with channel := (readFrame S (s.link o) f).1 },
          none), ?_, rfl⟩)
        simp only [attemptStep, hworker]
        exact List.getElem?_set_self hn
      · simp [attemptStep, hworker, Attempts.link]
      · intro other h hne
        simp only [attemptStep, hworker]
        rcases Attempts.mem_live.mp h with h | ⟨m, w, hm, hw⟩
        · exact Attempts.mem_live.mpr (.inl h)
        · refine Attempts.mem_live.mpr (.inr ⟨m, w, ?_, hw⟩)
          have hmn : n ≠ m := by
            rintro rfl
            rw [hworker] at hm
            cases hm
            exact hne hw.symm
          rw [List.getElem?_set_ne hmn]
          exact hm
      · intro other h
        simp only [attemptStep, hworker] at h
        rcases Attempts.mem_live.mp h with h | ⟨m, w, hm, hw⟩
        · exact .inl (Attempts.mem_live.mpr (.inl h))
        · by_cases hmn : n = m
          · subst hmn
            rw [List.getElem?_set_self hn] at hm
            cases hm
            exact .inr hw.symm
          · rw [List.getElem?_set_ne hmn] at hm
            exact .inl (Attempts.mem_live.mpr (.inr ⟨m, w, hm, hw⟩))
  | drop n =>
    rcases hworker : s.workers[n]? with _ | ⟨o, f⟩
    · have h : attemptStep S stateDir s (.drop n) = s := by simp [attemptStep, hworker]
      rw [h]
      exact hsame rfl
    · refine .dropped o _ rfl (Attempts.mem_live.mpr (.inr ⟨n, _, hworker, rfl⟩)) ?_ ?_ ?_
      · simp [attemptStep, hworker]
      · intro other h hne
        simp only [attemptStep, hworker]
        rcases Attempts.mem_live.mp h with h | ⟨m, w, hm, hw⟩
        · exact Attempts.mem_live.mpr (.inl h)
        · have hmn : m ≠ n := by
            rintro rfl
            rw [hworker] at hm
            cases hm
            exact hne hw.symm
          obtain ⟨k, hk⟩ := List.mem_iff_getElem?.mp
            (List.mem_eraseIdx_iff_getElem?.mpr ⟨m, hmn, hm⟩)
          exact Attempts.mem_live.mpr (.inr ⟨k, w, hk, hw⟩)
      · intro other h
        simp only [attemptStep, hworker] at h
        rcases Attempts.mem_live.mp h with h | ⟨m, w, hm, hw⟩
        · exact .inl (Attempts.mem_live.mpr (.inl h))
        · obtain ⟨k, hk⟩ := List.mem_iff_getElem?.mp (List.mem_of_mem_eraseIdx (List.mem_of_getElem? hm))
          exact .inl (Attempts.mem_live.mpr (.inr ⟨k, w, hk, hw⟩))

/-! ## What a step does to the cached keys -/

/-- The channels are over the client's folder, whose cache can be read. -/
structure Attempts.Sound (stateDir : Option String) (folder : String) (s : Attempts S) : Prop where
  stateDir : ∀ o ∈ s.live, o.channel.stateDir = stateDir
  readable : (s.disk.psks folder).readable = true

section Step

variable {folder nodeId : String} {s : Attempts S} {step : AttemptStep}

theorem Attempts.Sound.link (h : s.Sound stateDir folder) {o : Owned S} (ho : o ∈ s.live) :
    OnFolder stateDir folder (s.link o) := ⟨h.stateDir o ho, h.readable⟩

theorem new_sound {d : Disk} (hread : (d.psks folder).readable = true) :
    (Attempts.new S d).Sound stateDir folder where
  stateDir o ho := absurd ho (List.not_mem_nil (a := o))
  readable := hread

theorem attemptStep_sound (hworks : Works S.store stateDir folder) (h : s.Sound stateDir folder)
    (step : AttemptStep) : (attemptStep S stateDir s step).Sound stateDir folder := by
  have hacted := attemptStep_acted stateDir s step
  generalize attemptStep S stateDir s step = s' at hacted ⊢
  cases hacted with
  | kept _ hreading hlive hnew hdisk =>
    exact ⟨fun o ho => (hnew o ho).elim (h.stateDir o) id, hdisk ▸ h.readable⟩
  | read o o' f _ hreading ho ho' hnumber hlink hlive hnew =>
    have hlinked := hlink ▸ readFrame_onFolder hworks (h.link ho) f
    refine ⟨fun other hother => ?_, hlinked.readable⟩
    rcases hnew other hother with hold | rfl
    · exact h.stateDir other hold
    · exact hlinked.stateDir
  | dropped o _ hreading ho hdisk hlive hnew =>
    exact ⟨fun other hother => (hnew other hother).elim (h.stateDir other) id,
      hdisk ▸ dropChannel_readable hworks (h.link ho)⟩

/-- A key is cached only under a password that an attempt starts with. -/
theorem attemptStep_fresh (hworks : Works S.store stateDir folder) (h : s.Sound stateDir folder)
    {passwords : String → Prop} (hfresh : Fresh S passwords folder nodeId s.disk)
    (hstarts : ∀ password, s.Starts step nodeId password → passwords password) :
    Fresh S passwords folder nodeId (attemptStep S stateDir s step).disk := by
  have hacted := attemptStep_acted stateDir s step
  generalize attemptStep S stateDir s step = s' at hacted ⊢
  cases hacted with
  | kept _ hreading hlive hnew hdisk => exact hdisk ▸ hfresh
  | read o o' f _ hreading ho ho' hnumber hlink hlive hnew =>
    have hread := readFrame_fresh hworks (h.link ho) hfresh (f := f) fun hoffered hnode =>
      hstarts _ ⟨o, f, hreading, hoffered, hnode, rfl⟩
    rwa [← hlink] at hread
  | dropped o _ hreading ho hdisk hlive hnew =>
    exact hdisk ▸ dropChannel_fresh hworks (h.link ho) hfresh

/-- **A handshake that waits for its answer goes on waiting, has it, or takes the cached key along.** -/
theorem attemptStep_waits (hworks : Works S.store stateDir folder) (h : s.Sound stateDir folder)
    (step : AttemptStep) {o : Owned S} (ho : o ∈ s.live) (hwaits : Waits nodeId (s.link o)) :
    (∃ o' ∈ (attemptStep S stateDir s step).live, o'.number = o.number
        ∧ Waits nodeId ((attemptStep S stateDir s step).link o'))
    ∨ s.Authenticates step o.number
    ∨ (attemptStep S stateDir s step).disk.cached folder nodeId = none := by
  have hacted := attemptStep_acted stateDir s step
  generalize attemptStep S stateDir s step = s' at hacted ⊢
  cases hacted with
  | kept _ hreading hlive hnew hdisk => exact .inl ⟨o, hlive o ho, rfl, hwaits⟩
  | read reader o' f _ hreading hreader ho' hnumber hlink hlive hnew =>
    by_cases hself : o = reader
    · subst hself
      by_cases hauth : ∃ payload, Answered S (s.link o) f (.ok payload)
      · obtain ⟨payload, hauth⟩ := hauth
        exact .inr (.inl ⟨o, f, payload, hreading, rfl, hauth⟩)
      · rcases readFrame_waits hworks (h.link ho) (.inl hwaits) hauth with hstill | hlost <;>
          rw [← hlink] at *
        · exact .inl ⟨o', ho', hnumber, hstill⟩
        · exact .inr (.inr hlost.2.2)
    · exact .inl ⟨o, hlive o ho hself, rfl, hwaits⟩
  | dropped dropped _ hreading hdropped hdisk hlive hnew =>
    by_cases hself : o = dropped
    · subst hself
      exact .inr (.inr (hdisk ▸ dropChannel_waits hworks (h.link ho) (.inl hwaits)))
    · exact .inl ⟨o, hlive o ho hself, rfl, hwaits⟩

end Step

/-! ## A run -/

section Run

variable {folder nodeId : String} {s : Attempts S}

theorem runAttempts_append (s : Attempts S) (before later : List AttemptStep) :
    runAttempts S stateDir s (before ++ later)
      = runAttempts S stateDir (runAttempts S stateDir s before) later := List.foldl_append

/-- What every step preserves that is of the kind there are, all of them preserve. -/
theorem runAttempts_invariant {I : Attempts S → Prop} {P : Attempts S → AttemptStep → Prop}
    (hstep : ∀ s step, I s → P s step → I (attemptStep S stateDir s step)) :
    ∀ (steps : List AttemptStep) {s : Attempts S}, I s →
      (∀ earlier step later, steps = earlier ++ step :: later →
        P (runAttempts S stateDir s earlier) step) →
      I (runAttempts S stateDir s steps)
  | [], _, h, _ => h
  | step :: steps, s, h, hall => by
    show I (runAttempts S stateDir (attemptStep S stateDir s step) steps)
    refine runAttempts_invariant hstep steps (hstep s step h (hall [] step steps rfl)) ?_
    rintro earlier g later rfl
    exact hall (step :: earlier) g later rfl

theorem runAttempts_sound (hworks : Works S.store stateDir folder) (h : s.Sound stateDir folder)
    (steps : List AttemptStep) : (runAttempts S stateDir s steps).Sound stateDir folder :=
  runAttempts_invariant (I := Attempts.Sound stateDir folder) (P := fun _ _ => True)
    (fun _ step hs _ => attemptStep_sound hworks hs step) steps h fun _ _ _ _ => trivial

/-- The channel that reads a frame is one of the client's. -/
theorem mem_live_of_reading {step : AttemptStep} {o : Owned S} {f : LinkFrame}
    (h : s.reading step = some (o, f)) : o ∈ s.live := by
  have hacted := attemptStep_acted none s step
  cases hacted with
  | kept _ hreading => cases h.symm.trans hreading
  | read o₁ o' f₁ _ hreading ho => cases h.symm.trans hreading; exact ho
  | dropped o₁ _ hreading => cases h.symm.trans hreading

/-- What a step that begins a handshake leaves of the channel it read a frame for. -/
theorem Attempts.Begins.reads (stateDir : Option String) {first : AttemptStep} {number : Nat} {password : String} {psk : Bytes}
    (h : s.Begins first number nodeId password psk) :
    ∃ o o' f, o ∈ s.live ∧ o' ∈ (attemptStep S stateDir s first).live ∧ o'.number = number
      ∧ (attemptStep S stateDir s first).link o' = readFrame S (s.link o) f
      ∧ Offered S (s.link o) f ∧ o.channel.nodeId = nodeId ∧ o.channel.handshake = none
      ∧ (readFrame S (s.link o) f).1.handshake.isSome = true
      ∧ (startPsk S o.channel s.disk).1 = .ok psk := by
  obtain ⟨o, f, hreading, rfl, hoffered, hnode, -, hnone, hbegun, hpsk⟩ := h
  have hacted := attemptStep_acted stateDir s first
  generalize attemptStep S stateDir s first = s' at hacted ⊢
  cases hacted with
  | kept _ hreading' => cases hreading.symm.trans hreading'
  | read o₁ o' f₁ _ hreading' ho ho' hnumber hlink =>
    cases hreading.symm.trans hreading'
    exact ⟨o, o', f, ho, ho', hnumber, hlink, hoffered, hnode, hnone, hbegun, hpsk⟩
  | dropped o₁ _ hreading' => cases hreading.symm.trans hreading'

/-- The first message is made with the key the handshake begins with. -/
theorem begins_key {first : AttemptStep} {number : Nat} {password : String} {psk : Bytes}
    (h : s.Begins first number nodeId password psk) :
    ∃ o ∈ (attemptStep S stateDir s first).live, o.number = number
      ∧ ∃ pattern suite prologue key pin seed fresh payload,
        NoiseHandshake.new S.snow pattern suite psk prologue key pin seed = .ok fresh
        ∧ o.channel.handshake = some (fresh.writeMessage payload).2 := by
  obtain ⟨o, o', f, -, ho', hnumber, hlink, hoffered, -, hnone, hbegun, hpsk⟩ := h.reads stateDir
  refine ⟨o', ho', hnumber, ?_⟩
  rw [show o'.channel.handshake = (readFrame S (s.link o) f).1.handshake from
    congrArg (fun link => link.1.handshake) hlink]
  exact hoffered.begins hnone hbegun hpsk

/-- Until a handshake is given up it waits; from then on what is cached is of the later passwords. -/
theorem runAttempts_fresh (hworks : Works S.store stateDir folder) (h : s.Sound stateDir folder)
    {first : AttemptStep} {number : Nat} {password : String} {psk : Bytes}
    (hbegins : s.Begins first number nodeId password psk) {passwords : String → Prop}
    (between : List AttemptStep)
    (hnot : ∀ earlier step later, between = earlier ++ step :: later →
      ¬ (runAttempts S stateDir s (first :: earlier)).Authenticates step number)
    (hstarts : ∀ earlier step later, between = earlier ++ step :: later → ∀ other,
      (runAttempts S stateDir s (first :: earlier)).Starts step nodeId other → passwords other) :
    Fresh S passwords folder nodeId (runAttempts S stateDir s (first :: between)).disk
    ∨ ∃ o ∈ (runAttempts S stateDir s (first :: between)).live, o.number = number
      ∧ Waits nodeId ((runAttempts S stateDir s (first :: between)).link o) := by
  have hbegun : ∃ o ∈ (attemptStep S stateDir s first).live, o.number = number
      ∧ Waits nodeId ((attemptStep S stateDir s first).link o) := by
    obtain ⟨o, o', f, ho, ho', hnumber, hlink, -, rfl, hnone, hbegun, -⟩ := hbegins.reads stateDir
    have hwaits := waits_of_begun hworks (h.link ho) hnone hbegun
    rw [← hlink] at hwaits
    exact ⟨o', ho', hnumber, hwaits⟩
  refine (runAttempts_invariant (s := attemptStep S stateDir s first)
    (I := fun s => s.Sound stateDir folder ∧ (Fresh S passwords folder nodeId s.disk
      ∨ ∃ o ∈ s.live, o.number = number ∧ Waits nodeId (s.link o)))
    (P := fun s step => ¬ s.Authenticates step number
      ∧ ∀ other, s.Starts step nodeId other → passwords other)
    ?_ between ⟨attemptStep_sound hworks h first, .inr hbegun⟩ ?_).2
  · rintro s step ⟨hsound, hs⟩ ⟨hno, hpasswords⟩
    refine ⟨attemptStep_sound hworks hsound step, ?_⟩
    rcases hs with hfresh | ⟨o, ho, rfl, hwaits⟩
    · exact .inl (attemptStep_fresh hworks hsound hfresh hpasswords)
    · rcases attemptStep_waits hworks hsound step ho hwaits with hstill | hauth | hgone
      · exact .inr hstill
      · exact absurd hauth hno
      · exact .inl (.inl hgone)
  · exact fun earlier step later h => ⟨hnot earlier step later h, hstarts earlier step later h⟩

/-- **In a run without late drops a stale key heals.** -/
theorem heals_of_orderly (hworks : Works S.store stateDir folder) (h : s.Sound stateDir folder)
    {steps : List AttemptStep} (horderly : Orderly S stateDir s steps) :
    Heals S stateDir folder s steps := by
  unfold Heals
  intro reach before first between next after number number' nodeId password password' psk psk' hsteps
    hbegins hnot hgiven hbegins'
  have hreach : ∀ earlier, reach (before ++ first :: earlier)
      = runAttempts S stateDir (reach before) (first :: earlier) := fun earlier =>
    runAttempts_append s before (first :: earlier)
  have hsound := runAttempts_sound hworks h before
  have hfresh : ∀ passwords : String → Prop, (∀ earlier step later, between = earlier ++ step :: later →
      ∀ other, (reach (before ++ first :: earlier)).Starts step nodeId other → passwords other) →
      Fresh S passwords folder nodeId (reach (before ++ first :: between)).disk := by
    intro passwords hstarts
    rcases runAttempts_fresh hworks hsound hbegins between
      (fun earlier step later h => hreach earlier ▸ hnot earlier step later h)
      (fun earlier step later h => hreach earlier ▸ hstarts earlier step later h) with hfresh | hwaits
    · exact (congrArg (fun s : Attempts S => Fresh S passwords folder nodeId s.disk)
        (hreach between)).mpr hfresh
    · -- no channel waits for the node id where the next handshake for it begins
      obtain ⟨o, f, hreading, -, hoffered, rfl, -, hnone, -⟩ := hbegins'
      obtain ⟨other, hother, -, hwaits⟩ := hwaits
      rw [← hreach between] at hother hwaits
      exact absurd hwaits (horderly (before ++ first :: between) next after o f (by simp [hsteps])
        hreading hoffered hnone other hother)
  refine ⟨fun hpasswords => ?_, fun hnone => ?_⟩
  · have hlast := runAttempts_sound hworks h (before ++ first :: between)
    obtain ⟨o, f, hreading, -, -, rfl, rfl, -, -, hpsk⟩ := hbegins'
    obtain ⟨_, rfl, hderive⟩ := startPsk_fresh hworks (hlast.link (mem_live_of_reading hreading))
      (hfresh (· = o.channel.identity.password) hpasswords) rfl hpsk
    exact hderive
  · rcases hfresh (fun _ => False) hnone with hgone | ⟨_, _, hfalse, -⟩
    · exact hgone
    · exact hfalse.elim

/--
**A stale cached key heals itself, unless a drop is late.**

Over a store that works, for every run of one client's attempts and of the workers they leave behind,
whatever the hubs do and the passwords are:

* Where an offer is answered only when no channel of the client still waits for that node id, a
  handshake that is given up without an answer that authenticated has its key evicted before the next
  one begins: nothing is cached for the node id, and the next handshake has the key of its own
  password. A password that stays fails once.
* The key a handshake begins with is the one its first message is made with.
* Late or not, a channel that waits for its answer goes on waiting, or has an answer that
  authenticates, or at that step its key is evicted.
* A rejected answer evicts the key of its node id and no other, and leaves every pin. So does the drop
  of a channel in the middle of its handshake; any other drop leaves the store as it is. An answer
  that authenticates leaves the cache.
-/
theorem stale_psk_heals {d : Disk} (hworks : Works S.store stateDir folder)
    (hread : (d.psks folder).readable = true) (steps : List AttemptStep) :
    let reach := runAttempts S stateDir (.new S d)
    (Orderly S stateDir (.new S d) steps → Heals S stateDir folder (.new S d) steps)
    ∧ (∀ before step after number nodeId password psk, steps = before ++ step :: after →
      (reach before).Begins step number nodeId password psk →
      ∃ o ∈ (reach (before ++ [step])).live, o.number = number
        ∧ ∃ pattern suite prologue key pin seed fresh payload,
          NoiseHandshake.new S.snow pattern suite psk prologue key pin seed = .ok fresh
          ∧ o.channel.handshake = some (fresh.writeMessage payload).2)
    ∧ (∀ before step after (o : Owned S) nodeId, steps = before ++ step :: after →
      o ∈ (reach before).live → Waits nodeId ((reach before).link o) →
      (∃ o' ∈ (reach (before ++ [step])).live, o'.number = o.number
          ∧ Waits nodeId ((reach (before ++ [step])).link o'))
      ∨ (reach before).Authenticates step o.number
      ∨ (reach (before ++ [step])).disk.cached folder nodeId = none)
    ∧ (∀ s f err, OnFolder stateDir folder s → Answered S s f (.error err) →
      Recached folder s.1.nodeId none s.2 (readFrame S s f).2)
    ∧ (∀ s : Link S.env, OnFolder stateDir folder s → s.1.handshake.isSome = true →
      s.1.session = none → Recached folder s.1.nodeId none s.2 (dropChannel S (some s.1) s.2))
    ∧ (∀ s : Link S.env, s.1.handshake = none ∨ s.1.session.isSome = true →
      dropChannel S (some s.1) s.2 = s.2)
    ∧ ∀ s f payload, Answered S s f (.ok payload) → (readFrame S s f).2.psks = s.2.psks := by
  intro reach
  have hnew : (Attempts.new S d).Sound stateDir folder := new_sound hread
  have hlast : ∀ before step, reach (before ++ [step]) = attemptStep S stateDir (reach before) step :=
    fun before step => runAttempts_append _ before [step]
  refine ⟨fun horderly => heals_of_orderly hworks hnew horderly, ?_, ?_,
    fun s f err h hanswered => hanswered.recached hworks h, ?_, ?_,
    fun s f payload hanswered => hanswered.psks⟩
  · intro before step after number nodeId password psk _ hbegins
    rw [hlast]
    exact begins_key hbegins
  · intro before step after o nodeId _ ho hwaits
    rw [hlast]
    exact attemptStep_waits hworks (runAttempts_sound hworks hnew before) step ho hwaits
  · intro s h hsome hnone
    rcases dropChannel_cases hworks h with ⟨-, hcache⟩ | ⟨hnot | hnot, -⟩
    · exact hcache
    · rw [hnot] at hsome; cases hsome
    · rw [hnone] at hnot; cases hnot
  · intro s hdone
    unfold dropChannel
    refine if_neg ?_
    rcases hdone with h | h
    · simp [h]
    · simp [← Option.not_isSome, h]

end Run

/-! ## A password that was changed -/

/-- A store that works, and the hub of `sampleEnv`. A key is as good as its password is long. -/
def sampleSurroundings : Surroundings where
  snow := countingSnow
  numbers := sampleEnv.numbers
  store := {
    noiseStateDir := .ok "state"
    fault := fun _ => none
    randomKey := fun _ => List.replicate 32 7
    canonicalize := some }
  derivePsk password _ := .ok (List.replicate 32 (UInt8.ofNat password.length))
  seed := id
  uuid := fun _ => "0"
  fromSlice := sampleEnv.fromSlice
  toVec := sampleEnv.toVec
  decodeHiveBinaryFrame := sampleEnv.decodeHiveBinaryFrame

/-- The key of a password of three letters is cached for the hub. -/
def sampleDisk : Disk where
  folders _ := {
    key := .absent
    pins := .absent
    psks := .held [("hub", hexEncode (List.replicate 32 3))] }
  accesses := 0
  draws := 0

/-- The hub's HELLO and its offer, read by the transport's channel. -/
def greeting : List AttemptStep :=
  [.open sampleIdentity none false, .read ⟨[0], false, true⟩]

def offer : AttemptStep := .read ⟨[1], false, true⟩

/-- The first attempt is cleared before the hub answers, and its channel dropped; then the next one. -/
def healingRun : List AttemptStep := greeting ++ offer :: .clear :: .drop 0 :: greeting ++ [offer]

/-- The caller is gone while a worker has the hub's answer; the next attempt begins before it is read. -/
def lateRun : List AttemptStep := greeting ++ offer :: .abandon [2] false :: greeting ++ [offer]

/-- A first message, read off the channel that the transport has. -/
theorem begins_of_read {s : Attempts S} {f : LinkFrame} {number : Nat} {nodeId password : String}
    {psk : Bytes} (hbinary : f.binary = false) (hoffer : IsOffer S.env f.data)
    (h : (s.slot.any fun o => o.number == number && !o.channel.failed && o.channel.session.isNone
      && o.channel.nodeId == nodeId && o.channel.identity.password == password
      && o.channel.handshake.isNone && (readFrame S (s.link o) f).1.handshake.isSome
      && (startPsk S o.channel s.disk).1.toOption == some psk) = true) :
    s.Begins (.read f) number nodeId password psk := by
  rw [Option.any_eq_true] at h
  obtain ⟨o, hslot, h⟩ := h
  simp only [Bool.and_eq_true, beq_iff_eq, Bool.not_eq_true', Option.isNone_iff_eq_none] at h
  obtain ⟨⟨⟨⟨⟨⟨⟨hnumber, hfailed⟩, hsession⟩, hnode⟩, hpassword⟩, hnone⟩, hbegun⟩, hpsk⟩ := h
  refine ⟨o, f, by simp [Attempts.reading, hslot], hnumber, ⟨hfailed, hsession, hbinary, hoffer⟩, hnode,
    hpassword, hnone, hbegun, ?_⟩
  rcases hstart : (startPsk S o.channel s.disk).1 with err | psk' <;> rw [hstart] at hpsk
  · cases hpsk
  · exact congrArg Except.ok (Option.some.inj hpsk)

theorem isOffer_sample : IsOffer sampleSurroundings.env [1] :=
  ⟨_, _, ⟨_, rfl, .inl rfl, rfl, rfl⟩, by decide⟩

theorem not_isOffer_hello : ¬ IsOffer sampleSurroundings.env [0] := by
  rintro ⟨offer, params, ⟨message, hdata, htype, -⟩, -⟩
  cases hdata
  revert htype
  decide

/-- Both attempts begin with the stale key. -/
theorem lateRun_begins :
    (runAttempts sampleSurroundings none (.new _ sampleDisk) greeting).Begins offer 0 "hub" "password"
      (List.replicate 32 3)
    ∧ (runAttempts sampleSurroundings none (.new _ sampleDisk)
      (greeting ++ offer :: .abandon [2] false :: greeting)).Begins offer 1 "hub" "password"
      (List.replicate 32 3) :=
  ⟨begins_of_read rfl isOffer_sample (by decide +kernel),
    begins_of_read rfl isOffer_sample (by decide +kernel)⟩

/-- What can be checked of a run step by step. -/
theorem of_all_steps {steps : List AttemptStep} {p : List AttemptStep → AttemptStep → Bool}
    (h : ((List.range steps.length).all fun n => steps[n]?.all (p (steps.take n))) = true)
    {before after : List AttemptStep} {step : AttemptStep} (hsteps : steps = before ++ step :: after) :
    p before step = true := by
  have hstep := List.all_eq_true.mp h before.length (List.mem_range.mpr (by simp [hsteps]))
  rw [show steps.take before.length = before by simp [hsteps],
    show steps[before.length]? = some step by simp [hsteps]] at hstep
  exact hstep

/-- A run is orderly if a frame is read only where no channel is in a handshake. -/
theorem orderly_of_all {d : Disk} {steps : List AttemptStep}
    (h : ((List.range steps.length).all fun n => steps[n]?.all fun step =>
      ((runAttempts S stateDir (.new S d) (steps.take n)).reading step).isNone
      || (runAttempts S stateDir (.new S d) (steps.take n)).live.all fun o =>
        o.channel.handshake.isNone) = true) :
    Orderly S stateDir (.new S d) steps := by
  unfold Orderly
  intro reach before next after o f hsteps hreading hoffered hnone other hother hwaits
  have hstep := of_all_steps (p := fun before step =>
    ((reach before).reading step).isNone || (reach before).live.all fun o =>
      o.channel.handshake.isNone) h hsteps
  rw [hreading, Option.isNone_some, Bool.false_or] at hstep
  have hgone := List.all_eq_true.mp hstep other hother
  have hsome : other.channel.handshake.isSome = true := hwaits.1
  rw [Option.isNone_iff_eq_none] at hgone
  rw [hgone] at hsome
  cases hsome

/-- What a step after the first offer reads is the HELLO of the second attempt, if it reads a frame. -/
def readsHello (earlier : List AttemptStep) (step : AttemptStep) : Bool :=
  ((runAttempts sampleSurroundings none (.new _ sampleDisk) (greeting ++ offer :: earlier)).reading
    step).all fun x => x.1.number == 1 && x.2.data == [0]

def onlyHello (between : List AttemptStep) : Bool :=
  (List.range between.length).all fun n => between[n]?.all (readsHello (between.take n))

theorem reading_of_onlyHello {between : List AttemptStep} (h : onlyHello between = true)
    {earlier later : List AttemptStep} {step : AttemptStep} (hsplit : between = earlier ++ step :: later)
    {o : Owned sampleSurroundings} {f : LinkFrame}
    (hreading : (runAttempts sampleSurroundings none (.new _ sampleDisk)
      (greeting ++ offer :: earlier)).reading step = some (o, f)) : o.number = 1 ∧ f.data = [0] := by
  have hstep := of_all_steps h hsplit
  rw [readsHello, hreading, Option.all_some] at hstep
  simpa using hstep

/-- Between the two offers no handshake begins, and no answer comes for the first one. -/
theorem quiet_of_onlyHello {between : List AttemptStep} (h : onlyHello between = true)
    {earlier later : List AttemptStep} {step : AttemptStep}
    (hsplit : between = earlier ++ step :: later) :
    let s := runAttempts sampleSurroundings none (.new _ sampleDisk) (greeting ++ offer :: earlier)
    ¬ s.Authenticates step 0 ∧ ∀ other, ¬ s.Starts step "hub" other := by
  refine ⟨?_, ?_⟩
  · rintro ⟨o, f, payload, hreading, hnumber, -⟩
    rw [(reading_of_onlyHello h hsplit hreading).1] at hnumber
    cases hnumber
  · rintro other ⟨o, f, hreading, ⟨-, -, -, hoffer⟩, -⟩
    rw [show f.data = [0] from (reading_of_onlyHello h hsplit hreading).2] at hoffer
    exact not_isOffer_hello hoffer

/-- The transport has the channel of the second attempt. -/
theorem givenUp_of_number {s : Attempts S} (h : s.slot.map Owned.number = some 1) : s.GivenUp 0 := by
  intro o hslot hnumber
  rw [hslot, Option.map_some, hnumber] at h
  cases h

/-- **A drop that is late costs another handshake under the stale key.** -/
theorem heals_fails_of_late_drop :
    Works sampleSurroundings.store none "state" ∧ (sampleDisk.psks "state").readable = true
    ∧ ¬ Heals sampleSurroundings none "state" (.new _ sampleDisk) lateRun := by
  refine ⟨⟨fun _ => rfl, rfl⟩, rfl, fun hheals => ?_⟩
  have hhello : onlyHello (.abandon [2] false :: greeting) = true := by decide +kernel
  have hderive := (hheals greeting offer (.abandon [2] false :: greeting) offer [] 0 1 "hub" "password"
    "password" _ _ (by simp [lateRun]) lateRun_begins.1
    (fun _ _ _ hsplit => (quiet_of_onlyHello hhello hsplit).1) (givenUp_of_number (by decide +kernel))
    lateRun_begins.2).1 fun _ _ _ hsplit other hstarts =>
      absurd hstarts ((quiet_of_onlyHello hhello hsplit).2 other)
  revert hderive
  decide

/-- The first attempt began with the stale key, which is gone where the second one begins. -/
theorem stale_psk_heals_of_cleared :
    (runAttempts sampleSurroundings none (.new _ sampleDisk) greeting).Begins offer 0 "hub" "password"
      (List.replicate 32 3)
    ∧ (runAttempts sampleSurroundings none (.new _ sampleDisk)
      (greeting ++ offer :: .clear :: .drop 0 :: greeting)).disk.cached "state" "hub" = none := by
  have hhello : onlyHello (.clear :: .drop 0 :: greeting) = true := by decide +kernel
  have hbegins : (runAttempts sampleSurroundings none (.new _ sampleDisk)
      (greeting ++ offer :: .clear :: .drop 0 :: greeting)).Begins offer 1 "hub" "password"
      (List.replicate 32 8) := begins_of_read rfl isOffer_sample (by decide +kernel)
  refine ⟨lateRun_begins.1, ?_⟩
  exact ((stale_psk_heals (d := sampleDisk) ⟨fun _ => rfl, rfl⟩ rfl healingRun).1
    (orderly_of_all (by decide +kernel)) greeting offer (.clear :: .drop 0 :: greeting) offer [] 0 1 "hub"
    "password" "password" _ _ (by simp [healingRun]) lateRun_begins.1
    (fun _ _ _ hsplit => (quiet_of_onlyHello hhello hsplit).1) (givenUp_of_number (by decide +kernel))
    hbegins).2 fun _ _ _ hsplit => (quiet_of_onlyHello hhello hsplit).2

end Thalovant.Transport
