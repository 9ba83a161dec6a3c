import Thalovant.Transport.WssVerdict

/-!
# The verdicts of a WebSocket transport over a run

The read task of a link writes the marks beside the gate, a connect forgets and reads them under it. What
carries the verdicts across the awaits of a connect is how far its attempt has come, which no read task
changes.
-/

namespace Thalovant.Transport.WssLink

open Async Control

variable {settings : Settings}

/-! ## Sections -/

/-- The verdicts are kept, and the attempt has come as far as `stage` says, by where the section began. -/
structure Kept (stage : Marked WssTransport → Stage) (s₀ s : Marked WssTransport) : Prop where
  attributed : Attributed (ledger s)
  stage : s.link.seen.stage = stage s₀

section Disciplines

variable (settings)

/-- A task under the gate: no task beside it opens a link. -/
abbrev Connecting : Discipline (Marked WssTransport) WssRequest WssResponse :=
  gated (wssOps settings) (fun s => Attributed (ledger s))
    fun s s' => s'.link.seen.stage = s.link.seen.stage

/-- A task beside the gate. -/
abbrev Reading : Discipline (Marked WssTransport) WssRequest WssResponse :=
  beside (wssOps settings) (fun s => Attributed (ledger s))
    fun s s' => s'.link.seen.stage = s.link.seen.stage

/-- The attempt has come so far. -/
abbrev At (stage : Stage) : Marked WssTransport → Marked WssTransport → Prop := Kept fun _ => stage

/-- A section that opens no link. -/
abbrev Still : Marked WssTransport → Marked WssTransport → Prop := Kept fun s₀ => s₀.link.seen.stage

theorem keeps_connecting (stage : Stage) : Keeps (Connecting settings) id (At stage) where
  waits h := ⟨h.attributed, trivial⟩
  resumes h hs' hrely := ⟨hs', hrely.trans h.stage⟩
  leaves h := ⟨h.attributed, trivial⟩

theorem keeps_reading (link : Nat) : Keeps (Reading settings) (endReader link) Still where
  waits h := ⟨h.attributed, h.stage⟩
  resumes _ hs' _ := ⟨hs', rfl⟩
  leaves h := ⟨h.attributed.endReader link, h.stage⟩

theorem keeps_beside : Keeps (Reading settings) id Still where
  waits h := ⟨h.attributed, h.stage⟩
  resumes _ hs' _ := ⟨hs', rfl⟩
  leaves h := ⟨h.attributed, h.stage⟩

end Disciplines

section Tasks

variable {α : Type} {D : Discipline (Marked WssTransport) WssRequest WssResponse}
  {exit : Marked WssTransport → Marked WssTransport} {stage : Marked WssTransport → Stage}
  {c : Cause WssRequest WssResponse} {s₀ s : Marked WssTransport} {link : Nat}
  {post : α → Cause WssRequest WssResponse → Marked WssTransport → Marked WssTransport → Prop}

theorem runs_modify {f : WssTransport → WssTransport} {g : Unit → WssTask α} :
    (modify f >>= g).Runs D exit post c s₀ s ↔ (g ()).Runs D exit post c s₀ (s.setLink f) :=
  runs_modify_bind

/-- What a task leaves when it returns. -/
abbrev Leaves (P : Marked WssTransport → Marked WssTransport → Prop) (_ : α)
    (_ : Cause WssRequest WssResponse) (s₀ s : Marked WssTransport) : Prop := P s₀ s

/-! ## What either may do -/

theorem runs_markDisconnected (hK : Keeps D exit (Kept stage)) (reader : Option Nat)
    (h : Kept stage s₀ s) : (markDisconnected reader).Runs D exit (Leaves (Kept stage)) c s₀ s := by
  unfold markDisconnected
  rw [runs_modify]
  refine hK.ask ⟨h.attributed, h.stage⟩ fun _ s' h' _ => ?_
  refine hK.ask h' fun _ s'' h'' _ => ?_
  exact ⟨h''.attributed, h''.stage⟩

theorem runs_markError (hK : Keeps D exit (Kept stage)) (err : ThalovantError) (reader : Option Nat)
    (h : Kept stage s₀ s) :
    (markError settings err reader).Runs D exit (Leaves (Kept stage)) c s₀ s := by
  unfold markError
  rw [runs_modify]
  refine hK.ask ⟨h.attributed, h.stage⟩ fun _ s' h' _ => ?_
  refine hK.ask h' fun _ s'' h'' _ => ?_
  exact ⟨h''.attributed, h''.stage⟩

/-- A refusal by close is reported of an attempt where the marks say so of that attempt. -/
theorem runs_refusalAfterHandshake (hK : Keeps D exit (Kept stage)) {attempt : Nat}
    (h : Kept stage s₀ s)
    (hrefused : s.marks.keyRejected = false → s.link.seen.strays = [] →
      s.link.seen.attempt = attempt → s.link.seen.RefusedOn attempt) :
    (refusalAfterHandshake settings attempt).Runs D exit (Leaves (Kept stage)) c s₀ s := by
  unfold refusalAfterHandshake
  rw [runs_get_bind]
  split
  · next hrejected =>
    rw [runs_modify]
    refine hK.ask ⟨h.attributed.report fun hstrays hlatest => ?_, h.stage⟩ fun _ s' h' _ => h'
    exact hlatest ▸ (h.attributed.own hstrays).keyRejected hrejected
  · next hnot =>
    rw [runs_modify]
    exact ⟨h.attributed.report (hrefused (by simpa using hnot)), h.stage⟩

/-! ## A read task -/

section Reader

/-- A read task that goes on runs. -/
theorem running_of_goesOn (h : s.link.goesOn link = true) : link ∈ s.link.running := by
  simp only [WssTransport.goesOn, Bool.and_eq_true] at h
  exact List.contains_iff_mem.mp h.1

theorem Still.noteFailure (h : Still s₀ s) (err : ThalovantError) (kkFailed : Bool) :
    Still s₀ (noteFailure err kkFailed s) := by
  refine ⟨h.attributed.noteFailure err kkFailed, ?_⟩
  unfold WssLink.noteFailure
  split
  · split <;> exact h.stage
  · exact h.stage

theorem Still.noteDone (h : Still s₀ s) (hlink : link ∈ s.link.running) (now : Nat) :
    Still s₀ (s.setLink (noteDone link now)) := by
  refine ⟨h.attributed.noteDone hlink now, ?_⟩
  unfold Marked.setLink WssLink.noteDone
  dsimp only
  split <;> exact h.stage

theorem Still.noteCompleted (h : Still s₀ s) (hlink : link ∈ s.link.running) (xx : Bool) :
    Still s₀ (noteCompleted link xx s) := by
  refine ⟨h.attributed.noteCompleted hlink xx, ?_⟩
  cases xx <;> exact h.stage

theorem runs_answerFrame (ready : Bool) (h : Still s₀ s) :
    (answerFrame link ready).Runs (Reading settings) (endReader link) (Leaves Still)
      c s₀ s := by
  have hK := keeps_reading settings link
  unfold answerFrame
  refine hK.await h (fun s' h' => ⟨h'.attributed, h'.stage⟩) fun a s' h' henabled => ?_
  have hlink := running_of_goesOn henabled
  cases a with
  | failed err =>
    dsimp only
    rw [runs_modify]
    exact ⟨h'.attributed, h'.stage⟩
  | written now =>
    dsimp only
    rw [runs_modify]
    split
    · rw [runs_modify]
      have hset : Still s' (s'.setLink fun s => { s with sessionValid := ready }) :=
        ⟨h'.attributed, h'.stage⟩
      refine hK.ask (hset.noteDone hlink now) fun _ s'' h'' _ => ?_
      rw [runs_modify]
      exact ⟨h''.attributed, h''.stage⟩
    · exact ⟨h'.attributed, h'.stage⟩

theorem runs_handleSocketMessage (h : Still s₀ s) :
    (handleSocketMessage link).Runs (Reading settings) (endReader link) (Leaves Still)
      c s₀ s := by
  have hK := keeps_reading settings link
  unfold handleSocketMessage
  refine hK.ask h fun _ s' h' _ => hK.ask h' fun _ s' h' _ => ?_
  refine hK.await h' (fun s' h' => ⟨h'.attributed, h'.stage⟩) fun received s' h' henabled => ?_
  have hlink := running_of_goesOn henabled
  cases received with
  | unconnected err => exact h'
  | session heard failure =>
    cases heard with
    | false =>
      cases failure with
      | none => exact runs_answerFrame true h'
      | some err => exact ⟨h'.attributed, h'.stage⟩
    | true =>
      have hheard : Still s' (noteHeard link s') := ⟨h'.attributed.noteHeard hlink, h'.stage⟩
      cases failure with
      | none => exact runs_answerFrame true hheard
      | some err => exact ⟨hheard.attributed, hheard.stage⟩
  | failed err kkFailed =>
    dsimp only
    rw [runs_modify_bind, runs_modify]
    have hfailed := h'.noteFailure err kkFailed
    exact ⟨hfailed.attributed, hfailed.stage⟩
  | handshake => exact runs_answerFrame false h'
  | completed xx =>
    dsimp only
    rw [runs_modify_bind]
    exact runs_answerFrame true (h'.noteCompleted hlink xx)

/-- The close frame is read in one section; the refusal that it is in the handshake is kept in the next. -/
theorem runs_readClose (status : Option Nat) (now : Nat) (h : Still s₀ s) (hlink : link ∈ s.link.running) :
    (readClose link status now).Runs (Reading settings) (endReader link) (Leaves Still)
      c s₀ s := by
  have hK := keeps_reading settings link
  have hrest : ∀ {c s₀ s} (detail : String), Still s₀ s → (do
      markDisconnected link
      quiet link
      modify fun s => { s with health := { s.health with lastError := some detail } } : WssTask Unit).Runs
        (Reading settings) (endReader link) (Leaves Still) c s₀ s := by
    intro c s₀ s detail h
    rw [runs_bind]
    refine (runs_markDisconnected hK _ h).mono fun _ c s₀ s h => ?_
    refine hK.ask h fun _ s' h' _ => ?_
    exact ⟨h'.attributed, h'.stage⟩
  have hmarked : Still s₀ (closeMarks link (status.getD 1005) now s) :=
    ⟨h.attributed.closeMarks hlink _ now, h.stage⟩
  unfold readClose
  rw [runs_modify_bind, runs_get_bind]
  dsimp only
  by_cases hrefused : ((closeMarks link (status.getD 1005) now s).link.closedRefused
      && (closeMarks link (status.getD 1005) now s).link.handshakeDone.isNone) = true
  · rw [if_pos hrefused]
    have hcode : status.getD 1005 ∈ REFUSAL_CLOSE_CODES :=
      (closeRefusesAfter_iff.mp (Bool.and_eq_true_iff.mp hrefused).1).2.1
    refine hK.ask hmarked fun kkPending s' h' henabled => ?_
    have hkept := h'.attributed.noteRefusalClose (running_of_goesOn henabled) hcode kkPending
    exact hrest _ ⟨hkept, h'.stage⟩
  · rw [if_neg hrefused]
    exact hrest _ hmarked

theorem runs_endLoop (h : Still s₀ s) :
    (endLoop link).Runs (Reading settings) (endReader link) (Leaves Still) c s₀ s := by
  have hK := keeps_reading settings link
  unfold endLoop
  refine hK.ask h fun _ s' h' _ => ?_
  rw [runs_get_bind]
  split
  · exact runs_markDisconnected hK _ h'
  · exact h'

/-- The loop, by induction on how many messages it is followed for. -/
theorem runs_readLoop (rounds : Nat) (h : Still s₀ s) :
    (readLoop settings link rounds).Runs (Reading settings) (endReader link)
      (Leaves Still) c s₀ s := by
  have hK := keeps_reading settings link
  have hfailed : ∀ {c s₀ s} (err : ThalovantError), Still s₀ s →
      (do markError settings err link; endLoop link : WssTask Unit).Runs
        (Reading settings) (endReader link) (Leaves Still) c s₀ s := by
    intro c s₀ s err h
    rw [runs_bind]
    exact (runs_markError hK err _ h).mono fun _ _ _ _ h => runs_endLoop h
  induction rounds generalizing c s₀ s with
  | zero => exact h
  | succ rounds ih =>
    unfold readLoop
    refine hK.ask h fun message s' h' henabled => ?_
    have hlink := running_of_goesOn henabled
    cases message with
    | frame =>
      dsimp only
      rw [runs_bind]
      refine (runs_handleSocketMessage h').mono fun handled c s₀ s h => ?_
      cases handled with
      | ok _ => exact ih h
      | error err => exact hfailed err h
    | close status now =>
      dsimp only
      rw [runs_bind]
      exact (runs_readClose status now h' hlink).mono fun _ _ _ _ h => runs_endLoop h
    | other => exact ih h'
    | failed message => exact hfailed _ h'
    | ended => exact runs_endLoop h'

theorem runs_reader (rounds : Nat) (h : Still s₀ s) :
    (reader settings link rounds).Runs (Reading settings) id (Leaves Still) c s₀ s := by
  unfold reader
  rw [runs_guarded]
  exact (runs_readLoop rounds h).mono fun _ _ _ _ h => ⟨h.attributed.endReader link, h.stage⟩

end Reader

/-! ## A connect -/

section Connect

theorem runs_disconnectInner {stage : Stage} (h : At stage s₀ s) :
    disconnectInner.Runs (Connecting settings) id (Leaves (At stage)) c s₀ s := by
  have hK := keeps_connecting settings stage
  have hrest : ∀ {c s₀ s}, At stage s₀ s → (do
      quiet
      quiet
      markDisconnected
      return .ok () : WssTask (Result Unit)).Runs (Connecting settings) id
        (Leaves (At stage)) c s₀ s := by
    intro c s₀ s h
    refine hK.ask h fun _ s' h' _ => hK.ask h' fun _ s' h' _ => ?_
    rw [runs_bind]
    exact runs_markDisconnected hK none h'
  unfold disconnectInner
  refine hK.ask h fun _ s' h' _ => ?_
  rw [runs_get_bind]
  split
  · exact hrest h'
  · rw [runs_modify]
    refine hK.ask ⟨h'.attributed, h'.stage⟩ fun _ s'' h'' _ => ?_
    exact hrest h''

theorem runs_typed {stage : Stage} (fallback : ThalovantError) (h : At stage s₀ s) :
    (typed fallback).Runs (Connecting settings) id (Leaves (At stage)) c s₀ s := by
  let taken := s.setMarks fun m => { m with verdict := none }
  have htaken : At stage s₀ taken := ⟨h.attributed, h.stage⟩
  have hsaid : ∀ message, (do
      if s.link.seen.verdictOf.isSome then modify (report s.link.seen.attempt .closedInHandshake)
      return .connection message : WssTask ThalovantError).Runs (Connecting settings) id
        (Leaves (At stage)) c s₀ taken := by
    intro message
    split
    · next hsome =>
      exact ⟨htaken.attributed.report fun hstrays _ => (h.attributed.own hstrays).verdict hsome, h.stage⟩
    · exact htaken
  unfold typed
  rw [runs_get_bind, runs_modify_bind]
  split
  · exact hsaid _
  · exact hsaid _
  · exact htaken

theorem runs_openLink (h : At .opening s₀ s) :
    openLink.Runs (Connecting settings) id (Leaves (At .opened)) c s₀ s := by
  have hopening := keeps_connecting settings .opening
  have hopened := keeps_connecting settings .opened
  unfold openLink
  refine hopening.ask h fun _ s' h' _ => hopening.ask h' fun _ s' h' _ => ?_
  rw [runs_modify, runs_modify]
  have hconnected : At .opening s' (s'.setLink fun s => { s with
      health := { s.health with connected := true, phase := .handshake } }) :=
    ⟨h'.attributed, h'.stage⟩
  refine hopened.ask ⟨hconnected.attributed.spawnReader hconnected.stage, rfl⟩ fun _ s'' h'' _ => ?_
  exact ⟨h''.attributed, h''.stage⟩

/-- An attempt whose link is open reports what its own marks say. -/
theorem runs_handshakeFailed (h : At .opened s₀ s) :
    (handshakeFailed settings).Runs (Connecting settings) id (Leaves (At .opened))
      c s₀ s := by
  have hK := keeps_connecting settings .opened
  have hmark : ∀ {c s₀ s} (err : ThalovantError), At .opened s₀ s →
      (do markError settings err; return .error err : WssTask (Result Unit)).Runs
        (Connecting settings) id (Leaves (At .opened)) c s₀ s := by
    intro c s₀ s err h
    rw [runs_bind]
    exact runs_markError hK err none h
  unfold handshakeFailed
  refine hK.ask h fun _ s' h' _ => ?_
  rw [runs_get_bind, runs_bind]
  refine (runs_disconnectInner h').mono fun _ c s₀ s h => ?_
  rw [runs_get_bind]
  dsimp only
  split
  · next hrejected =>
    rw [runs_bind]
    refine (runs_refusalAfterHandshake hK h fun hnot => ?_).mono fun err _ _ _ h => hmark err h
    exact nomatch hrejected.symm.trans hnot
  · rw [runs_bind]
    exact (runs_typed _ h).mono fun err _ _ _ h => hmark err h

/-- What a connect does once it no longer waits for the handshake. -/
theorem runs_afterHandshake (h : At .opened s₀ s) : (do
      quiet
      if !isHandshakeComplete (← Async.get).link then handshakeFailed settings
      else
        quiet
        modify markReady
        return .ok () : WssTask (Result Unit)).Runs (Connecting settings) id
      (fun _ _ _ s => Attributed (ledger s)) c s₀ s := by
  have hK := keeps_connecting settings .opened
  refine hK.ask h fun _ s' h' _ => ?_
  rw [runs_get_bind]
  split
  · exact (runs_handshakeFailed h').mono fun _ _ _ _ h => h.attributed
  · refine hK.ask h' fun _ s'' h'' _ => ?_
    exact h''.attributed.markReady h''.stage

/-- An attempt, from its beginning to its end. -/
theorem runs_connectAttempt (h : Attributed (ledger s)) :
    (connectAttempt (connectLocked settings)).Runs (Connecting settings) id
      (fun _ _ _ s => Attributed (ledger s)) c s₀ s := by
  have hopening := keeps_connecting settings .opening
  have hopened := keeps_connecting settings .opened
  unfold connectAttempt
  rw [runs_modify_bind, runs_modify_bind]
  unfold connectLocked
  rw [runs_modify, runs_bind]
  have hbegun : At .stopping s₀ (((s.setMarks fun m => { m with verdict := none }).setMarks
      LinkMarks.resetLink).setLink beginLink) := ⟨h.beginLink, rfl⟩
  refine (runs_disconnectInner hbegun).mono fun _ c s₀ s h => ?_
  rw [runs_modify]
  refine hopening.ask ⟨h.attributed.forgetLink h.stage, rfl⟩ fun _ s' h' _ => ?_
  refine hopening.ask h' fun _ s' h' _ => hopening.ask h' fun _ s' h' _ => ?_
  rw [runs_modify]
  refine hopening.ask ⟨h'.attributed, h'.stage⟩ fun _ s' h' _ => ?_
  rw [runs_modify]
  have h' : At .opening s' (s'.setLink fun s => { s with
      health := { s.health with phase := .connecting } }) := ⟨h'.attributed, h'.stage⟩
  have hmark : ∀ {stage c s₀ s} (err : ThalovantError), At stage s₀ s →
      (do markError settings err; return .error err : WssTask (Result Unit)).Runs
        (Connecting settings) id (fun _ _ _ s => Attributed (ledger s)) c s₀ s := by
    intro stage c s₀ s err h
    rw [runs_bind]
    exact (runs_markError (keeps_connecting settings stage) err none h).mono fun _ _ _ _ h => h.attributed
  split
  · exact hmark _ h'
  · refine hopening.ask h' fun opening s'' h'' _ => ?_
    cases opening with
    | status code display =>
      dsimp only
      split
      · rw [runs_modify]
        have hturned : At .turnedAway s'' (s''.setLink turnAway) := ⟨h''.attributed.turnAway h''.stage, rfl⟩
        exact hmark _ hturned
      · exact hmark _ h''
    | failed message => exact hmark _ h''
    | opened =>
      dsimp only
      rw [runs_bind]
      refine (runs_openLink h'').mono fun _ c s₀ s h => ?_
      refine hopened.ask h fun _ s' h' _ => ?_
      rw [runs_get_bind]
      split
      · exact hopened.ask h' fun _ s' h' _ => runs_afterHandshake h'
      · exact runs_afterHandshake h'

end Connect

/-! ## The settle -/

/-- The settle of an attempt that succeeded. -/
theorem runs_settled {attempt : Nat} (h : Still s₀ s) (hmade : attempt ∈ s.link.seen.made) :
    (settled settings attempt).Runs (Reading settings) id (Leaves Still) c s₀ s := by
  unfold settled
  rw [runs_get_bind]
  split
  · next hrefused =>
    rw [runs_bind]
    refine (runs_refusalAfterHandshake (keeps_beside settings) h fun _ hstrays hlatest => ?_).mono
      fun _ _ _ _ h => h
    rcases h.attributed.made attempt hmade with hlt | ⟨-, hopened⟩
    · exact absurd hlatest.symm (Nat.ne_of_lt hlt)
    · exact hlatest ▸ (h.attributed.own hstrays).refused hopened hrefused
  · exact h

end Tasks

/-! ## The transport -/

variable (settings) in
/-- What a WebSocket transport keeps. -/
def verdicts : Contract (wssOps settings) where
  invariant s := Attributed (ledger s)
  around s s' := s'.link.seen.stage = s.link.seen.stage
  closed _ := True
  around_refl _ := rfl
  around_trans h h' := h'.trans h
  world _ _ h := ⟨⟨h.toWithin, h.closes, h.verdicts, h.reports, h.own⟩, rfl⟩
  invalidate _ h := ⟨⟨h.toWithin, h.closes, h.verdicts, h.reports, h.own⟩, rfl⟩
  connect _ _ _ _ h := runs_attempts (fun _ _ _ h => h) (fun _ _ _ h => runs_connectAttempt h) h
  disconnect _ s₀ s h := by
    have hkept : At s.link.seen.stage s₀ s := ⟨h, rfl⟩
    exact (runs_disconnectInner hkept).mono fun _ _ _ _ h => ⟨h.attributed, fun _ => trivial⟩
  own w s s' hstart h := by
    cases w with
    | reader link rounds =>
      simp only [wssOps, start] at hstart
      split at hstart
      · cases hstart
        have hbegun : Still s (s.setLink fun s => { s with spawned := s.spawned.erase link }) :=
          ⟨⟨h.toWithin, h.closes, h.verdicts, h.reports, h.own⟩, rfl⟩
        exact (runs_reader rounds hbegun).mono fun _ _ _ _ h => ⟨h.attributed, h.stage⟩
      · cases hstart
    | settle attempt =>
      simp only [wssOps, start] at hstart
      split at hstart
      · next hmade =>
        cases hstart
        exact (runs_settled ⟨h, rfl⟩ hmade).mono fun _ _ _ _ h => ⟨h.attributed, h.stage⟩
      · cases hstart

theorem attributed_new : Attributed (ledger WssTransport.new) where
  running _ h := nomatch h
  heardOn _ h := nomatch h
  completedOn _ h := nomatch h
  doneOn _ _ h := nomatch h
  made _ h := nomatch h
  closes _ h := nomatch h
  verdicts _ h := nomatch h
  reports _ h := nomatch h
  own _ := {
    running := nofun
    heard := nofun
    completedXx := nofun
    keyRejected := nofun
    verdict := nofun
    opening := nofun
    done := nofun
    refused := nofun }

/-- What has been seen of the links once a transport has taken the steps. -/
def seenAfter (settings : Settings) (events : List WssStep) : Seen :=
  ((Pool.new (ConnectionControl.new WssTransport.new)).run (control (wssOps settings))
    events).state.transport.link.seen

/-- **Verdicts.** Wherever a run has come to: what was reported of an attempt, while it was the last to
begin and where no read task ran as it began, was read on its own link; and where no read task ran as an
attempt began, each close frame that was read during it, and each verdict that was kept, was of the
attempt's own link. -/
theorem wss_verdict_law (settings : Settings) (events : List WssStep) :
    let seen := seenAfter settings events
    (∀ report ∈ seen.reports, report.strays = [] → report.latest = report.attempt → seen.Right report)
    ∧ (∀ close ∈ seen.closes, close.strays = [] → close.link = close.attempt)
    ∧ ∀ kept ∈ seen.verdicts, kept.strays = [] → kept.link = kept.attempt := by
  have hsane : Sane (verdicts settings) _ :=
    ((sound_new (K := verdicts settings) attributed_new).run (cooperation_holds _) events).invariant
  exact ⟨hsane.transport.reports, hsane.transport.closes, hsane.transport.verdicts⟩

/-! ## Whose link ends with a close frame -/

/-- An identity with an endpoint. -/
def plain : Settings := ⟨.ok (), none, none, fun _ => ""⟩

/-- Every lock is had in time, and the transport's own requests are answered so. -/
def answering (message : Message) (received : Received) :
    (q : Control.Request WssRequest) → Control.Answer WssResponse q
  | .gate | .health => true
  | .lock => ()
  | .own _ r => .ok (match r with
    | .quiet _ | .joined _ | .notified => ()
    | .opened => .opened
    | .next _ => message
    | .received _ => received
    | .written _ => .written 0
    | .kkPending _ => false)

/-- The deadline passes. -/
def late : (q : Control.Request WssRequest) → Control.Answer WssResponse q
  | .gate | .health => true
  | .lock => ()
  | .own _ _ => .error .late

/-- Whatever the task waits for is done. -/
def goOn (i : Nat) : WssStep := .answer i (answering .ended .handshake)

/-- The handshake of the link ends by XX, and a close frame is read. -/
def closeAfterXx (i : Nat) : List WssStep :=
  List.replicate 6 (.answer i (answering .frame (.completed true)))
    ++ [.answer i (answering (.close (some 1008) 0) .handshake)]

/-- A connect whose link is closed right after the handshake. -/
def ownVerdict : List WssStep :=
  .start 0 (.connect 1) :: List.replicate 15 (goOn 0) ++ [.start 1 (.own (.reader 1 2))]
    ++ closeAfterXx 1 ++ List.replicate 4 (goOn 1) ++ List.replicate 9 (goOn 0)

/-- The key is reported as rejected of the attempt on whose link that was read. -/
theorem wss_verdict_law_own :
    let seen := seenAfter plain ownVerdict
    seen.reports.map (fun report => (report.attempt, report.said)) = [(1, .keyRejected)]
    ∧ ∀ report ∈ seen.reports, seen.Right report := by
  have hfirst : (seenAfter plain ownVerdict).reports.all
      (fun report => report.strays.isEmpty && report.latest == report.attempt) = true := by
    decide +kernel
  refine ⟨by decide +kernel, fun report hmem => ?_⟩
  have hreport := List.all_eq_true.mp hfirst report hmem
  simp only [Bool.and_eq_true, List.isEmpty_iff, beq_iff_eq] at hreport
  exact (wss_verdict_law plain ownVerdict).1 report hmem hreport.1 hreport.2

/-- The first connect is cut short as it waits for the handshake. The second has forgotten the marks when
the read task of the first link completes its handshake by XX and reads a close frame; its own link ends
without one. -/
def staleVerdict : List WssStep :=
  .start 0 (.connect 1) :: List.replicate 15 (goOn 0) ++ [.answer 0 late]
    ++ [.start 1 (.own (.reader 1 2)), .start 2 (.connect 1), goOn 2]
    ++ closeAfterXx 1 ++ [.drop 1]
    ++ List.replicate 14 (goOn 2) ++ [.start 3 (.own (.reader 2 1)), .drop 3]
    ++ List.replicate 11 (goOn 2)

/-- A verdict of the link before is reported of an attempt whose own link has said nothing. -/
theorem wss_verdict_law_fails : ¬ ∀ (settings : Settings) (events : List WssStep),
    let seen := seenAfter settings events
    (∀ report ∈ seen.reports, seen.Right report)
    ∧ ∀ kept ∈ seen.verdicts, kept.link = kept.attempt := by
  intro h
  have hright := (h plain staleVerdict).1
  have hreports : (2, Said.keyRejected) ∈ (seenAfter plain staleVerdict).reports.map
      fun report => (report.attempt, report.said) := by
    decide +kernel
  have hcloses : (seenAfter plain staleVerdict).closes.map CloseRead.link = [1] := by decide +kernel
  obtain ⟨report, hmem, heq⟩ := List.mem_map.mp hreports
  obtain ⟨hattempt, hsaid⟩ := Prod.mk.inj heq
  have hown := hright report hmem
  simp only [Seen.Right, hsaid, hattempt] at hown
  obtain ⟨close, hclose, hlink, -⟩ := hown
  have hread := List.mem_map_of_mem (f := CloseRead.link) hclose
  rw [hcloses, hlink] at hread
  simp at hread

end Thalovant.Transport.WssLink
