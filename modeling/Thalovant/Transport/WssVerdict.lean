import Thalovant.Transport.ControlSteps
import Thalovant.Transport.WssLink

/-!
# Whose verdict it is

An attempt forgets the marks before it stops the read task before it. Where no read task runs as the
attempt begins, only its own can write the marks from then on, and what is reported of the attempt was
read on its own link.
-/

namespace Thalovant.Transport.WssLink

open Async Control

/-! ## What a report says -/

/-- The close came before a frame of the hub was decrypted, in time, with a code that refuses. -/
structure CloseRead.Refuses (close : CloseRead) : Prop where
  heard : close.heard = false
  code : close.code ∈ REFUSAL_CLOSE_CODES
  after : ∀ after, close.after = some after → after ≤ REFUSAL_SETTLE

/-- The close came right after a handshake by XX. -/
structure CloseRead.RejectsKey (close : CloseRead) : Prop extends close.Refuses where
  completedXx : close.completedXx = true
  done : close.after.isSome = true

def Seen.KeyRejectedOn (seen : Seen) (link : Nat) : Prop :=
  ∃ close ∈ seen.closes, close.link = link ∧ close.RejectsKey

def Seen.RefusedOn (seen : Seen) (link : Nat) : Prop :=
  ∃ close ∈ seen.closes, close.link = link ∧ close.Refuses

def Seen.RefusedInHandshakeOn (seen : Seen) (link : Nat) : Prop :=
  ∃ kept ∈ seen.verdicts, kept.link = link ∧ kept.code ∈ REFUSAL_CLOSE_CODES

/-- What is reported of an attempt was read on its own link. -/
def Seen.Right (seen : Seen) (report : Report) : Prop :=
  match report.said with
  | .keyRejected => seen.KeyRejectedOn report.attempt
  | .closedRightAfter => seen.RefusedOn report.attempt
  | .closedInHandshake => seen.RefusedInHandshakeOn report.attempt

/-- More has been read. -/
structure Seen.Grows (seen seen' : Seen) : Prop where
  closes : ∀ close ∈ seen.closes, close ∈ seen'.closes
  verdicts : ∀ kept ∈ seen.verdicts, kept ∈ seen'.verdicts

variable {seen seen' : Seen}

theorem Seen.Grows.keyRejectedOn (h : seen.Grows seen') {link : Nat}
    (hread : seen.KeyRejectedOn link) : seen'.KeyRejectedOn link := by
  obtain ⟨close, hmem, hclose⟩ := hread
  exact ⟨close, h.closes close hmem, hclose⟩

theorem Seen.Grows.refusedOn (h : seen.Grows seen') {link : Nat}
    (hread : seen.RefusedOn link) : seen'.RefusedOn link := by
  obtain ⟨close, hmem, hclose⟩ := hread
  exact ⟨close, h.closes close hmem, hclose⟩

theorem Seen.Grows.refusedInHandshakeOn (h : seen.Grows seen') {link : Nat}
    (hread : seen.RefusedInHandshakeOn link) : seen'.RefusedInHandshakeOn link := by
  obtain ⟨kept, hmem, hkept⟩ := hread
  exact ⟨kept, h.verdicts kept hmem, hkept⟩

theorem Seen.Grows.right (h : seen.Grows seen') {report : Report} (hright : seen.Right report) :
    seen'.Right report := by
  unfold Seen.Right at hright ⊢
  split at hright
  · exact h.keyRejectedOn hright
  · exact h.refusedOn hright
  · exact h.refusedInHandshakeOn hright

/-! ## The marks -/

/-- What the marks are, and what has been seen. -/
structure Ledger where
  heard : Bool
  completedXx : Bool
  keyRejected : Bool
  closedRefused : Bool
  handshakeDone : Option Nat
  running : List Nat
  seen : Seen

def ledger (s : Marked WssTransport) : Ledger where
  heard := s.marks.heard
  completedXx := s.marks.completedXx
  keyRejected := s.marks.keyRejected
  closedRefused := s.link.closedRefused
  handshakeDone := s.link.handshakeDone
  running := s.link.running
  seen := s.link.seen

/-- The link has been opened. -/
def Seen.Opened (seen : Seen) (link : Nat) : Prop :=
  link < seen.attempt ∨ link = seen.attempt ∧ seen.stage = .opened

/-- The marks are what the attempt's own link has said. -/
structure Own (l : Ledger) : Prop where
  running : ∀ link ∈ l.running, link = l.seen.attempt
  heard : l.seen.attempt ∈ l.seen.heardOn → l.heard = true
  completedXx : l.completedXx = true → l.seen.attempt ∈ l.seen.completedOn
  keyRejected : l.keyRejected = true → l.seen.KeyRejectedOn l.seen.attempt
  verdict : l.seen.verdictOf.isSome = true → l.seen.RefusedInHandshakeOn l.seen.attempt
  opening : l.seen.stage = .opening → l.handshakeDone = none ∧ l.closedRefused = false
  done : l.seen.stage = .opened → l.handshakeDone = l.seen.doneOn.lookup l.seen.attempt
  refused : l.seen.stage = .opened → l.closedRefused = true → l.seen.RefusedOn l.seen.attempt

/-- The links of which anything is kept. -/
structure Within (opened : Nat → Prop) (l : Ledger) : Prop where
  running : ∀ link ∈ l.running, opened link
  heardOn : ∀ link ∈ l.seen.heardOn, opened link
  completedOn : ∀ link ∈ l.seen.completedOn, opened link
  doneOn : ∀ link now, (link, now) ∈ l.seen.doneOn → opened link
  made : ∀ attempt ∈ l.seen.made, opened attempt

theorem Within.mono {p q : Nat → Prop} {l : Ledger} (h : Within p l)
    (hpq : ∀ link, p link → q link) : Within q l where
  running link hlink := hpq link (h.running link hlink)
  heardOn link hlink := hpq link (h.heardOn link hlink)
  completedOn link hlink := hpq link (h.completedOn link hlink)
  doneOn link now hlink := hpq link (h.doneOn link now hlink)
  made attempt hattempt := hpq attempt (h.made attempt hattempt)

/-- **The invariant**: where no read task ran as the attempt began, the marks are its own, and what has
been reported was right. -/
structure Attributed (l : Ledger) : Prop extends Within l.seen.Opened l where
  closes : ∀ close ∈ l.seen.closes, close.strays = [] → close.link = close.attempt
  verdicts : ∀ kept ∈ l.seen.verdicts, kept.strays = [] → kept.link = kept.attempt
  reports : ∀ report ∈ l.seen.reports, report.strays = [] → report.latest = report.attempt →
    l.seen.Right report
  own : l.seen.strays = [] → Own l

section Marks

variable {s : Marked WssTransport} {link : Nat}

/-- The read task of a link that runs is the attempt's own. -/
theorem Attributed.opened (h : Attributed (ledger s)) (hstrays : s.link.seen.strays = [])
    (hlink : link ∈ s.link.running) : link = s.link.seen.attempt ∧ s.link.seen.stage = .opened := by
  have hown : link = s.link.seen.attempt := (h.own hstrays).running link hlink
  rcases h.running link hlink with hlt | ⟨-, hopened⟩
  · exact absurd hown (Nat.ne_of_lt hlt)
  · exact ⟨hown, hopened⟩

/-! ### What a read task writes -/

theorem Attributed.noteHeard (h : Attributed (ledger s)) (hlink : link ∈ s.link.running) :
    Attributed (ledger (noteHeard link s)) :=
  { h with
    heardOn := List.forall_mem_cons.mpr ⟨h.running link hlink, h.heardOn⟩
    own := fun hstrays => { h.own hstrays with heard := fun _ => rfl } }

theorem Attributed.noteFailure (h : Attributed (ledger s)) (err : ThalovantError) (kkFailed : Bool) :
    Attributed (ledger (noteFailure err kkFailed s)) := by
  unfold WssLink.noteFailure
  split
  · split
    · exact { h with
        own := fun hstrays => { h.own hstrays with verdict := fun hnone => nomatch hnone } }
    · exact h
  · exact h

theorem Attributed.noteCompleted (h : Attributed (ledger s)) (hlink : link ∈ s.link.running)
    (xx : Bool) : Attributed (ledger (noteCompleted link xx s)) := by
  cases xx with
  | false =>
    exact { h with own := fun hstrays => { h.own hstrays with completedXx := fun hxx => nomatch hxx } }
  | true =>
    exact { h with
      completedOn := List.forall_mem_cons.mpr ⟨h.running link hlink, h.completedOn⟩
      own := fun hstrays => { h.own hstrays with
        completedXx := fun _ => List.mem_cons.mpr (.inl (h.opened hstrays hlink).1.symm) } }

theorem Attributed.noteDone (h : Attributed (ledger s)) (hlink : link ∈ s.link.running) (now : Nat) :
    Attributed (ledger (s.setLink (noteDone link now))) := by
  unfold Marked.setLink WssLink.noteDone
  dsimp only
  split
  · exact h
  · exact { h with
      doneOn := fun n _ hmem => by
        rcases List.mem_cons.mp hmem with heq | hmem
        · cases heq
          exact h.running link hlink
        · exact h.doneOn n _ hmem
      own := fun hstrays =>
        have ⟨hown, hopened⟩ := h.opened hstrays hlink
        { h.own hstrays with
          opening := fun hopening => nomatch hopened.symm.trans hopening
          done := fun _ => by simp [ledger, hown] } }

/-- A close that refuses came before a frame of the hub, in time, with a code that refuses. -/
theorem closeRefusesAfter_iff {code : Nat} {after : Option Nat} {heard : Bool} :
    closeRefusesAfter (some code) after 0 heard = true
    ↔ heard = false ∧ code ∈ REFUSAL_CLOSE_CODES ∧ ∀ a, after = some a → a ≤ REFUSAL_SETTLE := by
  cases after <;> simp [closeRefusesAfter, and_assoc]

/-- A close frame says of the attempt's own link what it says. -/
theorem Attributed.closeMarks (h : Attributed (ledger s)) (hlink : link ∈ s.link.running)
    (code now : Nat) : Attributed (ledger (closeMarks link code now s)) := by
  have hgrows : s.link.seen.Grows (WssLink.closeMarks link code now s).link.seen :=
    ⟨fun _ hmem => List.mem_cons_of_mem _ hmem, fun _ hmem => hmem⟩
  refine { h with
    closes := List.forall_mem_cons.mpr ⟨fun hstrays => (h.opened hstrays hlink).1, h.closes⟩
    reports := fun report hmem hnone hlatest => hgrows.right (h.reports report hmem hnone hlatest)
    own := fun hstrays => ?_ }
  have hown := h.own hstrays
  obtain ⟨rfl, hopened⟩ := h.opened hstrays hlink
  have hdone : s.link.handshakeDone = s.link.seen.doneOn.lookup s.link.seen.attempt := hown.done hopened
  let read : CloseRead :=
    { attempt := s.link.seen.attempt
      link := s.link.seen.attempt
      code := code
      after := (s.link.seen.doneOn.lookup s.link.seen.attempt).map (now - ·)
      heard := s.link.seen.heardOn.contains s.link.seen.attempt
      completedXx := s.link.seen.completedOn.contains s.link.seen.attempt
      strays := s.link.seen.strays }
  have hafterRead : read.after = s.link.handshakeDone.map (now - ·) := by rw [hdone]
  have hread : closeRefusesAfter (some code) (s.link.handshakeDone.map (now - ·)) 0 s.marks.heard = true →
      read.Refuses := by
    intro hrefused
    obtain ⟨hheard, hcode, hafter⟩ := closeRefusesAfter_iff.mp hrefused
    refine ⟨?_, hcode, hafterRead ▸ hafter⟩
    by_contra hnot
    have hmem : s.link.seen.attempt ∈ s.link.seen.heardOn := by simpa [read] using hnot
    exact nomatch hheard.symm.trans (hown.heard hmem)
  exact { hown with
    keyRejected := fun hrejected => by
      have hrejected := Bool.and_eq_true_iff.mp hrejected
      have hrefused := Bool.and_eq_true_iff.mp hrejected.1
      refine ⟨read, List.mem_cons_self, rfl, hread hrefused.1, ?_, ?_⟩
      · exact List.contains_iff_mem.mpr (hown.completedXx hrejected.2)
      · exact hafterRead ▸ hrefused.2
    verdict := fun hsome => hgrows.refusedInHandshakeOn (hown.verdict hsome)
    opening := fun hopening => nomatch hopened.symm.trans hopening
    refused := fun _ hrefused => ⟨read, List.mem_cons_self, rfl, hread hrefused⟩ }

/-- A refusal in the handshake of the attempt's own link. -/
theorem Attributed.noteRefusalClose (h : Attributed (ledger s)) (hlink : link ∈ s.link.running)
    {code : Nat} (hcode : code ∈ REFUSAL_CLOSE_CODES) (kkPending : Bool) :
    Attributed (ledger (noteRefusalClose link code kkPending s)) := by
  have hgrows : s.link.seen.Grows (WssLink.noteRefusalClose link code kkPending s).link.seen :=
    ⟨fun _ hmem => hmem, fun _ hmem => List.mem_cons_of_mem _ hmem⟩
  refine { h with
    verdicts := List.forall_mem_cons.mpr ⟨fun hstrays => (h.opened hstrays hlink).1, h.verdicts⟩
    reports := fun report hmem hnone hlatest => hgrows.right (h.reports report hmem hnone hlatest)
    own := fun hstrays => { h.own hstrays with
      verdict := fun _ => ⟨_, List.mem_cons_self, (h.opened hstrays hlink).1, hcode⟩ } }

theorem Attributed.endReader (h : Attributed (ledger s)) (link : Nat) :
    Attributed (ledger (endReader link s)) :=
  { h with
    running := fun n hn => h.running n (List.mem_filter.mp hn).1
    own := fun hstrays => { h.own hstrays with
      running := fun n hn => (h.own hstrays).running n (List.mem_filter.mp hn).1 } }

/-! ### What a connect writes -/

/-- An attempt begins. -/
theorem Attributed.beginLink (h : Attributed (ledger s)) :
    Attributed (ledger (((s.setMarks fun m => { m with verdict := none }).setMarks
      LinkMarks.resetLink).setLink beginLink)) := by
  have hbefore : ∀ n, s.link.seen.Opened n → n < s.link.seen.attempt + 1 := fun n hn =>
    hn.elim Nat.lt_succ_of_lt fun h => h.1 ▸ Nat.lt_succ_self _
  refine { h.toWithin.mono fun n hn => .inl (hbefore n hn) with
    closes := h.closes
    verdicts := h.verdicts
    reports := h.reports
    own := fun hstrays => {
      running := ?_
      heard := fun hn => absurd (hbefore _ (h.heardOn _ hn)) (Nat.lt_irrefl _)
      completedXx := nofun
      keyRejected := nofun
      verdict := nofun
      opening := nofun
      done := nofun
      refused := nofun } }
  have hnone : s.link.running = [] := hstrays
  exact fun n hn => nomatch hnone ▸ show n ∈ s.link.running from hn

/-- No link of the attempt's own has been opened. -/
theorem Attributed.lookup_done (h : Attributed (ledger s)) (hstage : s.link.seen.stage ≠ .opened) :
    s.link.seen.doneOn.lookup s.link.seen.attempt = none := by
  refine List.lookup_eq_none_iff.mpr fun x hx => ?_
  rcases h.doneOn x.1 x.2 hx with hlt | ⟨-, hopened⟩
  · have hne : s.link.seen.attempt ≠ x.1 := Nat.ne_of_gt hlt
    simpa using hne
  · exact absurd hopened hstage

theorem Seen.Opened.lt {n : Nat} (h : seen.Opened n) (hstage : seen.stage ≠ .opened) :
    n < seen.attempt := h.elim id fun h => absurd h.2 hstage

theorem Attributed.forgetLink (h : Attributed (ledger s)) (hstage : s.link.seen.stage = .stopping) :
    Attributed (ledger (s.setLink forgetLink)) := by
  have hstage : s.link.seen.stage ≠ .opened := by simp [hstage]
  exact { h.toWithin.mono fun n hn => .inl (hn.lt hstage) with
    closes := h.closes
    verdicts := h.verdicts
    reports := h.reports
    own := fun hstrays => { h.own hstrays with
      opening := fun _ => ⟨rfl, rfl⟩
      done := nofun
      refused := nofun } }

theorem Attributed.turnAway (h : Attributed (ledger s)) (hstage : s.link.seen.stage = .opening) :
    Attributed (ledger (s.setLink turnAway)) := by
  have hstage : s.link.seen.stage ≠ .opened := by simp [hstage]
  exact { h.toWithin.mono fun n hn => .inl (hn.lt hstage) with
    closes := h.closes
    verdicts := h.verdicts
    reports := h.reports
    own := fun hstrays => { h.own hstrays with
      opening := nofun
      done := nofun
      refused := nofun } }

theorem Attributed.spawnReader (h : Attributed (ledger s)) (hstage : s.link.seen.stage = .opening) :
    Attributed (ledger (s.setLink spawnReader)) := by
  have hclosed : s.link.seen.stage ≠ .opened := by simp [hstage]
  exact { h.toWithin.mono fun n hn => .inl (hn.lt hclosed) with
    running := List.forall_mem_cons.mpr
      ⟨.inr ⟨rfl, rfl⟩, fun n hn => .inl ((h.running n hn).lt hclosed)⟩
    closes := h.closes
    verdicts := h.verdicts
    reports := h.reports
    own := fun hstrays => { h.own hstrays with
      running := List.forall_mem_cons.mpr ⟨rfl, (h.own hstrays).running⟩
      opening := nofun
      done := fun _ => ((h.own hstrays).opening hstage).1.trans (h.lookup_done hclosed).symm
      refused := fun _ hrefused => nomatch ((h.own hstrays).opening hstage).2.symm.trans hrefused } }

theorem Attributed.markReady (h : Attributed (ledger s)) (hstage : s.link.seen.stage = .opened) :
    Attributed (ledger (s.setLink markReady)) :=
  { h with
    made := List.forall_mem_cons.mpr ⟨.inr ⟨rfl, hstage⟩, h.made⟩
    own := fun hstrays => { h.own hstrays with } }

/-- What is reported is right. -/
theorem Attributed.report (h : Attributed (ledger s)) {attempt : Nat} {said : Said}
    (hright : s.link.seen.strays = [] → s.link.seen.attempt = attempt →
      s.link.seen.Right ⟨attempt, said, s.link.seen.attempt, s.link.seen.strays⟩) :
    Attributed (ledger (s.setLink (report attempt said))) :=
  { h with
    reports := List.forall_mem_cons.mpr ⟨hright, h.reports⟩
    own := fun hstrays => { h.own hstrays with } }

end Marks

end Thalovant.Transport.WssLink
