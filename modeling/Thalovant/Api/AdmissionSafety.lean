import Mathlib.Logic.Relation
import Thalovant.Api.Admission

/-!
# What a wait for admission comes to

* `waitForAdmission_law_iff`: the wait follows its answers and reads by its deadline, exactly where no
  sleep is cut off at the deadline

A sleep that is cut off there is followed by one more read, which starts when the time is over.
-/

namespace Thalovant.Api

/-! ## What should come of answers -/

/-- The status of an operation. -/
def operationStatus (current : Value) : Option String :=
  (member "status" current).bind Json.Value.asStr

/-- An answer that settles the wait, and its outcome. -/
inductive Settles (operationId : String) : Result Value → Except AdmissionError Unit → Prop
  | ready {current : Value} : operationStatus current = some "ready" →
      Settles operationId (.ok current) (.ok ())
  | ended {current : Value} {status : String} : status = "failed" ∨ status = "timed_out" →
      operationStatus current = some status →
      Settles operationId (.ok current) (.error (operationFailed operationId status current))
  | gone {err : ThalovantError} : err.statusCode = some 404 →
      Settles operationId (.error err) (.ok ())
  | auth {err : ThalovantError} : err.statusCode = some 401 ∨ err.statusCode = some 403 →
      Settles operationId (.error err) (.error (.other err))
  | refused {err : ThalovantError} {status : Nat} : err.statusCode = some status → status < 500 →
      status ∉ [401, 403, 404, 429] → Settles operationId (.error err) (.error (waitRefused status err))
  | unanswered {err : ThalovantError} : err.statusCode = none →
      Settles operationId (.error err) (.error (.other err))

/-- An answer that is ridden out: the operation is under way, or the API failed. -/
inductive RiddenOut : Result Value → Prop
  | underWay {current : Value} :
      operationStatus current ∉ [some "ready", some "failed", some "timed_out"] →
      RiddenOut (.ok current)
  | serverError {err : ThalovantError} {status : Nat} : err.statusCode = some status →
      500 ≤ status → RiddenOut (.error err)

/-- The API limits the rate of requests. -/
inductive RateLimited : Result Value → Prop
  | mk {err : ThalovantError} : err.statusCode = some 429 → RateLimited (.error err)

/-- The wait that is to follow an answer: the time between reads, or the longer one that a limit of the
rate asks for. -/
inductive Follows (pollInterval : Duration) : ReadAnswer → Duration → Prop
  | riddenOut {answer : ReadAnswer} : RiddenOut answer.1 → Follows pollInterval answer pollInterval
  | rateLimited {answer : ReadAnswer} : RateLimited answer.1 →
      Follows pollInterval answer (longer pollInterval (answer.2.getD .ZERO))

section

variable (operationId : String) (pollInterval : Duration)

/-- What an answer is, beside its verdict. -/
inductive Judged : ReadAnswer → Verdict → Prop
  | settled {answer : ReadAnswer} {outcome : Except AdmissionError Unit} :
      Settles operationId answer.1 outcome → Judged answer (.ended outcome)
  | riddenOut {answer : ReadAnswer} : RiddenOut answer.1 → Judged answer (.again pollInterval)
  | rateLimited {answer : ReadAnswer} : RateLimited answer.1 →
      Judged answer (.limited (longer pollInterval (answer.2.getD .ZERO)))

/-- **Every answer settles the wait, is ridden out or limits the rate**, as its verdict says. -/
theorem judged_verdict (answer : ReadAnswer) :
    Judged operationId pollInterval answer (verdict operationId pollInterval answer) := by
  obtain ⟨err | current, asked⟩ := answer
  · unfold verdict
    dsimp only
    cases hstatus : err.statusCode with
    | none => exact .settled (.unanswered hstatus)
    | some status =>
      dsimp only
      split_ifs with h₁ h₂ h₃ h₄
      · exact .settled (.gone (h₁ ▸ hstatus))
      · rcases h₂ with h₂ | h₂
        · exact .settled (.auth (.inl (h₂ ▸ hstatus)))
        · exact .settled (.auth (.inr (h₂ ▸ hstatus)))
      · exact .rateLimited (.mk (h₃ ▸ hstatus))
      · exact .riddenOut (.serverError hstatus h₄)
      · exact .settled (.refused hstatus (Nat.lt_of_not_le h₄) (by simp; omega))
  · unfold verdict
    dsimp only
    split
    · next h => exact .settled (.ready h)
    · next h => exact .settled (.ended (.inl rfl) h)
    · next h => exact .settled (.ended (.inr rfl) h)
    · next h₁ h₂ h₃ =>
      exact .riddenOut (.underWay
        (by simp only [operationStatus, List.mem_cons, List.not_mem_nil]; tauto))

variable {operationId : String} {pollInterval : Duration} {answer : ReadAnswer}

variable (pollInterval) in
theorem settles_iff {outcome : Except AdmissionError Unit} :
    Settles operationId answer.1 outcome ↔
      verdict operationId pollInterval answer = .ended outcome := by
  constructor
  · intro h
    obtain ⟨result, asked⟩ := answer
    cases h with
    | ready h =>
      unfold operationStatus at h
      simp [verdict, h]
    | ended hstatus h =>
      unfold operationStatus at h
      rcases hstatus with rfl | rfl <;> simp [verdict, h]
    | gone h => simp [verdict, h]
    | auth h => rcases h with h | h <;> simp [verdict, h]
    | refused h hlt hother =>
      simp only [List.mem_cons, List.not_mem_nil, or_false, not_or] at hother
      simp [verdict, h, hother, hlt]
    | unanswered h => simp [verdict, h]
  · intro h
    have hjudged := judged_verdict operationId pollInterval answer
    rw [h] at hjudged
    cases hjudged with
    | settled hsettles => exact hsettles

theorem riddenOut_iff :
    RiddenOut answer.1 ↔ verdict operationId pollInterval answer = .again pollInterval := by
  constructor
  · intro h
    obtain ⟨result, asked⟩ := answer
    cases h with
    | underWay h =>
      simp only [List.mem_cons, List.not_mem_nil, or_false, not_or] at h
      unfold operationStatus at h
      unfold verdict
      dsimp only
      split <;> simp_all
    | serverError h hle =>
      simp only [verdict, h]
      split_ifs <;> first | rfl | omega
  · intro h
    have hjudged := judged_verdict operationId pollInterval answer
    rw [h] at hjudged
    cases hjudged with
    | riddenOut hridden => exact hridden

variable (operationId pollInterval) in
theorem rateLimited_iff :
    RateLimited answer.1 ↔ verdict operationId pollInterval answer
      = .limited (longer pollInterval (answer.2.getD .ZERO)) := by
  constructor
  · intro h
    obtain ⟨result, asked⟩ := answer
    cases h with
    | mk h => simp [verdict, h]
  · intro h
    have hjudged := judged_verdict operationId pollInterval answer
    rw [h] at hjudged
    cases hjudged with
    | rateLimited hlimited => exact hlimited

theorem rateLimited_of_limited {wait : Duration}
    (h : verdict operationId pollInterval answer = .limited wait) :
    RateLimited answer.1 ∧ wait = longer pollInterval (answer.2.getD .ZERO) := by
  have hjudged := judged_verdict operationId pollInterval answer
  rw [h] at hjudged
  cases hjudged with
  | rateLimited hlimited => exact ⟨hlimited, rfl⟩

variable (operationId) in
theorem follows_iff {wait : Duration} :
    Follows pollInterval answer wait ↔ (verdict operationId pollInterval answer).wait = some wait := by
  constructor
  · intro h
    cases h with
    | riddenOut h =>
      rw [riddenOut_iff.mp h]
      rfl
    | rateLimited h =>
      rw [(rateLimited_iff operationId pollInterval).mp h]
      rfl
  · intro h
    have hjudged := judged_verdict operationId pollInterval answer
    generalize verdict operationId pollInterval answer = v at h hjudged
    cases hjudged with
    | settled hsettles => cases h
    | riddenOut hridden =>
      cases h
      exact .riddenOut hridden
    | rateLimited hlimited =>
      cases h
      exact .rateLimited hlimited

end

/-! ## What a wait should come to -/

section

variable (lib : AdmissionLibraries) (operationId : String) (pollInterval timeout : Duration)
  (answers : Nat → Option (Nat × HeaderedAnswer))

/-- A read of what comes: it reads the answer when it is ready, or is given up at the deadline, before
which there is none. -/
def Read.IsOf (answer : Option (Nat × HeaderedAnswer)) (read : Read) : Prop :=
  (∃ delay answered, answer = some (delay, answered) ∧ read.ended = read.started + delay ∧
    read.polled = some (getWithRetryAfter lib answered)) ∨
  (read.polled = none ∧ read.ended = timeout.nanos ∧
    ∀ delay answered, answer = some (delay, answered) → timeout.nanos ≤ read.started + delay)

/-- The read was told to wait for longer than is left. -/
def Read.CutShort (read : Read) : Prop :=
  ∃ answer, read.polled = some answer ∧ RateLimited answer.1 ∧
    timeout.nanos < read.ended + (longer pollInterval (answer.2.getD .ZERO)).nanos

/-- What should hold of a wait for an operation. -/
structure AdmissionLaw (waited : Waited) : Prop where
  isOf : ∀ i (read : Read), waited.reads[i]? = some read → read.IsOf lib timeout (answers i)
  /-- No read starts when the time is over. -/
  started : ∀ read ∈ waited.reads, read.started < timeout.nanos
  ended : ∀ read ∈ waited.reads, read.ended ≤ timeout.nanos
  /-- The answer that settles the wait is the last to be read, and decides it at once. -/
  settled : ∀ read ∈ waited.reads, ∀ answer, read.polled = some answer →
    ∀ outcome, Settles operationId answer.1 outcome →
      waited.reads.getLast? = some read ∧ waited.returned = read.ended ∧ waited.result = outcome
  /-- With none it is timed out, when the time is over or where a limit lasts longer. -/
  unsettled : (∀ read ∈ waited.reads, ∀ answer, read.polled = some answer →
    ∀ outcome, ¬Settles operationId answer.1 outcome) →
      waited.result = .error (.admissionTimeout timeout) ∧ (waited.returned = timeout.nanos ∨
        ∃ read ∈ waited.reads, read.CutShort pollInterval timeout)
  cutShort : ∀ read ∈ waited.reads, read.CutShort pollInterval timeout →
    waited.reads.getLast? = some read ∧ waited.returned = read.ended ∧
      waited.result = .error (.admissionTimeout timeout)
  /-- Between two reads is the wait that follows the answer of the first, or the rest of the time. -/
  waits : ∀ i (read later : Read), waited.reads[i]? = some read → waited.reads[i + 1]? = some later →
    ∃ answer wait, read.polled = some answer ∧ Follows pollInterval answer wait ∧
      later.started = min (read.ended + wait.nanos) timeout.nanos
  /-- Reading goes on while there is time for it. -/
  last : ∀ read, waited.reads.getLast? = some read → ∀ answer, read.polled = some answer →
    ∀ wait, Follows pollInterval answer wait → timeout.nanos ≤ read.ended + wait.nanos

/-! ## Sleeps that are not cut off -/

/-- When a read is due, after answers that do not settle the wait and the waits that follow them, from
the read `i` on. -/
inductive Due (i now : Nat) : Nat → Nat → Prop
  | start : Due i now i now
  | next {n t delay : Nat} {answered : HeaderedAnswer} {wait : Duration} : Due i now n t →
      answers n = some (delay, answered) → Follows pollInterval (getWithRetryAfter lib answered) wait →
      Due i now (n + 1) (t + delay + wait.nanos)

/-- The wait that follows an answer before the deadline ends before the deadline, or is not waited for. -/
def SleepsInTime (n t : Nat) : Prop :=
  ∀ delay answered wait, answers n = some (delay, answered) →
    Follows pollInterval (getWithRetryAfter lib answered) wait → t + delay < timeout.nanos →
    t + delay + wait.nanos < timeout.nanos ∨
      (RateLimited (getWithRetryAfter lib answered).1 ∧ timeout.nanos < t + delay + wait.nanos)

/-- There is time to read, and no sleep is cut off at the deadline. -/
def InTime : Prop :=
  0 < timeout.nanos ∧ ∀ n t, Due lib pollInterval answers 0 0 n t →
    SleepsInTime lib pollInterval timeout answers n t

end

/-! ## Runs of the loop -/

section

variable {lib : AdmissionLibraries} {operationId : String} {interval : PollInterval}
  {timeout : Duration} {clock : AdmissionClock} {answers : Nat → Option (Nat × HeaderedAnswer)}
  {i now : Nat} {waited : Waited}

/-- A run of the loop, from one read on. -/
inductive Looped (lib : AdmissionLibraries) (operationId : String) (interval : PollInterval)
    (timeout : Duration) (clock : AdmissionClock) (answers : Nat → Option (Nat × HeaderedAnswer)) :
    Nat → Nat → Waited → Prop
  | returns {i now : Nat} {read : Read} {outcome : Except AdmissionError Unit} :
      readAt lib (clock.answerFirst i) timeout (answers i) now = read →
      afterRead operationId interval.wait timeout read = .returns outcome →
      Looped lib operationId interval timeout clock answers i now ⟨[read], read.ended, outcome⟩
  | sleeps {i now later : Nat} {read : Read} {rest : Waited} :
      readAt lib (clock.answerFirst i) timeout (answers i) now = read →
      afterRead operationId interval.wait timeout read = .sleeps later →
      Looped lib operationId interval timeout clock answers (i + 1) later rest →
      Looped lib operationId interval timeout clock answers i now
        { rest with reads := read :: rest.reads }

variable (lib operationId interval timeout clock answers) in
theorem looped_admissionLoop (i now : Nat) :
    Looped lib operationId interval timeout clock answers i now
      (admissionLoop lib operationId interval timeout clock answers i now) := by
  induction i, now using admissionLoop.induct lib operationId interval timeout clock answers with
  | case1 i now read outcome h =>
    rw [admissionLoop]
    split
    · next outcome' h' => exact .returns rfl h'
    · next later h' => cases h.symm.trans h'
  | case2 i now read later h ih =>
    rw [admissionLoop]
    split
    · next outcome h' => cases h.symm.trans h'
    · next later' h' =>
      obtain rfl := Next.sleeps.inj (h.symm.trans h')
      exact .sleeps rfl h ih

/-- A read that starts by the deadline is of what comes, and ends by the deadline. -/
theorem readAt_isOf {first : Bool} {answer : Option (Nat × HeaderedAnswer)} {read : Read}
    (h : readAt lib first timeout answer now = read) (hnow : now ≤ timeout.nanos) :
    read.IsOf lib timeout answer ∧ read.started = now ∧ read.ended ≤ timeout.nanos := by
  subst h
  have hmax := max_eq_right hnow
  have hle := Clock.timeoutAt_le first now timeout.nanos
    (answer.map (Prod.map id (getWithRetryAfter lib)))
  refine ⟨?_, rfl, hle.trans hmax.le⟩
  unfold readAt
  rcases hseen : Clock.timeoutAt first now timeout.nanos
    (answer.map (Prod.map id (getWithRetryAfter lib))) with ⟨ended, _ | polled⟩
  · obtain ⟨hended, hlate⟩ := Clock.timeoutAt_none hseen
    rw [hmax] at hended hlate
    refine .inr ⟨rfl, hended, fun delay answered hanswer => ?_⟩
    rw [hanswer] at hlate
    exact hlate delay _ rfl
  · obtain ⟨delay, hcomes, hended, -⟩ := Clock.timeoutAt_some hseen
    obtain ⟨⟨delay', answered⟩, rfl, hmap⟩ := Option.map_eq_some_iff.mp hcomes
    obtain ⟨rfl, rfl⟩ := Prod.mk.inj hmap
    exact .inl ⟨delay', answered, rfl, hended, rfl⟩

/-- An answer that is ready before the deadline is read. -/
theorem readAt_of_lt {first : Bool} {delay : Nat} {answered : HeaderedAnswer}
    (h : now + delay < timeout.nanos) :
    readAt lib first timeout (some (delay, answered)) now
      = ⟨now, now + delay, some (getWithRetryAfter lib answered)⟩ := by
  have hseen := Clock.timeoutAt_of_lt first (getWithRetryAfter lib answered) h
  unfold readAt
  rw [Option.map_some, Prod.map_apply, id_eq, hseen]

namespace Looped

theorem head (h : Looped lib operationId interval timeout clock answers i now waited) :
    ∃ read later, waited.reads = read :: later ∧ read.started = now := by
  cases h with
  | returns hread hafter => exact ⟨_, [], rfl, hread ▸ rfl⟩
  | sleeps hread hafter hrest => exact ⟨_, _, rfl, hread ▸ rfl⟩

/-- The last read ends the wait. -/
theorem last (h : Looped lib operationId interval timeout clock answers i now waited) :
    ∃ read, waited.reads.getLast? = some read ∧ waited.returned = read.ended ∧
      afterRead operationId interval.wait timeout read = .returns waited.result := by
  induction h with
  | returns hread hafter => exact ⟨_, rfl, rfl, hafter⟩
  | sleeps hread hafter hrest ih =>
    obtain ⟨last, hlast, hreturned, hresult⟩ := ih
    refine ⟨last, ?_, hreturned, hresult⟩
    rw [List.getLast?_cons, hlast, Option.getD_some]

/-- After every other read it sleeps. -/
theorem sleeps_or_last (h : Looped lib operationId interval timeout clock answers i now waited) :
    ∀ read ∈ waited.reads, (∃ later, afterRead operationId interval.wait timeout read = .sleeps later) ∨
      waited.reads.getLast? = some read := by
  induction h with
  | returns hread hafter =>
    intro read hmem
    obtain rfl := List.mem_singleton.mp hmem
    exact .inr rfl
  | sleeps hread hafter hrest ih =>
    intro read hmem
    rcases List.mem_cons.mp hmem with rfl | hmem
    · exact .inl ⟨_, hafter⟩
    · refine (ih read hmem).imp_right fun hlast => ?_
      rw [List.getLast?_cons, hlast, Option.getD_some]

/-- A read starts where the sleep after the one before it ends. -/
theorem sleeps_getElem (h : Looped lib operationId interval timeout clock answers i now waited) :
    ∀ k (read later : Read), waited.reads[k]? = some read → waited.reads[k + 1]? = some later →
      afterRead operationId interval.wait timeout read = .sleeps later.started := by
  induction h with
  | returns hread hafter =>
    intro k read later hk hlater
    rw [List.getElem?_cons_succ] at hlater
    cases hlater
  | sleeps hread hafter hrest ih =>
    intro k read later hk hlater
    rw [List.getElem?_cons_succ] at hlater
    cases k with
    | zero =>
      obtain ⟨first, rest, hreads, hstarted⟩ := hrest.head
      rw [hreads, List.getElem?_cons_zero, Option.some.injEq] at hlater
      rw [List.getElem?_cons_zero, Option.some.injEq] at hk
      subst hk hlater
      rwa [hstarted]
    | succ k => exact ih k read later (by simpa using hk) hlater

/-- Every read is of what comes, and ends by the deadline. -/
theorem isOf (h : Looped lib operationId interval timeout clock answers i now waited)
    (hnow : now ≤ timeout.nanos) :
    ∀ k (read : Read), waited.reads[k]? = some read →
      read.IsOf lib timeout (answers (i + k)) ∧ read.ended ≤ timeout.nanos := by
  induction h with
  | returns hread hafter =>
    intro k read hk
    cases k with
    | zero =>
      rw [List.getElem?_cons_zero, Option.some.injEq] at hk
      subst hk
      obtain ⟨hof, -, hended⟩ := readAt_isOf hread hnow
      exact ⟨hof, hended⟩
    | succ k => cases hk
  | sleeps hread hafter hrest ih =>
    intro k read hk
    cases k with
    | zero =>
      rw [List.getElem?_cons_zero, Option.some.injEq] at hk
      subst hk
      obtain ⟨hof, -, hended⟩ := readAt_isOf hread hnow
      exact ⟨hof, hended⟩
    | succ k =>
      rw [List.getElem?_cons_succ] at hk
      have hof := ih (afterRead_later hafter).2 k read hk
      rwa [Nat.add_right_comm, Nat.add_assoc] at hof

end Looped

theorem pause_returns {wait : Duration} {outcome : Except AdmissionError Unit}
    (h : pause timeout wait now = .returns outcome) :
    timeout.nanos ≤ now ∧ outcome = .error (.admissionTimeout timeout) := by
  unfold pause at h
  split at h
  · next hle =>
    cases h
    exact ⟨hle, rfl⟩
  · cases h

section

variable {read : Read} {answer : ReadAnswer} {outcome : Except AdmissionError Unit}

/-- An answer that settles the wait ends it. -/
theorem afterRead_of_settles (hpolled : read.polled = some answer)
    (h : Settles operationId answer.1 outcome) :
    afterRead operationId interval.wait timeout read = .returns outcome := by
  have hverdict := (settles_iff interval.wait).mp h
  unfold afterRead
  rw [hpolled]
  dsimp only
  rw [hverdict]

/-- So does a limit that lasts for longer than is left. -/
theorem afterRead_of_cutShort (h : read.CutShort interval.wait timeout)
    (hended : read.ended ≤ timeout.nanos) :
    afterRead operationId interval.wait timeout read
      = .returns (.error (.admissionTimeout timeout)) := by
  obtain ⟨answer, hpolled, hlimited, hlong⟩ := h
  have hverdict := (rateLimited_iff operationId interval.wait).mp hlimited
  unfold afterRead
  rw [hpolled]
  dsimp only
  rw [hverdict]
  exact if_pos (by omega)

/-- The ways in which a wait ends: it is settled, its time is over, or a limit lasts for longer. -/
theorem afterRead_returns (h : afterRead operationId interval.wait timeout read = .returns outcome) :
    (∃ answer, read.polled = some answer ∧ Settles operationId answer.1 outcome) ∨
    (outcome = .error (.admissionTimeout timeout) ∧
      (read.polled = none ∨ timeout.nanos ≤ read.ended ∨ read.CutShort interval.wait timeout)) := by
  unfold afterRead at h
  split at h
  · next hpolled =>
    cases h
    exact .inr ⟨rfl, .inl hpolled⟩
  · next answer hpolled =>
    split at h
    · next outcome' hverdict =>
      cases h
      exact .inl ⟨answer, hpolled, (settles_iff interval.wait).mpr hverdict⟩
    · next wait hverdict =>
      split at h
      · next hlong =>
        cases h
        obtain ⟨hlimited, rfl⟩ := rateLimited_of_limited hverdict
        exact .inr ⟨rfl, .inr (.inr ⟨answer, hpolled, hlimited, by omega⟩)⟩
      · obtain ⟨hle, rfl⟩ := pause_returns h
        exact .inr ⟨rfl, .inr (.inl hle)⟩
    · obtain ⟨hle, rfl⟩ := pause_returns h
      exact .inr ⟨rfl, .inr (.inl hle)⟩

/-- Where a wait ends before its time after an answer that does not settle it, a limit lasts for longer
than is left. -/
theorem lt_of_afterRead_returns {wait : Duration}
    (h : afterRead operationId interval.wait timeout read = .returns outcome)
    (hpolled : read.polled = some answer) (hfollows : Follows interval.wait answer wait)
    (hlt : read.ended < timeout.nanos) :
    RateLimited answer.1 ∧ timeout.nanos < read.ended + wait.nanos := by
  have hwait := (follows_iff operationId).mp hfollows
  rcases afterRead_returns h with ⟨answer', hpolled', hsettles⟩ | ⟨-, hnone | hle | hcut⟩
  · obtain rfl := Option.some.inj (hpolled.symm.trans hpolled')
    rw [(settles_iff interval.wait).mp hsettles] at hwait
    cases hwait
  · cases hnone.symm.trans hpolled
  · omega
  · obtain ⟨answer', hpolled', hlimited, hlong⟩ := hcut
    obtain rfl := Option.some.inj (hpolled.symm.trans hpolled')
    rw [(rateLimited_iff operationId interval.wait).mp hlimited] at hwait
    obtain rfl := Option.some.inj hwait
    exact ⟨hlimited, hlong⟩

end

/-- A run keeps to the law, but for the reads that start when the time is over. -/
theorem Looped.law (h : Looped lib operationId interval timeout clock answers 0 0 waited)
    (hstarted : ∀ read ∈ waited.reads, read.started < timeout.nanos) :
    AdmissionLaw lib operationId interval.wait timeout answers waited := by
  have hof := fun k read hk => h.isOf (Nat.zero_le _) k read hk
  have hended : ∀ read ∈ waited.reads, read.ended ≤ timeout.nanos := by
    intro read hmem
    obtain ⟨k, hk⟩ := List.getElem?_of_mem hmem
    exact (hof k read hk).2
  obtain ⟨last, hlast, hreturned, hresult⟩ := h.last
  -- a read after which the wait does not sleep is the last
  have hends : ∀ read ∈ waited.reads, ∀ outcome,
      afterRead operationId interval.wait timeout read = .returns outcome →
      waited.reads.getLast? = some read ∧ waited.returned = read.ended ∧ waited.result = outcome := by
    intro read hmem outcome hafter
    rcases h.sleeps_or_last read hmem with ⟨later, hsleeps⟩ | hread
    · cases hsleeps.symm.trans hafter
    · obtain rfl := Option.some.inj (hlast.symm.trans hread)
      exact ⟨hlast, hreturned, Next.returns.inj (hresult.symm.trans hafter)⟩
  refine ⟨fun k read hk => by simpa using (hof k read hk).1, hstarted, hended, ?_, ?_, ?_, ?_, ?_⟩
  · exact fun read hmem answer hpolled outcome hsettles =>
      hends read hmem outcome (afterRead_of_settles hpolled hsettles)
  · intro hunsettled
    have hmem := List.mem_of_getLast? hlast
    rcases afterRead_returns hresult with ⟨answer, hpolled, hsettles⟩ | ⟨htimeout, hwhy⟩
    · exact absurd hsettles (hunsettled last hmem answer hpolled _)
    · refine ⟨htimeout, ?_⟩
      rw [hreturned]
      rcases hwhy with hnone | hle | hcut
      · obtain ⟨k, hk⟩ := List.getElem?_of_mem hmem
        rcases (hof k last hk).1 with ⟨_, _, _, _, hpolled⟩ | ⟨_, hdeadline, _⟩
        · cases hnone.symm.trans hpolled
        · exact .inl hdeadline
      · exact .inl (le_antisymm (hended last hmem) hle)
      · exact .inr ⟨last, hmem, hcut⟩
  · exact fun read hmem hcut =>
      hends read hmem _ (afterRead_of_cutShort hcut (hended read hmem))
  · intro k read later hk hlater
    obtain ⟨answer, wait, hpolled, hwait, hlt, hstart, -⟩ :=
      afterRead_sleeps (h.sleeps_getElem k read later hk hlater)
    exact ⟨answer, wait, hpolled, (follows_iff operationId).mpr hwait, by omega⟩
  · intro read hread answer hpolled wait hfollows
    obtain rfl := Option.some.inj (hlast.symm.trans hread)
    by_cases hlt : last.ended < timeout.nanos
    · exact (lt_of_afterRead_returns hresult hpolled hfollows hlt).2.le
    · omega

/-! ## When reads are due -/

theorem Due.le {n t : Nat} (h : Due lib interval.wait answers i now n t) : now ≤ t := by
  induction h with
  | start => exact le_rfl
  | next _ _ _ ih => omega

/-- What is due is the first read, or due after the answer to it. -/
theorem Due.cases_head {n t : Nat} (h : Due lib interval.wait answers i now n t) :
    (n = i ∧ t = now) ∨ ∃ delay answered wait, answers i = some (delay, answered) ∧
      Follows interval.wait (getWithRetryAfter lib answered) wait ∧
      Due lib interval.wait answers (i + 1) (now + delay + wait.nanos) n t := by
  induction h with
  | start => exact .inl ⟨rfl, rfl⟩
  | next hdue hanswer hfollows ih =>
    refine .inr ?_
    rcases ih with ⟨rfl, rfl⟩ | ⟨delay, answered, wait, hfirst, hwait, hrest⟩
    · exact ⟨_, _, _, hanswer, hfollows, .start⟩
    · exact ⟨delay, answered, wait, hfirst, hwait, hrest.next hanswer hfollows⟩

theorem Due.head {n t delay : Nat} {answered : HeaderedAnswer} {wait : Duration}
    (h : Due lib interval.wait answers (i + 1) (now + delay + wait.nanos) n t)
    (hanswer : answers i = some (delay, answered))
    (hfollows : Follows interval.wait (getWithRetryAfter lib answered) wait) :
    Due lib interval.wait answers i now n t := by
  induction h with
  | start => exact Due.start.next hanswer hfollows
  | next _ hanswer' hfollows' ih => exact ih.next hanswer' hfollows'

/-- Where no sleep is cut off, every read starts before the deadline. -/
theorem Looped.started (h : Looped lib operationId interval timeout clock answers i now waited)
    (hnow : now < timeout.nanos)
    (hsleeps : ∀ n t, Due lib interval.wait answers i now n t →
      SleepsInTime lib interval.wait timeout answers n t) :
    ∀ read ∈ waited.reads, read.started < timeout.nanos := by
  induction h with
  | returns hread hafter =>
    intro read hmem
    obtain rfl := List.mem_singleton.mp hmem
    rwa [← hread]
  | @sleeps i now later read rest hread hafter hrest ih =>
    obtain ⟨answer, wait, hpolled, hwait, hlt, hlater, hlimited⟩ := afterRead_sleeps hafter
    have hfollows := (follows_iff operationId).mpr hwait
    obtain ⟨hof, hstart, -⟩ := readAt_isOf hread hnow.le
    rcases hof with ⟨delay, answered, hanswer, hended, hanswered⟩ | ⟨hnone, -, -⟩
    · obtain rfl := Option.some.inj (hanswered.symm.trans hpolled)
      rw [hstart] at hended
      have hnext : now + delay + wait.nanos < timeout.nanos := by
        rcases hsleeps i now .start delay answered wait hanswer hfollows (by omega) with
          hin | ⟨hrate, hlong⟩
        · exact hin
        · have hverdict := (rateLimited_iff operationId interval.wait).mp hrate
          rw [hverdict] at hwait
          have hle := hlimited (hverdict.trans (congrArg _ (Option.some.inj hwait)))
          omega
      have heq : later = now + delay + wait.nanos := by omega
      intro read' hmem
      rcases List.mem_cons.mp hmem with rfl | hmem
      · rwa [hstart]
      · exact ih (by omega) (fun n t hdue => hsleeps n t ((heq ▸ hdue).head hanswer hfollows))
          read' hmem
    · cases hnone.symm.trans hpolled

/-- Where every read starts before the deadline, no sleep is cut off. -/
theorem Looped.sleepsInTime (h : Looped lib operationId interval timeout clock answers i now waited)
    (hstarted : ∀ read ∈ waited.reads, read.started < timeout.nanos) {n t : Nat}
    (hdue : Due lib interval.wait answers i now n t) :
    SleepsInTime lib interval.wait timeout answers n t := by
  induction h with
  | @returns i now read outcome hread hafter =>
    -- what follows a wait that is over is late
    have hover : ∀ delay answered wait, answers i = some (delay, answered) →
        Follows interval.wait (getWithRetryAfter lib answered) wait → now + delay < timeout.nanos →
        RateLimited (getWithRetryAfter lib answered).1 ∧ timeout.nanos < now + delay + wait.nanos := by
      intro delay answered wait hanswer hfollows hlt
      rw [hanswer, readAt_of_lt hlt] at hread
      subst hread
      exact lt_of_afterRead_returns hafter rfl hfollows hlt
    rcases hdue.cases_head with ⟨rfl, rfl⟩ | ⟨delay, answered, wait, hanswer, hfollows, hrest⟩
    · intro delay answered wait hanswer hfollows hlt
      exact .inr (hover delay answered wait hanswer hfollows hlt)
    · intro delay' answered' wait' hanswer' hfollows' hlt
      have hle := hrest.le
      by_cases hin : now + delay < timeout.nanos
      · have hlong := (hover delay answered wait hanswer hfollows hin).2
        omega
      · omega
  | @sleeps i now later read rest hread hafter hrest ih =>
    obtain ⟨answer, wait, hpolled, hwait, hlt, hlater, -⟩ := afterRead_sleeps hafter
    obtain ⟨next, others, hreads, hnext⟩ := hrest.head
    have hbefore : next.started < timeout.nanos :=
      hstarted next (List.mem_cons_of_mem _ (hreads ▸ List.mem_cons_self))
    -- the sleep ends before the deadline, so it was not cut off
    have heq : later = read.ended + wait.nanos := by omega
    have hread' : ∀ delay answered wait', answers i = some (delay, answered) →
        Follows interval.wait (getWithRetryAfter lib answered) wait' → now + delay < timeout.nanos →
        now + delay + wait'.nanos = later := by
      intro delay answered wait' hanswer hfollows hin
      rw [hanswer, readAt_of_lt hin] at hread
      subst hread
      obtain rfl := Option.some.inj hpolled
      rw [(follows_iff operationId).mp hfollows] at hwait
      rw [heq, Option.some.inj hwait]
    rcases hdue.cases_head with ⟨rfl, rfl⟩ | ⟨delay, answered, wait', hanswer, hfollows, hdue'⟩
    · intro delay answered wait' hanswer hfollows hin
      exact .inl (by have := hread' delay answered wait' hanswer hfollows hin; omega)
    · by_cases hin : now + delay < timeout.nanos
      · rw [hread' delay answered wait' hanswer hfollows hin] at hdue'
        exact ih (fun read' hmem => hstarted read' (List.mem_cons_of_mem _ hmem)) hdue'
      · have hle := hdue'.le
        intro delay' answered' wait'' hanswer' hfollows' hlt'
        omega

/-- The loop keeps to the law exactly where no sleep is cut off. -/
theorem admissionLoop_law_iff :
    AdmissionLaw lib operationId interval.wait timeout answers
      (admissionLoop lib operationId interval timeout clock answers 0 0) ↔
    InTime lib interval.wait timeout answers := by
  have hlooped := looped_admissionLoop lib operationId interval timeout clock answers 0 0
  constructor
  · intro hlaw
    obtain ⟨read, later, hreads, hread⟩ := hlooped.head
    have hfirst := hlaw.started read (hreads ▸ List.mem_cons_self)
    exact ⟨hread ▸ hfirst, fun n t hdue => hlooped.sleepsInTime hlaw.started hdue⟩
  · exact fun hin => hlooped.law (hlooped.started hin.1 hin.2)

end

/-! ## The wait -/

section

variable (lib : AdmissionLibraries) (plane : ControlPlane) (clock : AdmissionClock)
  (operation : Option OperationResource) (timeout pollInterval : Duration)
  (answers : Nat → Option (Nat × HeaderedAnswer))

/-- What should hold of a call: with nothing to wait for it succeeds, what keeps it from reading is its
error, and otherwise it is a wait for the operation. -/
structure WaitLaw (waited : Waited) : Prop where
  nothing : operation = none → waited = ⟨[], 0, .ok ()⟩
  refused : ∀ err, startAdmission lib plane clock operation timeout pollInterval = .error err →
    waited = ⟨[], 0, .error (.other err)⟩
  reads : ∀ operationId interval,
    startAdmission lib plane clock operation timeout pollInterval = .ok (some (operationId, interval)) →
      AdmissionLaw lib operationId pollInterval timeout answers waited

theorem startAdmission_interval {operationId : String} {interval : PollInterval}
    (h : startAdmission lib plane clock operation timeout pollInterval
      = .ok (some (operationId, interval))) : interval.wait = pollInterval := by
  unfold startAdmission at h
  split at h
  · cases h
  · split at h
    · split at h
      · cases h
      · split at h
        · cases h
        · split at h
          · cases h
          · cases h
            rfl
    · cases h

/-- **A wait follows its answers, and reads by its deadline, exactly where it does not read at all or no
sleep is cut off at the deadline.** -/
theorem waitForAdmission_law_iff :
    WaitLaw lib plane clock operation timeout pollInterval answers
      (waitForAdmission lib plane clock operation timeout pollInterval answers) ↔
    ∀ started, startAdmission lib plane clock operation timeout pollInterval = .ok (some started) →
      InTime lib pollInterval timeout answers := by
  constructor
  · intro hlaw started hstart
    obtain ⟨operationId, interval⟩ := started
    have hreads := hlaw.reads operationId interval hstart
    have hinterval := startAdmission_interval _ _ _ _ _ _ hstart
    unfold waitForAdmission at hreads
    rw [hstart] at hreads
    rw [← hinterval] at hreads ⊢
    exact admissionLoop_law_iff.mp hreads
  · intro hin
    refine ⟨?_, ?_, ?_⟩
    · rintro rfl
      rfl
    · intro err hstart
      unfold waitForAdmission
      rw [hstart]
    · intro operationId interval hstart
      have hinterval := startAdmission_interval _ _ _ _ _ _ hstart
      have hin := hin _ hstart
      unfold waitForAdmission
      rw [hstart]
      rw [← hinterval] at hin ⊢
      exact admissionLoop_law_iff.mpr hin

end

/-! ## A read that starts late -/

/-- Libraries that take every URL for the API's, and every answer for an operation that was asked for. -/
def requestedLibraries : AdmissionLibraries where
  parseUrl _ := some ⟨"https", "", none, some "api.thalovant.com", none, "/", none, none⟩
  fromStr _ := .ok (.object [("status", .string "requested")])
  print _ := ""
  sameOrigin link api := link.scheme = api.scheme ∧ link.host = api.host
    ∧ link.portOrKnownDefault = api.portOrKnownDefault
  seconds _ := none

def signedInPlane : ControlPlane :=
  .new "https://api.thalovant.com" (some "token") "agent"

def requestedAnswer : HeaderedAnswer := ⟨.response 200 "\x7b\"status\":\"requested\"\x7d", []⟩

def oneSecond : Duration := .fromSecs 1 (by decide)

def twoSeconds : PollInterval := ⟨.fromSecs 2 (by decide), by decide⟩

def nearClock : AdmissionClock := ⟨DURATION_END, fun _ => true⟩

def lateWait : Waited :=
  waitForAdmission requestedLibraries signedInPlane nearClock (some ⟨"op-1", []⟩) oneSecond
    twoSeconds.wait (fun _ => some (10000000, requestedAnswer))

/-- With a second for it and two between reads, the only sleep is cut off, and a read follows. -/
theorem waitForAdmission_reads_late :
    lateWait.reads.map Read.started = [0, 1000000000] ∧
    ¬WaitLaw requestedLibraries signedInPlane nearClock (some ⟨"op-1", []⟩) oneSecond twoSeconds.wait
      (fun _ => some (10000000, requestedAnswer)) lateWait := by
  have hreads : lateWait.reads.map Read.started = [0, 1000000000] := by decide +kernel
  refine ⟨hreads, fun hlaw => ?_⟩
  have hstart : startAdmission requestedLibraries signedInPlane nearClock (some ⟨"op-1", []⟩)
      oneSecond twoSeconds.wait = .ok (some ("op-1", twoSeconds)) := by rfl
  have hlate : 1000000000 ∈ lateWait.reads.map Read.started := by
    rw [hreads]
    decide
  obtain ⟨read, hmem, hstarted⟩ := List.mem_map.mp hlate
  have hlt := (hlaw.reads "op-1" twoSeconds hstart).started read hmem
  rw [hstarted] at hlt
  exact absurd hlt (by decide)

end Thalovant.Api
