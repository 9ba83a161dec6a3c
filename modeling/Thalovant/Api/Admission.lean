import Thalovant.Api.Http
import Thalovant.Lib.Clock

/-!
# Waiting for a hub to admit a connection

The operation that made a connection is read over and over, until an answer settles it or the timeout
passes. Time is counted from the call, in nanoseconds.
-/

namespace Thalovant.Api

/-! ## What is asked and answered -/

/-- The operation of a connection, as far as the wait reads it. -/
structure OperationResource where
  id : String
  links : List (String × Option String)

/-- An answer with its headers by their names in lower case. A header that is not text has none. -/
structure HeaderedAnswer where
  answer : HttpAnswer
  headers : List (String × Option String)

/-- The libraries below the wait. -/
structure AdmissionLibraries extends Libraries where
  /-- Whether two URLs are of one origin. -/
  sameOrigin : Url → Url → Bool
  /-- The span of a number of seconds: none if it is negative, the longest if none is as long. -/
  seconds : Number → Option Duration

/-- The clock of a wait: how far its instants reach, and for each read whether an answer that is ready at
the deadline is seen before the deadline is. -/
structure AdmissionClock where
  reach : Nat
  answerFirst : Nat → Bool

/-- A time between reads. -/
structure PollInterval where
  wait : Duration
  positive : 0 < wait.nanos

inductive AdmissionError where
  | admissionFailed (errorCode : Option String) (reason : String) (statusCode : Option Nat)
      (problem : Option Map)
  | admissionTimeout (timeout : Duration)
  /-- Any other error, as it is. -/
  | other (err : ThalovantError)

/-- What a read comes to: its result, and how long a refusal asked to wait. -/
abbrev ReadAnswer := Result Value × Option Duration

/-! ## The wait that a refusal asks for -/

/-- `text.parse::<u64>()` and `Duration::from_secs`, of digits. -/
def secondsOfDigits (digits : List Char) : Option Duration :=
  let seconds := digits.foldl (fun n c => 10 * n + (c.toNat - 48)) 0
  if h : seconds < 2 ^ 64 then
    some (.fromSecs seconds (Nat.mul_lt_mul_of_pos_right h (by decide)))
  else none

def headerSeconds (headers : List (String × Option String)) (name : String) : Option Duration :=
  match headers.lookup name with
  | some (some value) =>
    let digits := (trim value).toList
    if digits ≠ [] ∧ digits.all Char.isDigit then secondsOfDigits digits else none
  | _ => none

def headerRetryAfter (headers : List (String × Option String)) : Option Duration :=
  ["retry-after", "ratelimit-reset"].findSome? (headerSeconds headers)

section

variable (lib : AdmissionLibraries)

/-- The span under `retry_after_seconds`. -/
def retryAfterSeconds (source : Map) : Option Duration :=
  match source.get "retry_after_seconds" with
  | some (.number n) => lib.seconds n
  | _ => none

def retryAfter (problem : Map) : Option Duration :=
  (retryAfterSeconds lib problem).or
    (((problem.get "detail").bind Json.Value.asObject).bind (retryAfterSeconds lib))

/-- `get_with_retry_after`, of a request that is sent. -/
def getWithRetryAfter (answered : HeaderedAnswer) : ReadAnswer :=
  match readAnswer answered.answer with
  | .error err => (.error err, none)
  | .ok (status, body) =>
    match answerValue lib.toLibraries status body with
    | .ok value => (.ok value, none)
    | .error err => (.error err,
      (err.apiProblem.bind (retryAfter lib)).or (headerRetryAfter answered.headers))

/-! ## Starting -/

/-- What comes before and after the last occurrence of a separator. -/
def rsplitOnce (sep text : List Char) : Option (List Char × List Char) :=
  (splitOnce sep.reverse text.reverse).map fun (after, before) => (before.reverse, after.reverse)

def operationIdFromLink (link : String) : Option String :=
  match rsplitOnce "/v1/operations/".toList link.toList with
  | some (_, tail) =>
    let id := trimChar '/' (String.ofList (tail.takeWhile fun c => c ≠ '?' ∧ c ≠ '#'))
    if id = "" then none else some id
  | none => none

/-- The link of the operation to itself, or nothing. -/
def OperationResource.selfLink (operation : OperationResource) : String :=
  trim ((operation.links.lookup "self").join.getD "")

def isAbsoluteLink (link : String) : Bool :=
  let lowered := link.toList.map Char.toLower
  "http://".toList.isPrefixOf lowered || "https://".toList.isPrefixOf lowered

def isSameOrigin (plane : ControlPlane) (link : String) : Bool :=
  match lib.parseUrl link, lib.parseUrl plane.apiUrl with
  | some link, some api => lib.sameOrigin link api
  | _, _ => false

def operationId (plane : ControlPlane) (operation : OperationResource) : Result String :=
  if isAbsoluteLink operation.selfLink && !isSameOrigin lib plane operation.selfLink then
    .error (.api
      "the admission operation points outside the Thalovant API, so it was not fetched")
  else if trim operation.id ≠ "" then .ok (trim operation.id)
  else match operationIdFromLink operation.selfLink with
    | some id => .ok id
    | none => .error (.api "an operation needs an id to wait on")

def operationRequest (operationId : String) : Request where
  method := "GET"
  path := "/v1/operations/" ++ urlencode operationId
  body := none
  auth := true

/-- What comes before the first read: the operation to read and the time between reads. There may be
nothing to wait for. -/
def startAdmission (plane : ControlPlane) (clock : AdmissionClock)
    (operation : Option OperationResource) (timeout pollInterval : Duration) :
    Result (Option (String × PollInterval)) :=
  match operation with
  | none => .ok none
  | some operation =>
    if h : 0 < pollInterval.nanos then
      match operationId lib plane operation with
      | .error err => .error err
      | .ok id =>
        if clock.reach < timeout.nanos then .error (.api "the admission timeout is too large")
        -- a request that cannot be made is no answer, and ends the wait
        else match prepare lib.toLibraries plane (operationRequest id) with
          | .error err => .error err
          | .ok () => .ok (some (id, ⟨pollInterval, h⟩))
    else .error (.api "the admission poll interval must be positive")

/-! ## Reading -/

/-- What an answer does to the wait. -/
inductive Verdict where
  | ended (outcome : Except AdmissionError Unit)
  | again (wait : Duration)
  /-- The API limits the rate of requests. -/
  | limited (wait : Duration)

/-- The operation failed, as it says itself. -/
def operationFailed (operationId status : String) (current : Value) : AdmissionError :=
  let errorCode := ((member "error_code" current).bind Json.Value.asStr).filter (· ≠ "")
  let message := (((member "error_message" current).bind Json.Value.asStr).map
    Redact.boundedLine).filter (· ≠ "")
  .admissionFailed errorCode
    ("the hub could not admit the connection: operation " ++ operationId ++ " ended " ++ status
      ++ ": " ++ (message.or errorCode).getD "no detail") none none

/-- The API refused the wait. -/
def waitRefused (status : Nat) (err : ThalovantError) : AdmissionError :=
  .admissionFailed none
    ("the API refused the wait for the connection's admission (HTTP " ++ toString status ++ ")")
    (some status) err.apiProblem

/-- The longer of two spans. -/
def longer (d other : Duration) : Duration := if d.nanos < other.nanos then other else d

def verdict (operationId : String) (pollInterval : Duration) : ReadAnswer → Verdict
  | (.ok current, _) =>
    match (member "status" current).bind Json.Value.asStr with
    | some "ready" => .ended (.ok ())
    | some "failed" => .ended (.error (operationFailed operationId "failed" current))
    | some "timed_out" => .ended (.error (operationFailed operationId "timed_out" current))
    | _ => .again pollInterval
  | (.error err, asked) =>
    match err.statusCode with
    | some status =>
      if status = 404 then .ended (.ok ())
      else if status = 401 ∨ status = 403 then .ended (.error (.other err))
      else if status = 429 then .limited (longer pollInterval (asked.getD .ZERO))
      else if 500 ≤ status then .again pollInterval
      else .ended (.error (waitRefused status err))
    | none => .ended (.error (.other err))

/-- A read of the operation: when it started and ended, and what it came to, or that it was given up. -/
structure Read where
  started : Nat
  ended : Nat
  polled : Option ReadAnswer

/-- What follows a read. -/
inductive Next where
  | returns (outcome : Except AdmissionError Unit)
  | sleeps (until_ : Nat)

/-- What a wait did and came to. -/
structure Waited where
  reads : List Read
  returned : Nat
  result : Except AdmissionError Unit

/-- Sleep, but not past the deadline. -/
def pause (timeout wait : Duration) (now : Nat) : Next :=
  if now ≥ timeout.nanos then .returns (.error (.admissionTimeout timeout))
  else .sleeps (now + min wait.nanos (timeout.nanos - now))

def afterRead (operationId : String) (pollInterval : Duration) (timeout : Duration) (read : Read) :
    Next :=
  match read.polled with
  | none => .returns (.error (.admissionTimeout timeout))
  | some polled =>
    match verdict operationId pollInterval polled with
    | .ended outcome => .returns outcome
    | .limited wait =>
      if wait.nanos > timeout.nanos - read.ended then .returns (.error (.admissionTimeout timeout))
      else pause timeout wait read.ended
    | .again wait => pause timeout wait read.ended

/-- The read that starts now, of the answer that comes after a delay, or never. -/
def readAt (answerFirst : Bool) (timeout : Duration) (answer : Option (Nat × HeaderedAnswer))
    (now : Nat) : Read :=
  let seen := Clock.timeoutAt answerFirst now timeout.nanos
    (answer.map (Prod.map id (getWithRetryAfter lib)))
  ⟨now, seen.1, seen.2⟩

theorem nanos_longer (d other : Duration) : (longer d other).nanos = max d.nanos other.nanos := by
  unfold longer
  split <;> omega

/-- The wait after an answer that leaves the operation unsettled. -/
def Verdict.wait : Verdict → Option Duration
  | .ended _ => none
  | .again wait | .limited wait => some wait

/-- A wait is no shorter than the time between reads. -/
theorem le_wait {operationId : String} {pollInterval wait : Duration} {polled : ReadAnswer}
    (h : (verdict operationId pollInterval polled).wait = some wait) :
    pollInterval.nanos ≤ wait.nanos := by
  unfold verdict at h
  split at h
  · split at h <;> cases h
    exact le_rfl
  · split at h
    · split_ifs at h <;> cases h
      · rw [nanos_longer]
        exact le_max_left _ _
      · exact le_rfl
    · cases h

theorem pause_sleeps {timeout wait : Duration} {now later : Nat}
    (h : pause timeout wait now = .sleeps later) :
    now < timeout.nanos ∧ later = now + min wait.nanos (timeout.nanos - now) := by
  unfold pause at h
  split at h
  · cases h
  · next hlt =>
    cases h
    exact ⟨Nat.lt_of_not_le hlt, rfl⟩

/-- What is known of a read that the wait sleeps after. -/
theorem afterRead_sleeps {operationId : String} {pollInterval timeout : Duration} {read : Read}
    {later : Nat} (h : afterRead operationId pollInterval timeout read = .sleeps later) :
    ∃ polled wait, read.polled = some polled ∧
      (verdict operationId pollInterval polled).wait = some wait ∧ read.ended < timeout.nanos ∧
      later = read.ended + min wait.nanos (timeout.nanos - read.ended) ∧
      (verdict operationId pollInterval polled = .limited wait →
        wait.nanos ≤ timeout.nanos - read.ended) := by
  unfold afterRead at h
  split at h
  · cases h
  · next polled hpolled =>
    split at h
    · cases h
    · next wait hverdict =>
      split at h
      · cases h
      · next hle =>
        obtain ⟨hlt, hlater⟩ := pause_sleeps h
        exact ⟨polled, wait, hpolled, by rw [hverdict]; rfl, hlt, hlater, fun _ => Nat.le_of_not_lt hle⟩
    · next wait hverdict =>
      obtain ⟨hlt, hlater⟩ := pause_sleeps h
      refine ⟨polled, wait, hpolled, by rw [hverdict]; rfl, hlt, hlater, fun hlimited => ?_⟩
      rw [hverdict] at hlimited
      cases hlimited

/-- Time passes before the next read. -/
theorem afterRead_later {operationId : String} {interval : PollInterval} {timeout : Duration}
    {read : Read} {later : Nat}
    (h : afterRead operationId interval.wait timeout read = .sleeps later) :
    read.ended < later ∧ later ≤ timeout.nanos := by
  obtain ⟨polled, wait, -, hwait, hlt, rfl, -⟩ := afterRead_sleeps h
  have hpos := interval.positive
  have hle := le_wait hwait
  omega

/-- The loop of the wait, from one read on. -/
def admissionLoop (operationId : String) (interval : PollInterval) (timeout : Duration)
    (clock : AdmissionClock) (answers : Nat → Option (Nat × HeaderedAnswer)) (i now : Nat) : Waited :=
  let read := readAt lib (clock.answerFirst i) timeout (answers i) now
  match h : afterRead operationId interval.wait timeout read with
  | .returns outcome => ⟨[read], read.ended, outcome⟩
  | .sleeps later =>
    let rest := admissionLoop operationId interval timeout clock answers (i + 1) later
    { rest with reads := read :: rest.reads }
termination_by timeout.nanos - now
decreasing_by
  obtain ⟨hlt, hle⟩ := afterRead_later h
  have hstart : now ≤ read.ended := Clock.le_timeoutAt
  omega

/-- `wait_for_admission`: the answers to its reads come after a delay, or never. -/
def waitForAdmission (plane : ControlPlane) (clock : AdmissionClock)
    (operation : Option OperationResource) (timeout pollInterval : Duration)
    (answers : Nat → Option (Nat × HeaderedAnswer)) : Waited :=
  match startAdmission lib plane clock operation timeout pollInterval with
  | .error err => ⟨[], 0, .error (.other err)⟩
  | .ok none => ⟨[], 0, .ok ()⟩
  | .ok (some (operationId, interval)) =>
    admissionLoop lib operationId interval timeout clock answers 0 0

end

end Thalovant.Api
