import Thalovant.Error
import Thalovant.Event

/-!
# Refusals

What an ask does when the hub refuses it or cannot answer it. The hub refuses a message with
`hive.policy.denied` as it admits it, without a request id, so which ask a refusal ends is a
judgement: `refusalBelongsToAsk`.
-/

namespace Thalovant

/-- How long a fire-and-forget utterance counts as possibly still being refused, in nanoseconds. -/
def UNTRACKED_UTTERANCE_GRACE : Nat := 10 * 1000000000

/-- What a client has out: asks, queries, and fire-and-forget utterances within their grace. -/
structure InFlight where
  asks : Nat
  queries : Nat
  sends : Nat
  deriving DecidableEq, Repr

/-- A refusal is this ask's to fail with. -/
def refusalBelongsToAsk (requestId : Option String) (ownRequestId : String)
    (deniedType : Option String) (inFlight : InFlight) : Bool :=
  let unattributed := deniedType = some EVENT_RECOGNIZER_LOOP_UTTERANCE && inFlight.asks = 1
    && inFlight.queries = 0 && inFlight.sends = 0
  match requestId with
  | some id => if id ≠ "" then id = ownRequestId else unattributed
  | none => unattributed

/-! ## The error a failure becomes -/

/-- The largest count the wire can carry. -/
def MAX_COUNT : Int := 2 ^ 53 - 1

/-- A whole number of the wire, from zero to `MAX_COUNT`; anything else reads as zero. -/
def wholeCount (value : Option Value) : Nat :=
  let whole := match value with
    | some (.number number) => if number.isInteger then number.asI64.getD 0 else 0
    | some (.string text) => (parseI64 (trim text)).getD 0
    | _ => 0
  if 0 ≤ whole ∧ whole ≤ MAX_COUNT then whole.toNat else 0

def stringField (data : Map) (key : String) : String := (data.getStr key).getD ""

/-- The error of a `hive.policy.denied`. -/
def policyDenied (e : Event) : ThalovantError :=
  let inner : Option Map := (e.data.get "data").bind Json.Value.asObject
  let allowed := ((inner.bind (Map.get "allowed")).bind Json.Value.asArray).getD []
  let code := stringField e.data "code"
  let quota : Option Quota :=
    if code = Quota.EXCEEDED_CODE then
      some {
        period := (inner.bind (Map.getStr "period")).getD ""
        limit := wholeCount (inner.bind (Map.get "limit"))
        used := wholeCount (inner.bind (Map.get "used"))
        resetAfter := wholeCount (inner.bind (Map.get "reset_after"))
      }
    else none
  .policyDenied (stringField e.data "denied_type") code (stringField e.data "reason")
    (((allowed.filterMap Json.Value.asStr).map trim).filter (· ≠ "")) quota

/-- The error an ask fails with for the event it ended on. -/
def failureError (e : Event) : ThalovantError :=
  if e.name = EVENT_POLICY_DENIED then policyDenied e
  else if e.name = EVENT_INTENT_UNMATCHED || e.name = EVENT_INTENT_FAILURE then
    .unanswered (trim e.text)
  else .runtime e.name

end Thalovant
