import Thalovant.Lib.FormUrlencoded
import Thalovant.Text

/-!
# URLs

What the URL parser makes of a text is a parameter of the model; a `Url` is what it gives.
-/

namespace Thalovant

/-- `url::Url`. -/
structure Url where
  scheme : String
  /-- As it is written, percent-encoded; empty where there is none. -/
  username : String
  password : Option String
  host : Option String
  /-- `none` also for the scheme's default port. -/
  port : Option Nat
  path : String
  query : Option String
  fragment : Option String
  deriving DecidableEq

/-- What the URL library does with texts. -/
structure UrlLibrary where
  /-- `Url::parse`. -/
  parse : String → Option Url
  /-- `Url::to_string`. -/
  print : Url → String

namespace Url

/-- `Url::is_special`. -/
def isSpecial (url : Url) : Bool :=
  ["http", "https", "ws", "wss", "ftp", "file"].contains url.scheme

/-- `url::parser::default_port`. -/
def defaultPort (scheme : String) : Option Nat :=
  if scheme = "http" ∨ scheme = "ws" then some 80
  else if scheme = "https" ∨ scheme = "wss" then some 443
  else if scheme = "ftp" then some 21
  else none

/-- `Url::port_or_known_default`. -/
def portOrKnownDefault (url : Url) : Option Nat := url.port.or (defaultPort url.scheme)

/-- `Url::query_pairs`. -/
def queryPairs (url : Url) : List (String × String) :=
  FormUrlencoded.parse (url.query.getD "").toList

/-- `Url::query_pairs_mut().append_pair`. -/
def appendPair (url : Url) (pair : String × String) : Url :=
  { url with query := some (String.ofList (FormUrlencoded.append (url.query.getD "").toList pair)) }

/-- `append_pair`, of one pair after the other. -/
def appendPairs (url : Url) (pairs : List (String × String)) : Url := pairs.foldl appendPair url

theorem queryPairs_appendPair (url : Url) (pair : String × String) :
    (url.appendPair pair).queryPairs = url.queryPairs ++ [pair] := by
  simp only [queryPairs, appendPair, Option.getD_some, String.toList_ofList]
  exact FormUrlencoded.parse_append _ pair

theorem queryPairs_appendPairs (url : Url) (pairs : List (String × String)) :
    (url.appendPairs pairs).queryPairs = url.queryPairs ++ pairs := by
  induction pairs generalizing url with
  | nil => exact (List.append_nil _).symm
  | cons pair pairs ih =>
    have hcons : url.appendPairs (pair :: pairs) = (url.appendPair pair).appendPairs pairs := rfl
    rw [hcons, ih, queryPairs_appendPair, List.append_assoc, List.singleton_append]

/-- Only the query changes. -/
theorem appendPairs_target (url : Url) (pairs : List (String × String)) :
    (url.appendPairs pairs).scheme = url.scheme ∧ (url.appendPairs pairs).host = url.host ∧
      (url.appendPairs pairs).path = url.path := by
  induction pairs generalizing url with
  | nil => exact ⟨rfl, rfl, rfl⟩
  | cons pair pairs ih => exact ih (url.appendPair pair)

end Url

/-- What ends the authority of a URL. -/
def endsAuthority (c : Char) : Bool := c = '/' || c = '?' || c = '#'

/-- The text gives a user name, or something that a parser may take for one. -/
def urlHasUserinfo (raw : String) : Bool :=
  match splitOnce "://".toList raw.toList with
  | some (_, tail) => (tail.takeWhile fun c => !endsAuthority c).contains '@'
  | none => false

end Thalovant
