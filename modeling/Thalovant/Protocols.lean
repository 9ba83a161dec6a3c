import Thalovant.IdentityValue

/-!
# Where a hub answers

A hub resource names the protocols that are enabled and the endpoints that it is reached at; those
that it does not name are those of its domain.
-/

namespace Thalovant

inductive HubProtocol where
  | wss
  | https
  | mqtt
  deriving DecidableEq, Repr

def DEFAULT_PROTOCOL_PREFERENCE : List HubProtocol := [.wss, .https, .mqtt]

structure SelectedHubEndpoint where
  protocol : HubProtocol
  endpoint : String
  deriving DecidableEq

/-! ## Settings and endpoints -/

/-- Where a hub says nothing, there is WSS. -/
def HubProtocolSettings.default : HubProtocolSettings where
  wss := true
  http := false
  mqtt := false

def HubProtocolSettings.fromValue (value : Value) : HubProtocolSettings :=
  match value.asObject with
  | some object => .fromObject object
  | none => .default

def HubProtocolSettings.isEnabled (protocols : HubProtocolSettings) : HubProtocol → Bool
  | .wss => protocols.wss
  | .https => protocols.http
  | .mqtt => protocols.mqtt

/-- Each protocol with its flag, under its name. -/
def HubProtocolSettings.asSpecValue (protocols : HubProtocolSettings) : Value :=
  .object [("http", .object [("enabled", .bool protocols.http)]),
    ("mqtt", .object [("enabled", .bool protocols.mqtt)]),
    ("wss", .object [("enabled", .bool protocols.wss)])]

def HubDataPlaneEndpoints.endpointFor (endpoints : HubDataPlaneEndpoints) : HubProtocol → Option String
  | .https => endpoints.https
  | .wss => endpoints.wss
  | .mqtt => endpoints.mqtt

/-- The first of the protocols that are preferred that is enabled and has an endpoint. -/
def selectDataPlaneEndpoint (endpoints : HubDataPlaneEndpoints) (protocols : HubProtocolSettings)
    (preferred : List HubProtocol) : Option SelectedHubEndpoint :=
  let preferred := if preferred.isEmpty then DEFAULT_PROTOCOL_PREFERENCE else preferred
  preferred.findSome? fun protocol =>
    if protocols.isEnabled protocol then
      (endpoints.endpointFor protocol).map fun endpoint => ⟨protocol, endpoint⟩
    else none

section

variable (numbers : Json.NumberFormat Number) (urls : UrlLibrary)

def HubDataPlaneEndpoints.fromValue (value : Value) : HubDataPlaneEndpoints :=
  match value.asObject with
  | some object => .fromObject numbers urls object
  | none => { https := none, wss := none, mqtt := none }

/-! ## A domain -/

def startsWith (start text : String) : Bool := start.toList.isPrefixOf text.toList

/-- The first of the prefixes that the text begins with gives way to its replacement. -/
def replaceAnyPrefix (value : String) : List (String × String) → String
  | [] => value
  | (start, replacement) :: replacements =>
    if startsWith start value then replacement ++ String.ofList (value.toList.drop start.length)
    else replaceAnyPrefix value replacements

def endpointFromDomain (domain : String) (protocol : HubProtocol) : Option String :=
  let normalized := trimEndChar '/' (trim domain)
  match protocol with
  | .wss =>
    if startsWith "wss://" normalized || startsWith "ws://" normalized then
      normalizeEndpoint urls (some normalized)
    else if startsWith "https://" normalized || startsWith "http://" normalized then
      normalizeEndpoint urls
        (some (replaceAnyPrefix normalized [("https://", "wss://"), ("http://", "wss://")]))
    else normalizeEndpoint urls (some ("wss://" ++ normalized))
  | .https =>
    if startsWith "https://" normalized || startsWith "http://" normalized then
      normalizeEndpoint urls (some (replaceAnyPrefix normalized [("http://", "https://")]))
    else if startsWith "wss://" normalized || startsWith "ws://" normalized then
      normalizeEndpoint urls
        (some (replaceAnyPrefix normalized [("wss://", "https://"), ("ws://", "https://")]))
    else normalizeEndpoint urls (some ("https://" ++ normalized))
  | .mqtt => none

def HubDataPlaneEndpoints.fromHub (value : Value) : HubDataPlaneEndpoints :=
  let endpoints := fromValue numbers urls value
  let protocols := HubProtocolSettings.fromValue value
  match (value.asObject.bind (Map.get "domain")).bind (stringValue numbers) with
  | none => endpoints
  | some domain =>
    { endpoints with
      https := if endpoints.https.isNone && protocols.http then endpointFromDomain urls domain .https
        else endpoints.https
      wss := if endpoints.wss.isNone && protocols.wss then endpointFromDomain urls domain .wss
        else endpoints.wss }

end

end Thalovant
