import Thalovant.Error
import Thalovant.HiveMessage
import Thalovant.Lib.Json.Text
import Thalovant.Url

/-!
# Identities as JSON

An identity is read from an object that may call its fields by several names. White space and slashes
around its texts are taken off, and what is no string is read as its JSON text. It is written as it is.
-/

namespace Thalovant

/-! ## Texts and numbers -/

/-- `parse`, of an unsigned integer that is less than a bound. -/
def parseUnsigned (bound : Nat) (text : String) : Option Nat :=
  let digits := match text.toList with
    | '+' :: digits => digits
    | digits => digits
  if digits.isEmpty || !digits.all Char.isDigit then none
  else
    let n := Nat.ofDigitChars 10 digits 0
    if n < bound then some n else none

/-- A text that stands for a flag. -/
def flagText (text : String) : Option Bool :=
  let word := String.ofList ((trim text).toList.map Char.toLower)
  if ["1", "true", "yes", "on"].contains word then some true
  else if ["0", "false", "no", "off"].contains word then some false
  else none

section

variable (numbers : Json.NumberFormat Number) (urls : UrlLibrary)

/-- `string_value`. -/
def stringValue : Value → Option String
  | .string raw => if trim raw = "" then none else some (trim raw)
  | .null => none
  | other => some (trimChar '"' (String.ofList (Json.print numbers other)))

/-! ## Fields -/

/-- `optional_string`, which does not fail: the first of the names that is there counts. -/
def optionalString (object : Map) (key : String) (aliases : List String) : Option String :=
  ((key :: aliases).findSome? fun candidate => object.get candidate).bind (stringValue numbers)

def requiredString (object : Map) (key : String) (aliases : List String) : Result String :=
  match optionalString numbers object key aliases with
  | some text => .ok text
  | none => .error (.missingIdentityField key)

def optionalPort (object : Map) (key : String) (aliases : List String) : Result (Option UInt16) :=
  match optionalString numbers object key aliases with
  | none => .ok none
  | some raw =>
    match parseUnsigned (2 ^ 16) raw with
    | some port => .ok (some (UInt16.ofNat port))
    | none => .error (.invalidIdentity ("invalid default_port: " ++ raw))

def optionalBool (object : Map) (key : String) : Option Bool :=
  match object.get key with
  | some (.bool value) => some value
  | some (.number n) => some (n.asI64.getD 0 ≠ 0)
  | some (.string text) => flagText text
  | _ => none

def optionalU8 (object : Map) (key : String) : Option UInt8 :=
  match object.get key with
  | some (.number n) => (n.asU64.filter (· < 256)).map UInt8.ofNat
  | some (.string text) => (parseUnsigned 256 (trim text)).map UInt8.ofNat
  | _ => none

def normalizePath : Option String → String
  | none => ""
  | some path => if trimChar '/' path = "" then "" else "/" ++ trimChar '/' path

/-! ## Endpoints -/

/-- The object that the endpoints are read from. -/
def endpointSource (object : Map) : Map :=
  ((["data_plane_endpoints", "dataPlaneEndpoints", "endpoints"].findSome? fun key =>
    object.get key).bind Json.Value.asObject).getD object

def firstString (object : Map) (keys : List String) : Option String :=
  keys.findSome? fun key => (object.get key).bind (stringValue numbers)

def endpointSchemes : List String := ["http", "https", "ws", "wss", "mqtt", "mqtts"]

/-- The text is a URL of a scheme that an endpoint may have. -/
def isEndpoint (raw : String) : Bool :=
  match urls.parse raw with
  | some url => endpointSchemes.contains url.scheme
  | none => false

def normalizeEndpoint (value : Option String) : Option String :=
  match value.map trim with
  | none => none
  | some raw =>
    if raw = "" then none
    else if isEndpoint urls raw then some (trimEndChar '/' raw)
    else none

def HubDataPlaneEndpoints.fromObject (object : Map) : HubDataPlaneEndpoints :=
  let source := endpointSource object
  { https := normalizeEndpoint urls (firstString numbers source ["https", "http"])
    wss := normalizeEndpoint urls (firstString numbers source ["wss", "ws"])
    mqtt := normalizeEndpoint urls (firstString numbers source ["mqtt", "mqtts"]) }

/-! ## Protocols -/

def firstValue (primary secondary : Option Map) (keys : List String) : Option Value :=
  ([primary, secondary].filterMap id).findSome? fun source => keys.findSome? fun key => source.get key

mutual

def enabledValue (fallback : Bool) : Value → Bool
  | .bool value => value
  | .string value => (flagText value).getD fallback
  | .object object => enabledEntry fallback object
  | _ => fallback

/-- `enabled_value`, of what is under `enabled`. -/
def enabledEntry (fallback : Bool) : Map → Bool
  | [] => fallback
  | (key, value) :: object =>
    if "enabled" = key then enabledValue fallback value else enabledEntry fallback object

end

def HubProtocolSettings.fromObject (object : Map) : HubProtocolSettings :=
  let source : Map := ((object.get "spec").bind Json.Value.asObject).getD object
  let protocols := (source.get "protocols").bind Json.Value.asObject
  let network := (source.get "network").bind Json.Value.asObject
  { wss := ((firstValue protocols network ["wss", "websocket"]).map (enabledValue true)).getD true
    http := ((firstValue protocols network ["http", "https"]).map (enabledValue false)).getD false
    mqtt := ((firstValue protocols network ["mqtt"]).map (enabledValue false)).getD false }

/-! ## Broker credentials -/

def MqttBrokerCredentials.fromValue (value : Option Value) : Option MqttBrokerCredentials := do
  let object ← value.bind Json.Value.asObject
  let endpoint ← optionalString numbers object "endpoint" ["broker_url", "brokerUrl"]
  let username ← optionalString numbers object "username" ["broker_username", "brokerUsername"]
  let password ← optionalString numbers object "password" ["broker_password", "brokerPassword"]
  let qos := (optionalU8 object "qos").getD 1
  return {
    endpoint
    username
    password
    topicPrefix := optionalString numbers object "topic_prefix" ["topicPrefix"]
    qos := if qos ≤ 1 then qos else 1
    tls := (optionalBool object "tls").getD ("mqtts://".toList.isPrefixOf endpoint.toList) }

/-! ## Identities -/

def Identity.fromValue (value : Value) : Result Identity := do
  let some object := value.asObject
    | throw (.invalidIdentity "identity must be a JSON object")
  let accessKey ← requiredString numbers object "access_key" ["accessKey", "key"]
  let password ← requiredString numbers object "password" ["secret"]
  let siteId ← requiredString numbers object "site_id" ["siteId", "site"]
  let defaultMaster ←
    requiredString numbers object "default_master" ["defaultMaster", "host", "master"]
  let defaultPort ← optionalPort numbers object "default_port" ["defaultPort", "port"]
  return {
    accessKey
    password
    siteId
    defaultMaster := trimEndChar '/' defaultMaster
    defaultPort := defaultPort.getD 443
    defaultPath := normalizePath (optionalString numbers object "default_path"
      ["defaultPath", "hub_http_path", "path", "uri_path"])
    publicKey := optionalString numbers object "public_key" ["publicKey"]
    metadata := ((Map.get "metadata" object).bind Json.Value.asObject).getD []
    name := optionalString numbers object "name" []
    dataPlaneEndpoints := .fromObject numbers urls object
    protocols := .fromObject object
    mqtt := MqttBrokerCredentials.fromValue numbers (Map.get "mqtt" object) }

end

/-! ## Writing: `Serialize` -/

def optionValue : Option String → Value
  | some text => .string text
  | none => .null

/-- The endpoints that are not there are left out. -/
def HubDataPlaneEndpoints.toValue (endpoints : HubDataPlaneEndpoints) : Value :=
  .object ([("https", endpoints.https), ("mqtt", endpoints.mqtt), ("wss", endpoints.wss)].filterMap
    fun entry => entry.2.map fun endpoint => (entry.1, .string endpoint))

def HubProtocolSettings.toValue (protocols : HubProtocolSettings) : Value :=
  .object [("http", .bool protocols.http), ("mqtt", .bool protocols.mqtt), ("wss", .bool protocols.wss)]

def MqttBrokerCredentials.fields (mqtt : MqttBrokerCredentials) : Map :=
  [("endpoint", .string mqtt.endpoint), ("password", .string mqtt.password),
    ("qos", .number (.posInt mqtt.qos.toUInt64)), ("tls", .bool mqtt.tls),
    ("topic_prefix", optionValue mqtt.topicPrefix), ("username", .string mqtt.username)]

def MqttBrokerCredentials.toValue (mqtt : MqttBrokerCredentials) : Value := .object mqtt.fields

def Identity.fields (identity : Identity) : Map :=
  [("access_key", .string identity.accessKey),
    ("data_plane_endpoints", identity.dataPlaneEndpoints.toValue),
    ("default_master", .string identity.defaultMaster),
    ("default_path", .string identity.defaultPath),
    ("default_port", .number (.posInt identity.defaultPort.toUInt64)),
    ("metadata", .object identity.metadata),
    ("mqtt", (identity.mqtt.map MqttBrokerCredentials.toValue).getD .null),
    ("name", optionValue identity.name), ("password", .string identity.password),
    ("protocols", identity.protocols.toValue), ("public_key", optionValue identity.publicKey),
    ("site_id", .string identity.siteId)]

def Identity.toValue (identity : Identity) : Value := .object identity.fields

end Thalovant
