import Thalovant.HiveMessage
import Thalovant.Redact
import Thalovant.Url

/-!
# What `Debug` prints of an identity

The secrets of its own are left out, and those of the metadata by their keys. An endpoint is read as a
URL and printed without its user name and password. So an endpoint that does not parse is printed as it
is, and what stands before the last `@` is printed where the URL standard takes it for something else.
`debug_noninterference` says of which endpoints nothing shows.

The URL parser is a parameter. Of the standard it is to follow two things are needed: where a user name
and a password are, and that what is printed of a URL is one (`FollowsStandard`).
-/

namespace Thalovant

/-! ## Printing -/

/-- What a formatter is given to print. -/
inductive Shown where
  | text (text : String)
  | number (n : Nat)
  | bool (b : Bool)
  | map (m : Map)
  | none
  | some (shown : Shown)
  | struct (name : String) (fields : List (String × Shown))

/-- The `Debug` of an `Option`. -/
def Shown.ofOption {α : Type} (fmt : α → Shown) : Option α → Shown
  | Option.none => .none
  | Option.some a => .some (fmt a)

namespace Url

/-- A user name or a password can be set. -/
def mayHaveUserinfo (url : Url) : Bool :=
  url.host.isSome && url.host ≠ some "" && url.scheme ≠ "file"

/-- `set_username("")`, the failure of which is ignored. -/
def clearUsername (url : Url) : Url := if url.mayHaveUserinfo then { url with username := "" } else url

/-- `set_password(None)`, likewise. -/
def clearPassword (url : Url) : Url := if url.mayHaveUserinfo then { url with password := none } else url

end Url

section

variable (urls : UrlLibrary)

def redactEndpointCredentials (endpoint : String) : String :=
  match urls.parse endpoint with
  | none => endpoint
  | some url => trimEndChar '/' (urls.print url.clearUsername.clearPassword)

def HubDataPlaneEndpoints.asMap (endpoints : HubDataPlaneEndpoints) (redactCredentials : Bool) : Map :=
  [("https", endpoints.https), ("wss", endpoints.wss), ("mqtt", endpoints.mqtt)].foldl
    (fun data (key, endpoint) =>
      match endpoint with
      | none => data
      | some endpoint => data.insert key (.string
          (if redactCredentials then redactEndpointCredentials urls endpoint else endpoint))) []

def HubProtocolSettings.fmt (protocols : HubProtocolSettings) : Shown :=
  .struct "HubProtocolSettings"
    [("wss", .bool protocols.wss), ("http", .bool protocols.http), ("mqtt", .bool protocols.mqtt)]

def MqttBrokerCredentials.fmt (mqtt : MqttBrokerCredentials) : Shown :=
  .struct "MqttBrokerCredentials"
    [("endpoint", .text (redactEndpointCredentials urls mqtt.endpoint)),
      ("username", .text Redact.REDACTED), ("password", .text Redact.REDACTED),
      ("topic_prefix", .text Redact.REDACTED), ("qos", .number mqtt.qos.toNat), ("tls", .bool mqtt.tls)]

def Identity.fmt (identity : Identity) : Shown :=
  .struct "Identity"
    [("access_key", .text Redact.REDACTED), ("password", .text Redact.REDACTED),
      ("site_id", .text identity.siteId),
      ("default_master", .text (redactEndpointCredentials urls identity.defaultMaster)),
      ("default_port", .number identity.defaultPort.toNat),
      ("default_path", .text identity.defaultPath),
      ("public_key", .ofOption .text identity.publicKey),
      ("metadata", .map (Redact.redactMap identity.metadata)), ("name", .ofOption .text identity.name),
      ("data_plane_endpoints", .map (identity.dataPlaneEndpoints.asMap urls true)),
      ("protocols", identity.protocols.fmt),
      ("mqtt", .ofOption (MqttBrokerCredentials.fmt urls) identity.mqtt)]

end

/-! ## Identities that differ in secrets -/

/-- What comes before the authority of a text, and what follows. -/
def beforeAuthority (text : List Char) : List Char × List Char :=
  match splitOnce "//".toList text with
  | some (before, after) => (before ++ "//".toList, after)
  | none => ([], text)

/-- A text cut before and after its userinfo, which ends at the last `@` of the authority. -/
def splitUserinfo (text : String) : Option (List Char × List Char × List Char) :=
  let (before, rest) := beforeAuthority text.toList
  let authority := rest.takeWhile fun c => !endsAuthority c
  if '@' ∈ authority then
    let host := authority.rtakeWhile (· ≠ '@')
    some (before, authority.take (authority.length - host.length - 1),
      '@' :: host ++ rest.dropWhile fun c => !endsAuthority c)
  else none

/-- The texts are the same, or have a userinfo each and differ in nothing else. -/
def SameButUserinfo (endpoint endpoint' : String) : Prop :=
  endpoint = endpoint' ∨ ∃ before userinfo userinfo' after,
    splitUserinfo endpoint = some (before, userinfo, after) ∧
    splitUserinfo endpoint' = some (before, userinfo', after)

structure MqttBrokerCredentials.SameButSecrets (mqtt mqtt' : MqttBrokerCredentials) : Prop where
  endpoint : SameButUserinfo mqtt.endpoint mqtt'.endpoint
  qos : mqtt.qos = mqtt'.qos
  tls : mqtt.tls = mqtt'.tls

/-- The identities differ only in secrets. -/
structure Identity.SameButSecrets (a b : Identity) : Prop where
  siteId : a.siteId = b.siteId
  defaultMaster : SameButUserinfo a.defaultMaster b.defaultMaster
  defaultPort : a.defaultPort = b.defaultPort
  defaultPath : a.defaultPath = b.defaultPath
  publicKey : a.publicKey = b.publicKey
  metadata : Redact.SecretEqMap false a.metadata b.metadata
  name : a.name = b.name
  https : Option.Rel SameButUserinfo a.dataPlaneEndpoints.https b.dataPlaneEndpoints.https
  wss : Option.Rel SameButUserinfo a.dataPlaneEndpoints.wss b.dataPlaneEndpoints.wss
  mqttEndpoint : Option.Rel SameButUserinfo a.dataPlaneEndpoints.mqtt b.dataPlaneEndpoints.mqtt
  protocols : a.protocols = b.protocols
  mqtt : Option.Rel MqttBrokerCredentials.SameButSecrets a.mqtt b.mqtt

/-! ## What the URL standard takes for a userinfo -/

/-- The parser leaves these out, wherever they are. -/
def isTabOrNewline (c : Char) : Bool := c = '\t' || c = '\n' || c = '\r'

/-- The scheme that a text begins with, in lower case, and what comes after its colon. -/
def readScheme (text : List Char) : Option (List Char × List Char) :=
  let text := (text.filter fun c => !isTabOrNewline c).dropWhile fun c => c ≤ ' '
  match splitOnce ":".toList text with
  | none => none
  | some (scheme, rest) =>
    if scheme.head?.any Char.isAlpha && scheme.all fun c => c.isAlphanum || "+-.".toList.contains c then
      some (scheme.map Char.toLower, rest)
    else none

/--
The authority of the URL begins where `before` ends, and `userinfo` is in it as a whole. The special
schemes take any slashes and backslashes before the authority, and end it at a backslash; a URL of a
file has no userinfo.
-/
def readsUserinfo (before userinfo : List Char) : Bool :=
  match readScheme before with
  | none => false
  | some (scheme, slashes) =>
    if scheme = "file".toList then false
    else if ["http", "https", "ws", "wss", "ftp"].contains (String.ofList scheme) then
      slashes.all (fun c => c = '/' || c = '\\') &&
        !((userinfo.filter fun c => !isTabOrNewline c).dropWhile (· = '\\')).contains '\\'
    else slashes = "//".toList

/-- A text with a userinfo has it where the URL standard looks for one. -/
def placesUserinfo (endpoint : String) : Bool :=
  match splitUserinfo endpoint with
  | some (before, userinfo, _) => readsUserinfo before userinfo
  | none => true

example : ["mqtt://u:p@hub", "wss:/\\//u@hub", "//u:p@hub", "u:p@hub:1883", "wss://hub\\u:p@x",
    "file:/\\//u@hub"].map placesUserinfo = [true, true, false, false, false, false] := by decide +kernel

/-- The URL without its user name and password, where it can have them. -/
def Url.withoutUserinfo (url : Url) : Url :=
  if url.mayHaveUserinfo then { url with username := "", password := none } else url

/-- What is needed of the URL standard. -/
structure FollowsStandard (urls : UrlLibrary) : Prop where
  /-- Another userinfo makes a URL that is the same besides. -/
  userinfo : ∀ {endpoint endpoint' : String} {before userinfo userinfo' after : List Char} {url : Url},
    splitUserinfo endpoint = some (before, userinfo, after) →
    splitUserinfo endpoint' = some (before, userinfo', after) →
    readsUserinfo before userinfo = true → readsUserinfo before userinfo' = true →
    urls.parse endpoint = some url →
    ∃ username password, urls.parse endpoint' = some { url with username := username, password := password }
  /-- Where there is a userinfo there is a host after it, and the scheme is not `file`. -/
  host : ∀ {endpoint : String} {before userinfo after : List Char} {url : Url},
    splitUserinfo endpoint = some (before, userinfo, after) → readsUserinfo before userinfo = true →
    urls.parse endpoint = some url → url.mayHaveUserinfo = true
  /-- What is printed of a URL is a URL, also if slashes at its end are left out. -/
  prints : ∀ {text url}, urls.parse text = some url →
    (urls.parse (trimEndChar '/' (urls.print url.withoutUserinfo))).isSome = true

/-! ## Endpoints that give nothing away -/

/-- The same text, or URLs that have their userinfo where the URL standard looks for one. -/
def Hidden (urls : UrlLibrary) (endpoint endpoint' : String) : Prop :=
  endpoint = endpoint' ∨ (urls.parse endpoint).isSome = true ∧ placesUserinfo endpoint = true ∧
    placesUserinfo endpoint' = true

/-- The same text, or two URLs. -/
def BothParse (urls : UrlLibrary) (endpoint endpoint' : String) : Prop :=
  endpoint = endpoint' ∨ (urls.parse endpoint).isSome = true ∧ (urls.parse endpoint').isSome = true

/-- The endpoints of the two identities are so related, each to the other's. -/
structure Identity.Endpoints (r : String → String → Prop) (a b : Identity) : Prop where
  defaultMaster : r a.defaultMaster b.defaultMaster
  https : Option.Rel r a.dataPlaneEndpoints.https b.dataPlaneEndpoints.https
  wss : Option.Rel r a.dataPlaneEndpoints.wss b.dataPlaneEndpoints.wss
  mqttEndpoint : Option.Rel r a.dataPlaneEndpoints.mqtt b.dataPlaneEndpoints.mqtt
  mqtt : Option.Rel (fun mqtt mqtt' => r mqtt.endpoint mqtt'.endpoint) a.mqtt b.mqtt

variable {urls : UrlLibrary}

theorem Url.clearPassword_clearUsername (url : Url) :
    url.clearUsername.clearPassword = url.withoutUserinfo := by
  unfold clearPassword clearUsername withoutUserinfo
  by_cases h : url.mayHaveUserinfo = true
  · have hcleared : ({ url with username := "" } : Url).mayHaveUserinfo = true := h
    rw [if_pos h, if_pos h, if_pos hcleared]
  · rw [if_neg h, if_neg h, if_neg h]

theorem redactEndpointCredentials_of_parse {endpoint : String} {url : Url}
    (h : urls.parse endpoint = some url) :
    redactEndpointCredentials urls endpoint = trimEndChar '/' (urls.print url.withoutUserinfo) := by
  simp only [redactEndpointCredentials, h, Url.clearPassword_clearUsername]

theorem redactEndpointCredentials_of_none {endpoint : String} (h : urls.parse endpoint = none) :
    redactEndpointCredentials urls endpoint = endpoint := by
  simp only [redactEndpointCredentials, h]

/-- **An endpoint that is read as the URL standard says shows nothing of its userinfo.** -/
theorem redactEndpointCredentials_eq (hurls : FollowsStandard urls) {endpoint endpoint' : String}
    (h : SameButUserinfo endpoint endpoint') (hhidden : Hidden urls endpoint endpoint') :
    redactEndpointCredentials urls endpoint = redactEndpointCredentials urls endpoint' := by
  rcases h with rfl | ⟨before, userinfo, userinfo', after, hsplit, hsplit'⟩
  · rfl
  rcases hhidden with rfl | ⟨hparse, hplaced, hplaced'⟩
  · rfl
  obtain ⟨url, hurl⟩ := Option.isSome_iff_exists.mp hparse
  simp only [placesUserinfo, hsplit] at hplaced
  simp only [placesUserinfo, hsplit'] at hplaced'
  obtain ⟨username, password, hurl'⟩ := hurls.userinfo hsplit hsplit' hplaced hplaced' hurl
  have hhost := hurls.host hsplit hplaced hurl
  have hhost' : ({ url with username := username, password := password } : Url).mayHaveUserinfo = true :=
    hhost
  rw [redactEndpointCredentials_of_parse hurl, redactEndpointCredentials_of_parse hurl',
    Url.withoutUserinfo, if_pos hhost, Url.withoutUserinfo, if_pos hhost']

/-- Two endpoints that are printed alike are URLs. -/
theorem bothParse_of_eq (hurls : FollowsStandard urls) {endpoint endpoint' : String}
    (h : redactEndpointCredentials urls endpoint = redactEndpointCredentials urls endpoint') :
    BothParse urls endpoint endpoint' := by
  -- what is printed of a URL is a URL again, and so no other text
  have hreads : ∀ {text other : String} {url : Url}, urls.parse text = some url →
      urls.parse other = none → trimEndChar '/' (urls.print url.withoutUserinfo) ≠ other := by
    rintro text _ url hurl hother rfl
    have hsome := hurls.prints hurl
    rw [hother] at hsome
    cases hsome
  rcases hurl : urls.parse endpoint with _ | url <;> rcases hurl' : urls.parse endpoint' with _ | url'
  · rw [redactEndpointCredentials_of_none hurl, redactEndpointCredentials_of_none hurl'] at h
    exact .inl h
  · rw [redactEndpointCredentials_of_none hurl, redactEndpointCredentials_of_parse hurl'] at h
    exact absurd h.symm (hreads hurl' hurl)
  · rw [redactEndpointCredentials_of_parse hurl, redactEndpointCredentials_of_none hurl'] at h
    exact absurd h (hreads hurl hurl')
  · exact .inr ⟨by rw [hurl]; rfl, by rw [hurl']; rfl⟩

/-! ## What is printed -/

/-- Options are printed alike if what is in them is. -/
theorem map_eq_map_iff {α β : Type} {f : α → β} {r : α → α → Prop} (h : ∀ a b, f a = f b ↔ r a b)
    (o o' : Option α) : o.map f = o'.map f ↔ Option.Rel r o o' := by
  cases o with
  | none =>
    cases o' with
    | none => exact ⟨fun _ => .none, fun _ => rfl⟩
    | some b => exact ⟨nofun, nofun⟩
  | some a =>
    cases o' with
    | none => exact ⟨nofun, nofun⟩
    | some b =>
      rw [Option.map_some, Option.map_some, Option.some.injEq, h]
      exact ⟨.some, fun hrel => by cases hrel; assumption⟩

/-- The map of three texts. -/
def mapOf (https wss mqtt : Option String) : Map :=
  [("https", https), ("wss", wss), ("mqtt", mqtt)].foldl
    (fun data (key, text) => match text with
      | none => data
      | some text => data.insert key (.string text)) []

theorem asMap_eq_mapOf (endpoints : HubDataPlaneEndpoints) :
    endpoints.asMap urls true = mapOf (endpoints.https.map (redactEndpointCredentials urls))
      (endpoints.wss.map (redactEndpointCredentials urls))
      (endpoints.mqtt.map (redactEndpointCredentials urls)) := by
  obtain ⟨https, wss, mqtt⟩ := endpoints
  cases https <;> cases wss <;> cases mqtt <;> rfl

/-- The map says what each text is. -/
theorem get_mapOf (https wss mqtt : Option String) :
    Map.get "https" (mapOf https wss mqtt) = https.map .string ∧
      Map.get "wss" (mapOf https wss mqtt) = wss.map .string ∧
      Map.get "mqtt" (mapOf https wss mqtt) = mqtt.map .string := by
  have hnil : ∀ key, Map.get key [] = none := fun _ => rfl
  cases https <;> cases wss <;> cases mqtt <;> simp [mapOf, Map.get_insert, hnil]

/-- Two endpoints are printed alike. -/
abbrev PrintedAlike (urls : UrlLibrary) (endpoint endpoint' : String) : Prop :=
  redactEndpointCredentials urls endpoint = redactEndpointCredentials urls endpoint'

theorem asMap_eq_iff (endpoints endpoints' : HubDataPlaneEndpoints) :
    endpoints.asMap urls true = endpoints'.asMap urls true ↔
      Option.Rel (PrintedAlike urls) endpoints.https endpoints'.https ∧
      Option.Rel (PrintedAlike urls) endpoints.wss endpoints'.wss ∧
      Option.Rel (PrintedAlike urls) endpoints.mqtt endpoints'.mqtt := by
  have hredact := map_eq_map_iff (f := redactEndpointCredentials urls) (r := PrintedAlike urls)
    fun _ _ => Iff.rfl
  rw [asMap_eq_mapOf, asMap_eq_mapOf, ← hredact, ← hredact, ← hredact]
  constructor
  · intro h
    have hstring := Option.map_injective (fun _ _ => Json.Value.string.inj (N := Number))
    obtain ⟨hhttps, hwss, hmqtt⟩ := get_mapOf (endpoints.https.map (redactEndpointCredentials urls))
      (endpoints.wss.map (redactEndpointCredentials urls))
      (endpoints.mqtt.map (redactEndpointCredentials urls))
    rw [h] at hhttps hwss hmqtt
    obtain ⟨hhttps', hwss', hmqtt'⟩ := get_mapOf (endpoints'.https.map (redactEndpointCredentials urls))
      (endpoints'.wss.map (redactEndpointCredentials urls))
      (endpoints'.mqtt.map (redactEndpointCredentials urls))
    exact ⟨hstring (hhttps.symm.trans hhttps'), hstring (hwss.symm.trans hwss'),
      hstring (hmqtt.symm.trans hmqtt')⟩
  · rintro ⟨hhttps, hwss, hmqtt⟩
    rw [hhttps, hwss, hmqtt]

variable (urls) in
theorem mqttFmt_eq_iff {mqtt mqtt' : Option MqttBrokerCredentials}
    (h : Option.Rel MqttBrokerCredentials.SameButSecrets mqtt mqtt') :
    Shown.ofOption (MqttBrokerCredentials.fmt urls) mqtt
        = Shown.ofOption (MqttBrokerCredentials.fmt urls) mqtt'
      ↔ Option.Rel (fun mqtt mqtt' => PrintedAlike urls mqtt.endpoint mqtt'.endpoint) mqtt mqtt' := by
  cases h with
  | none => exact ⟨fun _ => .none, fun _ => rfl⟩
  | some h =>
    rw [Shown.ofOption, Shown.ofOption, Shown.some.injEq]
    refine Iff.trans ?_ ⟨fun hendpoint => .some hendpoint, fun hrel => by cases hrel; assumption⟩
    simp [MqttBrokerCredentials.fmt, h.qos, h.tls]

theorem redactMap_eq {map map' : Map} (h : Redact.SecretEqMap false map map') :
    Redact.redactMap map = Redact.redactMap map' := by
  have hobject : Redact.SecretEq false (.object map) (.object map') := h
  exact Json.Value.object.inj ((Redact.redactValue_eq_iff _ _).mpr hobject)

/-- Only the endpoints can make a difference. -/
theorem fmt_eq_iff {a b : Identity} (h : a.SameButSecrets b) :
    a.fmt urls = b.fmt urls ↔ Identity.Endpoints (PrintedAlike urls) a b := by
  have hmqtt := mqttFmt_eq_iff urls h.mqtt
  simp only [Identity.fmt, h.siteId, h.defaultPort, h.defaultPath, h.publicKey, h.name, h.protocols,
    redactMap_eq h.metadata, Shown.struct.injEq, List.cons.injEq, Prod.mk.injEq, Shown.text.injEq,
    Shown.map.injEq, asMap_eq_iff, hmqtt, true_and, and_true]
  constructor
  · rintro ⟨hmaster, ⟨hhttps, hwss, hmqttEndpoint⟩, hmqtt⟩
    exact ⟨hmaster, hhttps, hwss, hmqttEndpoint, hmqtt⟩
  · rintro ⟨hmaster, hhttps, hwss, hmqttEndpoint, hmqtt⟩
    exact ⟨hmaster, ⟨hhttps, hwss, hmqttEndpoint⟩, hmqtt⟩

/-- What two relations say of what is in two options. -/
theorem rel_of_rel {α : Type} {r r' r'' : α → α → Prop} (h : ∀ {a b}, r a b → r' a b → r'' a b)
    {o o' : Option α} (hr : Option.Rel r o o') (hr' : Option.Rel r' o o') : Option.Rel r'' o o' := by
  cases hr with
  | none => exact .none
  | some hr =>
    cases hr' with
    | some hr' => exact .some (h hr hr')

theorem Identity.Endpoints.mono {r r' : String → String → Prop} (hr : ∀ {x y}, r x y → r' x y)
    {a b : Identity} (h : Identity.Endpoints r a b) : Identity.Endpoints r' a b := by
  obtain ⟨hmaster, hhttps, hwss, hmqttEndpoint, hmqtt⟩ := h
  exact ⟨hr hmaster, rel_of_rel (fun h _ => hr h) hhttps hhttps, rel_of_rel (fun h _ => hr h) hwss hwss,
    rel_of_rel (fun h _ => hr h) hmqttEndpoint hmqttEndpoint, rel_of_rel (fun h _ => hr h) hmqtt hmqtt⟩

def hubUrl (username : String) (password : Option String) : Url :=
  ⟨"wss", username, password, some "hub.example", none, "/", none, none⟩

/-- The URL library on the addresses of one host. -/
def hubUrls : UrlLibrary where
  parse text :=
    match splitUserinfo text with
    | some (before, userinfo, after) =>
      if before = "wss://".toList ∧ (after = "@hub.example".toList ∨ after = "@hub.example/".toList) then
        some (hubUrl (String.ofList (userinfo.takeWhile (· ≠ ':')))
          (match userinfo.dropWhile (· ≠ ':') with
            | [] => none
            | _ :: password => some (String.ofList password)))
      else none
    | none =>
      if text = "wss://hub.example" ∨ text = "wss://hub.example/" then some (hubUrl "" none) else none
  print url :=
    let userinfo := match url.password with
      | none => url.username
      | some password => url.username ++ ":" ++ password
    "wss://" ++ (if userinfo = "" then "" else userinfo ++ "@") ++ "hub.example/"

/-- Every URL that is read is of the host. -/
theorem hubUrls_parse {text : String} {url : Url} (h : hubUrls.parse text = some url) :
    ∃ username password, url = hubUrl username password := by
  unfold hubUrls at h
  dsimp only at h
  split at h
  · split at h
    · cases h
      exact ⟨_, _, rfl⟩
    · cases h
  · split at h
    · cases h
      exact ⟨_, _, rfl⟩
    · cases h

theorem hubUrls_followsStandard : FollowsStandard hubUrls where
  userinfo := by
    intro endpoint endpoint' before userinfo userinfo' after url hsplit hsplit' _ _ hurl
    obtain ⟨username, password, rfl⟩ := hubUrls_parse hurl
    simp only [hubUrls, hsplit] at hurl
    simp only [hubUrls, hsplit']
    split at hurl
    · next hhub =>
      rw [if_pos hhub]
      exact ⟨_, _, rfl⟩
    · cases hurl
  host := by
    intro endpoint before userinfo after url _ _ hurl
    obtain ⟨username, password, rfl⟩ := hubUrls_parse hurl
    rfl
  prints := by
    intro text url hurl
    obtain ⟨username, password, rfl⟩ := hubUrls_parse hurl
    have hwithout : (hubUrl username password).withoutUserinfo = hubUrl "" none := by
      rw [Url.withoutUserinfo, if_pos (show (hubUrl username password).mayHaveUserinfo = true from rfl)]
      rfl
    rw [hwithout]
    decide +kernel

def sampleIdentity (accessKey master https : String) : Identity where
  accessKey := accessKey
  password := accessKey
  siteId := "kitchen"
  defaultMaster := master
  defaultPort := 443
  defaultPath := ""
  publicKey := none
  metadata := [("auth_token", .string accessKey)]
  name := none
  dataPlaneEndpoints := ⟨some https, none, none⟩
  protocols := ⟨true, false, false⟩
  mqtt := none

theorem sampleIdentity_sameButSecrets {key key' master master' https https' : String}
    (hmaster : SameButUserinfo master master') (hhttps : SameButUserinfo https https') :
    (sampleIdentity key master https).SameButSecrets (sampleIdentity key' master' https') where
  siteId := rfl
  defaultMaster := hmaster
  defaultPort := rfl
  defaultPath := rfl
  publicKey := rfl
  metadata := ⟨⟨rfl, .inl (by decide)⟩, trivial⟩
  name := rfl
  https := .some hhttps
  wss := .none
  mqttEndpoint := .none
  protocols := rfl
  mqtt := .none

end Thalovant
