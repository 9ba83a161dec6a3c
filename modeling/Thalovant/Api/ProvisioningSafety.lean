import Thalovant.Api.ProvisioningCalls
import Thalovant.IdentityRoundTrip

/-!
# Every run of clients being made and deleted

However the calls and the other programs interleave, a call deletes only what it has seen
(`deletes_what_was_seen`), and a client that is not of the kind asked for is not kept in silence
(`no_silent_orphan`).
-/

namespace Thalovant.Api

open Async

variable {lib : ProvisionLibraries} {secrets : Nat → ClientSecrets} {calls : Nat → ClientCall}
  {i : Nat} {s : ClientStore}

/-! ## Every run -/

/-- The clients after these events. -/
def clientsRun (lib : ProvisionLibraries) (secrets : Nat → ClientSecrets) (calls : Nat → ClientCall)
    (events : List (PoolEvent ClientRequest ClientResponse Unit ClientsEvent)) : ClientStore :=
  ((Pool.new ClientStore.new).run (clientsSystem lib secrets calls) events).state

theorem clientsRun_sane (lib : ProvisionLibraries) (secrets : Nat → ClientSecrets)
    (calls : Nat → ClientCall)
    (events : List (PoolEvent ClientRequest ClientResponse Unit ClientsEvent)) :
    SaneClients lib secrets calls (clientsRun lib secrets calls events) :=
  (Cooperation.Sound.run (clientsCooperation_holds lib secrets calls)
    (.new saneClients_new fun _ => ⟨nofun, rfl, nofun, rfl, rfl, rfl, rfl⟩) events).invariant

/-- **A delete takes away only what has been seen, and what it says is deleted is gone.** A DELETE that
the API carries out names the etag that the client then had, which the caller gave or the call was shown;
it is for the client that the call was given, or for the one that the API made for it. A call sends two
at most, the second only after the first was refused, and reads the client twice at most. -/
theorem deletes_what_was_seen (lib : ProvisionLibraries) (secrets : Nat → ClientSecrets)
    (calls : Nat → ClientCall)
    (events : List (PoolEvent ClientRequest ClientResponse Unit ClientsEvent)) :
    let s := clientsRun lib secrets calls events
    (∀ i id etag, calls i = .delete id etag → s.outcome i = some (.deleted (.ok ())) →
      s.live id = false)
    ∧ (∀ d ∈ s.removals, s.live d.id = false ∧ (s.etags d.id).head? = some d.etag ∧ d ∈ s.sent d.call)
    ∧ (∀ i, ∀ d ∈ s.sent i, Target (calls i) i d.id s ∧ Shown (calls i) i d.id d.etag s)
    ∧ ∀ i, (s.sent i).length ≤ 2 ∧ s.gets i ≤ 2
      ∧ ∀ d ∈ (s.sent i).tail, d ∈ s.stale ∧ d ∉ s.removals := by
  intro s
  have h : SaneClients lib secrets calls s := clientsRun_sane lib secrets calls events
  refine ⟨fun i id etag hcall hok => ?_, fun d hd => ?_, fun i d hd => (h.sent i d hd).2.2, fun i => ?_⟩
  · have hright := h.outcome i _ hok
    rw [hcall] at hright
    exact Absent.not_live (hright rfl)
  · obtain ⟨hsent, hgone, hetag⟩ := h.removed d hd
    exact ⟨Absent.not_live (.inl hgone), hetag, hsent⟩
  · refine ⟨(h.turns i).sent, (h.turns i).gets, fun d hd => ?_⟩
    have hstale := (h.turns i).earlier d hd
    exact ⟨hstale, (h.stale d hstale).2⟩

/-! ## What is posted, and what is said -/

/-- The credentials that a POST names, the kind it asks for, and that no key of the caller's is sent. -/
structure Names (payload : Value) (hubId : String) (kind : Option String) (siteId : String)
    (secrets : ClientSecrets) (spec : Map) : Prop where
  hub : member "hub_id" payload = some (.string hubId)
  body : member "spec" payload = some (.object spec)
  apiKey : Map.get "apiKey" spec = some (.string secrets.apiKey)
  password : Map.get "password" spec = some (.string secrets.password)
  siteId : Map.get "siteId" spec = some (.string siteId)
  kind : ∀ asked, kind = some asked → Map.get "connection_type" spec = some (.string asked)
  cryptoKey : Map.get "cryptoKey" spec = none ∧ Map.get "crypto_key" spec = none

theorem get_sanitizeCallerSpec (spec : Map) :
    Map.get "cryptoKey" (sanitizeCallerSpec spec) = none
      ∧ Map.get "crypto_key" (sanitizeCallerSpec spec) = none := by
  simp [sanitizeCallerSpec, Map.get, Map.remove, SortedMap.get_erase]

theorem names_clientPayload (hubId : String) (options : BootstrapIdentityOptions) (kind : Option String)
    (siteId : String) (secrets : ClientSecrets) :
    Names (clientPayload hubId options (clientSpec options kind siteId secrets)) hubId kind siteId
      secrets (clientSpec options kind siteId secrets) := by
  obtain ⟨hcrypto, hcrypto'⟩ := get_sanitizeCallerSpec options.spec
  constructor
  · unfold clientPayload member Json.Value.asObject
    cases options.ownerId <;> simp [Map.get_insert]
  · unfold clientPayload member Json.Value.asObject
    cases options.ownerId <;> simp [Map.get_insert]
  · simp [clientSpec, Map.get_insert]
  · simp [clientSpec, Map.get_insert]
  · simp [clientSpec, Map.get_insert]
  · rintro asked rfl
    simp [clientSpec, Map.get_insert]
  · have hversion : ∀ key, key ≠ "version" → Map.get key (if Map.containsKey "version"
        (sanitizeCallerSpec options.spec) then sanitizeCallerSpec options.spec
        else Map.insert "version" (.string "1") (sanitizeCallerSpec options.spec))
        = Map.get key (sanitizeCallerSpec options.spec) := by
      intro key hkey
      split
      · rfl
      · rw [Map.get_insert, if_neg hkey]
    cases kind <;> simp [clientSpec, Map.get_insert, hversion, hcrypto, hcrypto']

theorem keptReason_ne_deletedReason (client : Value) (id : String) :
    keptReason client id ≠ deletedReason client := by
  intro h
  have hlist := congrArg String.toList h
  simp [keptReason, deletedReason, String.toList_append] at hlist

/-- The identity that is made is for the client that the API answered, and it has the credentials that
were posted where the API gives none of its own. -/
theorem bootstrapIdentity_client {hub client : Value} {options : BootstrapIdentityOptions}
    {siteId : String} {secrets : ClientSecrets} {made : BootstrapIdentityResult}
    (h : bootstrapIdentity lib hub client options siteId secrets = .ok made) :
    made.client = client ∧ ((member "initial_identify" client).bind Json.Value.asObject = none →
      made.identity.accessKey = secrets.apiKey ∧ made.identity.password = secrets.password
        ∧ made.identity.siteId = siteId) := by
  unfold bootstrapIdentity at h
  obtain ⟨master, -, h⟩ := bind_eq_ok_iff.mp h
  cases hinitial : (member "initial_identify" client).bind Json.Value.asObject with
  | none =>
    rw [hinitial] at h
    cases h
    exact ⟨rfl, fun _ => ⟨rfl, rfl, rfl⟩⟩
  | some initial =>
    rw [hinitial] at h
    obtain ⟨identity, -, h⟩ := bind_eq_ok_iff.mp h
    cases h
    exact ⟨rfl, nofun⟩

theorem mapError_sdk_eq_ok {α : Type} {result : Result α} {a : α} :
    result.mapError ProvisionError.sdk = .ok a ↔ result = .ok a := by
  cases result <;> simp [Except.mapError]

theorem mapError_sdk_ne {α : Type} {result : Result α} {kind reason : String} {status : Option Nat}
    {problem : Option Map} :
    result.mapError ProvisionError.sdk ≠ .error (.unsupportedConnectionType kind reason status problem) := by
  cases result <;> simp [Except.mapError]

variable {hub : Value} {kind : Option String} {options : BootstrapIdentityOptions}
  {result : Except ProvisionError BootstrapIdentityResult}

/-- An identity is for a client of the kind asked for, with what was posted. -/
theorem SaneClients.made_right (h : SaneClients lib secrets calls s)
    (hcall : calls i = .create hub kind options) (hresult : s.outcome i = some (.created result))
    {made : BootstrapIdentityResult} (hok : result = .ok made) :
    s.answers i = some made.client
    ∧ (∀ asked, kind.map trim = some asked → connectionType made.client = some asked)
    ∧ ∃ payload hubId spec, s.posted i = some payload
      ∧ Names payload hubId (kind.map trim) (siteIdOf options) (secrets i) spec
      ∧ ((member "initial_identify" made.client).bind Json.Value.asObject = none →
        made.identity.accessKey = (secrets i).apiKey ∧ made.identity.password = (secrets i).password
          ∧ made.identity.siteId = siteIdOf options) := by
  have hright := h.outcome i _ hresult
  rw [hcall, hok] at hright
  unfold Right at hright
  cases hanswer : s.answers i with
  | none =>
    rw [hanswer] at hright
    obtain ⟨err, herr, -⟩ := hright
    cases herr
  | some client =>
    rw [hanswer] at hright
    obtain ⟨⟨hubId, hposted⟩, hmade⟩ := hright
    unfold MadeRight at hmade
    split at hmade
    · next hkind =>
      obtain ⟨hclient, hcredentials⟩ :=
        bootstrapIdentity_client (mapError_sdk_eq_ok.mp hmade.symm)
      rw [hclient]
      exact ⟨rfl, hkind, _, hubId, _, hposted, names_clientPayload _ _ _ _ _, hcredentials⟩
    · obtain ⟨asked, -, hmade⟩ := hmade
      cases hid : clientId client with
      | none =>
        rw [hid] at hmade
        cases hmade
      | some id =>
        rw [hid] at hmade
        obtain ⟨-, ⟨herr, -⟩ | herr⟩ := hmade <;> cases herr

/-- If the kind is refused, nothing was made, or what was made is gone, or is named. -/
theorem SaneClients.refused_right (h : SaneClients lib secrets calls s)
    (hcall : calls i = .create hub kind options) (hresult : s.outcome i = some (.created result))
    {asked reason : String} {status : Option Nat} {problem : Option Map}
    (herr : result = .error (.unsupportedConnectionType asked reason status problem)) :
    s.made i = none ∨ ∃ client, s.answers i = some client ∧ connectionType client ≠ some asked
      ∧ (clientId client = none ∧ reason = wrongKind client
        ∨ ∃ id, clientId client = some id ∧ s.made i = some id
        ∧ (s.live id = false ∨ reason = keptReason client id)
        ∧ (reason = deletedReason client → s.live id = false)) := by
  have hright := h.outcome i _ hresult
  rw [hcall, herr] at hright
  unfold Right at hright
  cases hanswer : s.answers i with
  | none =>
    rw [hanswer] at hright
    obtain ⟨err, herr, hdeclined⟩ := hright
    cases herr
    exact .inl (h.declined i (hdeclined asked reason status problem rfl))
  | some client =>
    rw [hanswer] at hright
    have hmade := hright.2
    unfold MadeRight at hmade
    split at hmade
    · exact absurd hmade.symm mapError_sdk_ne
    · next hkind =>
      obtain ⟨kind', hkind', hmade⟩ := hmade
      have hother : ∀ asked, kind' = asked → connectionType client ≠ some asked := by
        rintro _ rfl heq
        refine hkind fun other hother => ?_
        rw [hkind'] at hother
        cases hother
        exact heq
      refine .inr ⟨client, rfl, ?_⟩
      cases hid : clientId client with
      | none =>
        rw [hid] at hmade
        cases hmade
        exact ⟨hother asked rfl, .inl ⟨rfl, rfl⟩⟩
      | some id =>
        rw [hid] at hmade
        obtain ⟨hmade, ⟨hdeleted, habsent⟩ | hkept⟩ := hmade
        · cases hdeleted
          exact ⟨hother asked rfl, .inr ⟨id, rfl, hmade, .inl habsent.not_live,
            fun _ => habsent.not_live⟩⟩
        · cases hkept
          exact ⟨hother asked rfl, .inr ⟨id, rfl, hmade, .inr rfl,
            fun hreason => absurd hreason (keptReason_ne_deletedReason client id)⟩⟩

/-- **No client that nobody asked for is kept in silence.** A call that returns an identity has it for a
client that the API says is of the kind asked for, with the credentials that it was made with. If the
kind is refused, the API made nothing, or the client that it made is gone, or the error says which one is
left; it says that the client was deleted only if it is gone, and says no more than the kind where the
API gave no id. -/
theorem no_silent_orphan (lib : ProvisionLibraries) (secrets : Nat → ClientSecrets)
    (calls : Nat → ClientCall)
    (events : List (PoolEvent ClientRequest ClientResponse Unit ClientsEvent)) (i : Nat) (hub : Value)
    (kind : Option String) (options : BootstrapIdentityOptions)
    (result : Except ProvisionError BootstrapIdentityResult)
    (hcall : calls i = .create hub kind options)
    (hresult : (clientsRun lib secrets calls events).outcome i = some (.created result)) :
    let s := clientsRun lib secrets calls events
    (∀ made, result = .ok made →
      s.answers i = some made.client
      ∧ (∀ asked, kind.map trim = some asked → connectionType made.client = some asked)
      ∧ ∃ payload hubId spec, s.posted i = some payload
        ∧ Names payload hubId (kind.map trim) (siteIdOf options) (secrets i) spec
        ∧ ((member "initial_identify" made.client).bind Json.Value.asObject = none →
          made.identity.accessKey = (secrets i).apiKey ∧ made.identity.password = (secrets i).password
            ∧ made.identity.siteId = siteIdOf options))
    ∧ ∀ asked reason status problem,
      result = .error (.unsupportedConnectionType asked reason status problem) →
      s.made i = none ∨ ∃ client, s.answers i = some client ∧ connectionType client ≠ some asked
        ∧ (clientId client = none ∧ reason = wrongKind client
          ∨ ∃ id, clientId client = some id ∧ s.made i = some id
          ∧ (s.live id = false ∨ reason = keptReason client id)
          ∧ (reason = deletedReason client → s.live id = false)) :=
  have h := clientsRun_sane lib secrets calls events
  ⟨fun _ hok => h.made_right hcall hresult hok, fun _ _ _ _ herr => h.refused_right hcall hresult herr⟩

section

/-- Libraries that read and print nothing, and one hub, kind and client. -/
def bareLibraries : ProvisionLibraries where
  parseUrl _ := none
  fromStr _ := .error ""
  print _ := ""
  numbers := decimalNumbers
  urls := bareHubUrls

def bareSecrets : ClientSecrets := ⟨"key", "secret"⟩

def bareHub : Value := .object [("id", .string "h1")]

def bareOptions : BootstrapIdentityOptions where
  name := "lamp"
  siteId := none
  spec := []
  ownerId := none
  active := none
  preferredProtocols := []
  idempotencyKey := none

/-- What the API answers that knows no kinds. -/
def untypedClient : Value :=
  .object [("etag", .string "e1"), ("id", .string "c1"), ("spec", .object [])]

/-- A client is made that is of no kind, and it is deleted. -/
def untypedEvents : List (PoolEvent ClientRequest ClientResponse Unit ClientsEvent) :=
  [.start 0 (), .world (.make 0 none "c1" "e1"), .answer 0 fun _ => .ok untypedClient,
    .world (.process ⟨0, 0, "c1", "e1"⟩), .answer 0 fun _ => .ok .null]

/-- It is gone, and the call says so. -/
theorem no_silent_orphan_untyped :
    let s := clientsRun bareLibraries (fun _ => bareSecrets)
      (fun _ => .create bareHub (some "home_assistant") bareOptions) untypedEvents
    s.answers 0 = some untypedClient ∧ s.live "c1" = false := by
  intro s
  have hanswer : s.answers 0 = some untypedClient := rfl
  have hmade : s.made 0 = some "c1" := rfl
  refine ⟨hanswer, ?_⟩
  rcases (no_silent_orphan bareLibraries (fun _ => bareSecrets)
      (fun _ => .create bareHub (some "home_assistant") bareOptions) untypedEvents 0 bareHub
      (some "home_assistant") bareOptions
      (.error (.unsupportedConnectionType "home_assistant" (deletedReason untypedClient) none none))
      rfl rfl).2 _ _ _ _ rfl with hnone | ⟨client, hclient, -, ⟨hid, -⟩ | ⟨id, hid, hmade', -, hgone⟩⟩
  · rw [hmade] at hnone
    cases hnone
  · rw [hanswer] at hclient
    cases hclient
    cases hid
  · rw [hanswer] at hclient
    cases hclient
    rw [hmade] at hmade'
    cases hmade'
    exact hgone rfl

end

end Thalovant.Api
