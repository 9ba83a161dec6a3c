import Thalovant.Client.Conversations
import Thalovant.Client.Replies

/-!
# The context of an ask

An ask writes its request id into the context that it sends, and takes the events that bring it back. An
id is written in several places, and read from them in some order; an empty one is not written.

* `correlates_iff`: asks with different request ids hear their own replies and no others exactly if
  neither id is empty
-/

namespace Thalovant.Client

/-! ## Building the context -/

/-- Put one entry of a context over those of another. -/
def mergeEntry (merged : Context) (e : String × Value) : Context :=
  match if e.1 = "session" then e.2.asObject else none with
  | some nextSession =>
    merged.insert "session"
      (.object (nextSession.foldl (fun session e => Map.insert e.1 e.2 session)
        (sessionFromContext merged)))
  | none => merged.insert e.1 e.2

def mergeContext (base extra : Option Context) : Context :=
  (extra.getD []).foldl mergeEntry (base.getD [])

/-- What is asked for with one request. -/
structure RequestContextOptions where
  sttLang : Option String := none
  pipeline : List String := []
  location : Option Context := none

def RequestContextOptions.stages (options : RequestContextOptions) : List String :=
  (options.pipeline.map trim).filter (· ≠ "")

def requestContext (base : Option Context) (options : RequestContextOptions) : Option Context :=
  let result := base.getD []
  let result := if options.stages.isEmpty then result
    else result.insert "session" (.object
      ((sessionFromContext result).insert "pipeline" (.array (options.stages.map .string))))
  let result := match (options.sttLang.map trim).filter (· ≠ "") with
    | some lang => result.insert "stt_lang" (.string lang)
    | none => result
  let result := match options.location.filter fun location => !location.isEmpty with
    | some location => result.insert "location" (.object location)
    | none => result
  if result.isEmpty then none else some result

/-- Put a text under a key, unless it is empty. -/
def setText (key : String) (text : String) (m : Map) : Map :=
  if text = "" then m else m.insert key (.string text)

/-- Put a text under a key, unless it is empty or there is something. -/
def orSetText (key : String) (text : String) (m : Map) : Map :=
  if text = "" || m.containsKey key then m else m.insert key (.string text)

/-- The session of a context that is sent. What is not given is an empty text here. -/
def correlatedSession (sessionId siteId lang requestId : String) (session : Map) : Map :=
  setText "request_id" requestId
    (orSetText "lang" lang (orSetText "site_id" siteId (setText "session_id" sessionId session)))

def contextWithCorrelation (context : Option Context) (sessionId siteId lang requestId : Option String) :
    Context :=
  let next := mergeContext context none
  let session := correlatedSession (sessionId.getD "") (siteId.getD "") (lang.getD "")
    (requestId.getD "") (sessionFromContext next)
  let next := setText "thalovant_request_id" (requestId.getD "")
    (setText "request_id" (requestId.getD "") next)
  if session.isEmpty then next else next.insert "session" (.object session)

/-- What an ask is given and what it finds as it starts. -/
structure AskInput where
  context : Option Context
  hints : RequestContextOptions
  conversations : Conversations
  sessionId : String
  siteId : String
  lang : String

/-- The context that an ask sends. -/
def AskInput.sent (input : AskInput) (requestId : String) : Context :=
  let context := requestContext input.context input.hints
  contextWithCorrelation
    ((continueConversation context input.sessionId input.conversations).or context)
    (some input.sessionId) (some input.siteId) (some input.lang) (some requestId)

/-! ## Replies -/

/-- A member, unless it is `null`. -/
def present (key : String) (context : Context) : Option Value :=
  (context.get key).filter fun value => !value.isNull

/-- The first of a list of peers, or the peer. -/
def firstPeer : Value → Value
  | .array (peer :: _) => peer
  | other => other

def replyContext (context : Context) : Context :=
  let swapped := match present "destination" context with
    | some destination => context.insert "source" (firstPeer destination)
    | none => context
  match present "source" context, present "destination" context with
  | some source, _ => swapped.insert "destination" source
  | none, some _ => swapped.remove "destination"
  | none, none => swapped

def eventMatchesContext (event : Event) (expected : Option Context) : Bool :=
  match expected with
  | none => true
  | some expected =>
    match requestIdFromContext expected, event.requestId with
    | some expectedRequest, some eventRequest => expectedRequest = eventRequest
    | _, _ =>
      match sessionIdFromContext expected, event.sessionId with
      | some expectedSession, some eventSession => expectedSession = eventSession
      | _, _ => true

/-! ## What is under a key -/

theorem get_setText (j key text : String) (m : Map) :
    (setText key text m).get j = if j = key ∧ text ≠ "" then some (.string text) else m.get j := by
  unfold setText
  by_cases htext : text = ""
  · rw [if_pos htext, if_neg fun h => h.2 htext]
  · rw [if_neg htext, Map.get_insert]
    exact if_congr (by simp [htext]) rfl rfl

/-- What there is stays. -/
theorem get_orSetText {j key text : String} {m : Map} {v : Value} (h : m.get j = some v) :
    (orSetText key text m).get j = some v := by
  unfold orSetText
  split
  · exact h
  · next hnew =>
    rw [Map.get_insert]
    split
    · next hj =>
      subst hj
      simp [Map.containsKey, h] at hnew
    · exact h

theorem get_correlatedSession {sessionId siteId lang requestId key : String} {session : Map}
    {v : Value} (h : session.get key = some v) (hsession : key ≠ "session_id")
    (hrequest : key ≠ "request_id") :
    (correlatedSession sessionId siteId lang requestId session).get key = some v := by
  unfold correlatedSession
  rw [get_setText, if_neg fun h => hrequest h.1]
  refine get_orSetText (get_orSetText ?_)
  rw [get_setText, if_neg fun h => hsession h.1, h]

@[simp] theorem mergeContext_none (context : Option Context) :
    mergeContext context none = context.getD [] := rfl

section

variable {context : Option Context} {sessionId siteId lang requestId : Option String}

theorem get_contextWithCorrelation {key : String} (hsession : key ≠ "session")
    (hrequest : key ≠ "request_id") (hthalovant : key ≠ "thalovant_request_id") :
    (contextWithCorrelation context sessionId siteId lang requestId).get key
      = Map.get key (context.getD []) := by
  unfold contextWithCorrelation
  extract_lets next session next'
  have hnext : next'.get key = Map.get key (context.getD []) := by
    rw [get_setText, if_neg fun h => hthalovant h.1, get_setText, if_neg fun h => hrequest h.1]
    rfl
  split
  · exact hnext
  · rw [Map.get_insert, if_neg hsession, hnext]

/-- An empty request id is not written. -/
theorem get_contextWithCorrelation_empty {key : String} (hsession : key ≠ "session") :
    (contextWithCorrelation context sessionId siteId lang (some "")).get key
      = Map.get key (context.getD []) := by
  unfold contextWithCorrelation
  extract_lets next session next'
  split
  · rfl
  · rw [Map.get_insert, if_neg hsession]
    rfl

/-! ## Reading the request id -/

theorem requestIdFromMap_of_get {values : Map} {id : String}
    (h : values.get "request_id" = some (.string id)) : requestIdFromMap values = some id := by
  simp [requestIdFromMap, Map.getStr, h, Json.Value.asStr]

theorem requestIdFromContext_of_get {values : Map} {id : String}
    (h : values.get "request_id" = some (.string id)) : requestIdFromContext values = some id := by
  rw [requestIdFromContext, requestIdFromMap_of_get h]
  rfl

theorem get_requestId_contextWithCorrelation {id : String} (h : id ≠ "") :
    (contextWithCorrelation context sessionId siteId lang (some id)).get "request_id"
      = some (.string id) := by
  unfold contextWithCorrelation
  extract_lets next session next'
  have hnext : next'.get "request_id" = some (.string id) := by
    rw [get_setText, if_neg (by simp), get_setText, if_pos ⟨rfl, h⟩]
    rfl
  split
  · exact hnext
  · rw [Map.get_insert, if_neg (by simp), hnext]

end

/-- A reply's context is that of the request, but for who sent it and to whom. -/
theorem get_replyContext {key : String} (hsource : key ≠ "source") (hdestination : key ≠ "destination")
    (context : Context) : (replyContext context).get key = context.get key := by
  unfold replyContext
  extract_lets swapped
  have hswapped : swapped.get key = context.get key := by
    show (match present "destination" context with
      | some destination => context.insert "source" (firstPeer destination)
      | none => context).get key = _
    split
    · rw [Map.get_insert, if_neg hsource]
    · rfl
  split
  · rw [Map.get_insert, if_neg hdestination, hswapped]
  · rw [Map.remove, Map.get, SortedMap.get_erase, if_neg hdestination]
    exact hswapped
  · exact hswapped

/-! ## The correlation -/

/-- The event brings back a context, or has that of a reply to it. -/
def Echoes (e : Event) (context : Context) : Prop :=
  e.context = context ∨ e.context = replyContext context

theorem Echoes.requestId_eq {e : Event} {id : String} (hid : id ≠ "") {input : AskInput}
    (h : Echoes e (input.sent id)) : e.requestId = some id := by
  have hget : e.context.get "request_id" = some (.string id) := by
    rcases h with h | h
    · rw [h, AskInput.sent, get_requestId_contextWithCorrelation hid]
    · rw [h, get_replyContext (by simp) (by simp), AskInput.sent, get_requestId_contextWithCorrelation hid]
  rw [Event.requestId, requestIdFromContext_of_get hget]
  rfl

/-- Whether an ask takes an event depends on its request id alone, if there is one. -/
theorem belongs_iff {ask : Ask} {heard : Heard} {id : String} (hid : id ≠ "")
    (h : heard.event.requestId = some id) : ask.belongs heard = true ↔ id = ask.requestId := by
  unfold Ask.belongs
  rw [h]
  split
  · simp [refusalBelongsToAsk, hid]
  · simp

theorem eventMatchesContext_sent {e : Event} {id own : String} (hown : own ≠ "") (input : AskInput)
    (h : e.requestId = some id) :
    eventMatchesContext e (some (input.sent own)) = true ↔ own = id := by
  have hexpected : requestIdFromContext (input.sent own) = some own :=
    requestIdFromContext_of_get (get_requestId_contextWithCorrelation hown)
  simp [eventMatchesContext, hexpected, h]

/-- An echo of what an ask with this request id sends is read so, and taken. -/
def RoundTrips (id : String) : Prop :=
  ∀ (input : AskInput) (e : Event), Echoes e (input.sent id) →
    e.requestId = some id
    ∧ (∀ (ask : Ask) (time : Nat) (inFlight : InFlight), ask.requestId = id →
      ask.belongs { time := time, event := e, inFlight := inFlight } = true)
    ∧ eventMatchesContext e (some (input.sent id)) = true

/-- No echo of what an ask with the other request id sends is taken by an ask with this one. -/
def Separate (id other : String) : Prop :=
  ∀ (input input' : AskInput) (e : Event), Echoes e (input'.sent other) →
    (∀ (ask : Ask) (time : Nat) (inFlight : InFlight), ask.requestId = id →
      ask.belongs { time := time, event := e, inFlight := inFlight } = false)
    ∧ eventMatchesContext e (some (input.sent id)) = false

theorem roundTrips_of_ne {id : String} (hid : id ≠ "") : RoundTrips id := by
  intro input e h
  have hrequest := h.requestId_eq hid
  exact ⟨hrequest, fun ask time inFlight hask => (belongs_iff hid hrequest).mpr hask.symm,
    (eventMatchesContext_sent hid input hrequest).mpr rfl⟩

theorem separate_of_ne {id other : String} (hne : id ≠ other) (hid : id ≠ "") (hother : other ≠ "") :
    Separate id other := by
  intro input input' e h
  have hrequest := h.requestId_eq hother
  refine ⟨fun ask time inFlight hask => Bool.eq_false_iff.mpr fun hbelongs => ?_,
    Bool.eq_false_iff.mpr fun hmatches => ?_⟩
  · exact hne (hask.symm.trans ((belongs_iff hother hrequest).mp hbelongs).symm)
  · exact hne ((eventMatchesContext_sent hid input hrequest).mp hmatches)

/-! ## What is kept of the caller's context -/

/-- A hint is given for this key. -/
def RequestContextOptions.Names (options : RequestContextOptions) (key : String) : Prop :=
  key = "stt_lang" ∧ (options.sttLang.map trim).filter (· ≠ "") ≠ none
  ∨ key = "location" ∧ (options.location.filter fun location => !location.isEmpty) ≠ none

/-- The context with the hints in it, where the caller gave none an empty one. -/
theorem requestContext_getD (base : Option Context) (options : RequestContextOptions) :
    ∃ result, (requestContext base options).getD [] = result
      ∧ (∀ key, key ≠ "session" → ¬options.Names key → Map.get key result = Map.get key (base.getD []))
      ∧ Map.get "session" result = if options.stages.isEmpty then Map.get "session" (base.getD [])
        else some (.object ((sessionFromContext (base.getD [])).insert "pipeline"
          (.array (options.stages.map .string)))) := by
  unfold requestContext
  extract_lets plain staged lang result
  refine ⟨result, ?_, fun key hsession hnames => ?_, ?_⟩
  · cases hresult : result with
    | nil => rfl
    | cons e rest => rfl
  · -- the three hints are inserted one after the other, under keys of their own
    have hstaged : Map.get key staged = Map.get key plain := by
      dsimp only [staged]
      split
      · rfl
      · rw [Map.get_insert, if_neg hsession]
    have hlang : Map.get key lang = Map.get key staged := by
      dsimp only [lang]
      split
      · next hgiven =>
        rw [Map.get_insert, if_neg]
        exact fun hkey => hnames (.inl ⟨hkey, by rw [hgiven]; exact nofun⟩)
      · rfl
    have hresult : Map.get key result = Map.get key lang := by
      dsimp only [result]
      split
      · next hgiven =>
        rw [Map.get_insert, if_neg]
        exact fun hkey => hnames (.inr ⟨hkey, by rw [hgiven]; exact nofun⟩)
      · rfl
    rw [hresult, hlang, hstaged]
  · have hlang : Map.get "session" lang = Map.get "session" staged := by
      dsimp only [lang]
      split
      · rw [Map.get_insert, if_neg (by simp)]
      · rfl
    have hresult : Map.get "session" result = Map.get "session" lang := by
      dsimp only [result]
      split
      · rw [Map.get_insert, if_neg (by simp)]
      · rfl
    rw [hresult, hlang]
    dsimp only [staged]
    split
    · rfl
    · rw [Map.get_insert, if_pos rfl]

/-- What the session has, the turn before does not replace. -/
theorem get_carryConversation_of_get {previous session : Map} {key : String} {v : Value}
    (h : session.get key = some v) : (carryConversation previous session).get key = some v := by
  unfold carryConversation
  generalize CONVERSATION_SESSION_FIELDS = fields
  induction fields generalizing session with
  | nil => exact h
  | cons field fields ih =>
    refine ih ?_
    unfold carryField
    split
    · exact h
    · next hnew =>
      split
      · split
        · rw [Map.get_insert]
          split
          · next hkey =>
            subst hkey
            simp [Map.containsKey, h] at hnew
          · exact h
        · exact h
      · exact h

/-- The context that the correlation is written into. -/
theorem get_continued (input : AskInput) {key : String} (hsession : key ≠ "session")
    (hnames : ¬input.hints.Names key) :
    Map.get key (((continueConversation (requestContext input.context input.hints) input.sessionId
      input.conversations).or (requestContext input.context input.hints)).getD [])
      = Map.get key (input.context.getD []) := by
  obtain ⟨result, hresult, hkept, -⟩ := requestContext_getD input.context input.hints
  rw [← hkept key hsession hnames, ← hresult]
  unfold continueConversation
  cases input.conversations.store.get input.sessionId with
  | none => rfl
  | some entry =>
    show Map.get key (Map.insert "session" _ _) = _
    rw [Map.get_insert, if_neg hsession]

theorem session_continued (input : AskInput) {key : String} {v : Value}
    (h : (sessionFromContext (input.context.getD [])).get key = some v)
    (hpipeline : key = "pipeline" → input.hints.stages = []) :
    (sessionFromContext (((continueConversation (requestContext input.context input.hints)
      input.sessionId input.conversations).or (requestContext input.context input.hints)).getD [])).get key
      = some v := by
  obtain ⟨result, hresult, -, hsession⟩ := requestContext_getD input.context input.hints
  have hkept : (sessionFromContext result).get key = some v := by
    unfold sessionFromContext
    rw [hsession]
    split
    · exact h
    · next hstages =>
      show Map.get key (Map.insert "pipeline" _ _) = _
      rw [Map.get_insert, if_neg, h]
      exact fun hkey => hstages (by rw [hpipeline hkey]; rfl)
  unfold continueConversation
  rw [hresult]
  cases input.conversations.store.get input.sessionId with
  | none =>
    rw [show (Option.map _ none).or (requestContext input.context input.hints)
      = requestContext input.context input.hints from rfl, hresult]
    exact hkept
  | some entry =>
    show Map.get key (sessionFromContext (Map.insert "session" _ result)) = _
    rw [sessionFromContext, Map.get_insert, if_pos rfl]
    exact get_carryConversation_of_get hkept

/-- The session that is sent has what the session of the context has. -/
theorem get_session_contextWithCorrelation {context : Option Context}
    {sessionId siteId lang requestId : Option String} {key : String} {v : Value}
    (h : (sessionFromContext (context.getD [])).get key = some v) (hsession : key ≠ "session_id")
    (hrequest : key ≠ "request_id") :
    (sessionFromContext (contextWithCorrelation context sessionId siteId lang requestId)).get key
      = some v := by
  unfold contextWithCorrelation
  extract_lets next session next'
  have hget : session.get key = some v := get_correlatedSession h hsession hrequest
  split
  · next hempty =>
    rw [List.isEmpty_iff.mp hempty] at hget
    cases hget
  · rw [sessionFromContext, Map.get_insert, if_pos rfl]
    exact hget

/-- An ask's context keeps every other key of the caller's, and what the caller's session has. -/
def Kept (id : String) : Prop :=
  ∀ input : AskInput,
    (∀ key, key ≠ "session" → key ≠ "request_id" → key ≠ "thalovant_request_id" →
      ¬input.hints.Names key → (input.sent id).get key = Map.get key (input.context.getD []))
    ∧ ∀ key v, (sessionFromContext (input.context.getD [])).get key = some v →
      key ≠ "session_id" → key ≠ "request_id" → (key = "pipeline" → input.hints.stages = []) →
      (sessionFromContext (input.sent id)).get key = some v

theorem kept (id : String) : Kept id := by
  refine fun input => ⟨fun key hsession hrequest hthalovant hnames => ?_,
    fun key v h hsession hrequest hpipeline => ?_⟩
  · rw [AskInput.sent, get_contextWithCorrelation hsession hrequest hthalovant,
      get_continued input hsession hnames]
  · exact get_session_contextWithCorrelation (session_continued input h hpipeline) hsession hrequest

/-! ## Empty request ids -/

/-- An ask whose caller gives a context with a request id in it, and nothing else. -/
def plainInput (requestId : String) : AskInput where
  context := some [("request_id", .string requestId)]
  hints := {}
  conversations := {}
  sessionId := "session"
  siteId := "site"
  lang := "en-us"

theorem get_requestId_plainInput (requestId : String) :
    ((plainInput requestId).sent "").get "request_id" = some (.string requestId) := by
  rw [AskInput.sent, get_contextWithCorrelation_empty (by simp)]
  rfl

theorem requestId_plainInput (requestId : String) :
    requestIdFromContext ((plainInput requestId).sent "") = some requestId :=
  requestIdFromContext_of_get (get_requestId_plainInput requestId)

/-- An empty request id is not written, so it is not read back. -/
theorem not_roundTrips_empty : ¬RoundTrips "" := by
  intro h
  have hrequest := (h (plainInput "other")
    { name := "speak", context := (plainInput "other").sent "" } (.inl rfl)).1
  rw [Event.requestId, requestId_plainInput] at hrequest
  exact absurd (Option.some.inj hrequest) (by decide)

/-- Without a request id of its own, an ask may send another's. -/
theorem not_separate_empty {id other : String} (h : id = "" ∨ other = "") : ¬Separate id other := by
  intro hseparate
  rcases h with rfl | rfl
  · by_cases hother : other = ""
    · subst hother
      have hmatches := (hseparate (plainInput "") (plainInput "")
        { name := "speak", context := (plainInput "").sent "" } (.inl rfl)).2
      simp [eventMatchesContext, Event.requestId, requestId_plainInput] at hmatches
    · let e : Event := { name := "speak", context := (plainInput "").sent other }
      have hrequest : e.requestId = some other := Echoes.requestId_eq hother (.inl rfl)
      have hmatches := (hseparate (plainInput other) (plainInput "") e (.inl rfl)).2
      simp [eventMatchesContext, hrequest, requestId_plainInput] at hmatches
  · have hbelongs := (hseparate (plainInput "") (plainInput id)
      { name := "speak", context := (plainInput id).sent "" } (.inl rfl)).1
      { requestId := id, deadline := 0, representable := by decide } 0 ⟨1, 0, 0⟩ rfl
    simp [Ask.belongs, Event.requestId, requestId_plainInput, EVENT_POLICY_DENIED] at hbelongs

/-! ## The result -/

/-- **The correlation of an ask.** What an ask sends is read back with exactly its request id, and taken,
exactly if that id is not empty; and it is told from what an ask with another id sends exactly if neither
is. The rest of the caller's context is always kept, and a reply's differs only in who sent it and to
whom. -/
theorem correlates_iff (id : String) :
    (RoundTrips id ↔ id ≠ "")
    ∧ (∀ other, id ≠ other → (Separate id other ↔ id ≠ "" ∧ other ≠ ""))
    ∧ Kept id
    ∧ ∀ (context : Context) (key : String), key ≠ "source" → key ≠ "destination" →
      (replyContext context).get key = context.get key := by
  refine ⟨⟨fun h hid => ?_, roundTrips_of_ne⟩, fun other hne => ⟨fun h => ?_, fun h => ?_⟩,
    kept id, fun context key hsource hdestination => get_replyContext hsource hdestination context⟩
  · exact not_roundTrips_empty (hid ▸ h)
  · exact ⟨fun hid => not_separate_empty (.inl hid) h, fun hother => not_separate_empty (.inr hother) h⟩
  · exact separate_of_ne hne h.1 h.2

/-- An ask accepts an empty request id, which no event brings back. -/
theorem correlation_fails :
    ¬∀ (control : ConnectionControl) (id : String), (control.reserveReply false id).isOk = true →
      RoundTrips id := by
  intro h
  refine not_roundTrips_empty (h {} "" ?_)
  decide

end Thalovant.Client
