import Mathlib.Data.Prod.Lex
import Thalovant.Intents.DescribeMany
import Thalovant.Lib.SortedMap

/-!
# The inventory of intents

Everything a hub can be asked, in each language, by skill. Each language asked is listed: by its tag,
else in its usual form, else in the language nearest to it of those that the hub lists without being
asked for one. Listings in the same language share one tag.

What the hub answers is a parameter, and so are the tables that languages are matched with.
-/

namespace Thalovant.Intents

def EVENT_ADAPT_MANIFEST_GET : String := "intent.service.adapt.manifest.get"
def EVENT_PADATIOUS_MANIFEST_GET : String := "intent.service.padatious.manifest.get"

def DEFAULT_LANG : String := "en-us"

/-- The libraries below. -/
structure LanguageTools where
  lowercase : String → String
  /-- `language_matching::usual_form`. -/
  usualForm : String → Option String
  /-- `language_matching::closest_language`. -/
  closestLanguage : String → List String → Option String
  /-- How the JSON library prints a value. -/
  print : Value → String

/-- A hub as a call finds it. -/
structure InventoryHub where
  /-- The reply to `ovos.intent.list`, of a language or of none, with the definitions or without. -/
  list : Option String → Bool → Result Event
  /-- The reply of an engine's own manifest, of a language. -/
  engineManifest : String → String → Result Event
  describeMany : List Wanted → Result Described

structure IntentInventoryOptions where
  describe : Bool
  fallback : Bool
  nearest : Bool

/-- The rows of the hub's manifest in one language. -/
abbrev Listing := String × List IntentRegistration

/-! ## What was found -/

structure HubIntent where
  skillId : String
  name : String
  engine : String
  enabled : Bool
  /-- The sentences of each language. -/
  phrases : List (String × List String)

structure HubSkillIntents where
  skillId : String
  intents : List HubIntent

inductive IntentInventorySource where
  | intentManifest
  | engineManifests
  deriving DecidableEq

structure HubIntentInventory where
  languages : List String
  skills : List HubSkillIntents
  source : IntentInventorySource
  denied : List String
  listedIn : List String

/-- Every intent across skills. -/
def HubIntentInventory.intents (inventory : HubIntentInventory) : List HubIntent :=
  inventory.skills.flatMap fun skill => skill.intents

section

variable (tools : LanguageTools) (hub : InventoryHub) (opts : IntentInventoryOptions)

/-! ## Listing -/

def chosenLanguages (languages : List String) : List String :=
  let chosen := languages.foldl (fun chosen language =>
    let tag := trim language
    if tag ≠ "" && !chosen.any (fun seen => sameLanguage tools.lowercase seen tag) then chosen ++ [tag]
    else chosen) []
  if chosen.isEmpty then [DEFAULT_LANG] else chosen

/-- The hub's wording for a listing that failed. -/
def listingError (event : Event) : String :=
  let detail := match Map.get "error" event.data with
    | some (.string text) => trim text
    | some .null | none => ""
    | some other => tools.print other
  EVENT_INTENT_LIST ++ " failed: " ++ (if detail = "" then "the hub refused the listing" else detail)

def listIntents (lang : String) : Result (List IntentRegistration) :=
  match hub.list (some lang) opts.describe with
  | .error err => .error err
  | .ok event =>
    if Map.get "ok" event.data = some (.bool false) then .error (.runtime (listingError tools event))
    else .ok (registrationsOf event)

def sentenceRows (rows : List IntentRegistration) : Nat :=
  (rows.filter fun row => row.enabled && row.method = "template").length

def canCarrySentences (rows : List IntentRegistration) : Bool :=
  rows.any fun row => row.enabled && row.method = "template"

/-- The hub could not answer, which is no answer of another kind. -/
def isUnanswered : ThalovantError → Bool
  | .timeout _ | .runtime _ | .policyDenied _ _ _ _ _ | .unanswered _ => true
  | _ => false

/-- One language's listing, and the tag the hub listed it under. -/
def listing (lang : String) : Result Listing :=
  match listIntents tools hub opts lang with
  | .error err => .error err
  | .ok rows =>
    if !opts.nearest || canCarrySentences rows then .ok (lang, rows)
    else
      match tools.usualForm lang with
      | none => .ok (lang, rows)
      | some usual =>
        match listIntents tools hub opts usual with
        | .error err =>
          if isUnanswered err && !rows.isEmpty then .ok (lang, rows) else .error err
        | .ok retried =>
          if canCarrySentences retried || (!retried.isEmpty && rows.isEmpty) then .ok (usual, retried)
          else .ok (lang, rows)

/-- The hub's whole manifest, by language. -/
structure HubLanguages where
  byLang : List Listing
  sessionLang : Option String

/-- A row goes to the rows of its language. -/
def addByLang (lowercase : String → String) (row : IntentRegistration) : List Listing → List Listing
  | [] => [(row.lang, [row])]
  | (seen, rows) :: byLang =>
    if sameLanguage lowercase seen row.lang then (seen, rows ++ [row]) :: byLang
    else (seen, rows) :: addByLang lowercase row byLang

def listHubLanguages : Result (Option HubLanguages) :=
  match hub.list none opts.describe with
  | .error err => if isUnanswered err then .ok none else .error err
  | .ok event =>
    if Map.get "ok" event.data = some (.bool false) then .ok none
    else
      let rows := (registrationsOf event).filter fun row => row.lang ≠ ""
      .ok (some
        { byLang := rows.foldl (fun byLang row => addByLang tools.lowercase row byLang) []
          sessionLang := ((sessionFromContext event.context).getStr "lang").filter
            fun lang => !isBlank lang })

/-- The first of the candidates with the most sentences. -/
def mostSentences : String × Nat → List (String × Nat) → String × Nat
  | best, [] => best
  | best, candidate :: candidates =>
    mostSentences (if candidate.2 > best.2 then candidate else best) candidates

def nearestHubLanguage (asked : String) (listed : List Listing) (hubLang : Option String) :
    Option String :=
  let candidates := (listed.map fun (tag, rows) => (tag, sentenceRows rows)).filter fun c => c.2 > 0
  let tags := candidates.map Prod.fst
  match candidates with
  | [] => none
  | first :: others =>
    match tools.closestLanguage asked tags with
    | some found => some found
    | none =>
      match (hubLang.filter fun lang => !isBlank lang).bind fun lang => tools.closestLanguage lang tags with
      | some own => some own
      | none => some (mostSentences first others).1

/-- The listing in the nearest of the hub's languages. -/
def nearestListing (lang : String) (hubLanguages : Option HubLanguages) (listing : Listing) : Listing :=
  match hubLanguages with
  | none => listing
  | some languages =>
    match nearestHubLanguage tools lang languages.byLang languages.sessionLang with
    | none => listing
    | some chosen => (languages.byLang.find? fun entry => entry.1 = chosen).getD listing

/-- Why there is no listing: the hub did not list the language, or its languages. -/
inductive ListingStop where
  | listing (err : ThalovantError)
  | languages (err : ThalovantError)

/-- What is known of the hub's languages, which it is asked for at most once. -/
abbrev KnownLanguages := Option (Option HubLanguages)

/-- The listing that is taken for a language. -/
def takeListing (lang : String) (known : KnownLanguages) :
    Except ListingStop (Listing × KnownLanguages) :=
  match listing tools hub opts lang with
  | .error err => .error (.listing err)
  | .ok listing =>
    if opts.nearest && !canCarrySentences listing.2 then
      match known with
      | some languages => .ok (nearestListing tools lang languages listing, known)
      | none =>
        match listHubLanguages tools hub opts with
        | .error err => .error (.languages err)
        | .ok languages => .ok (nearestListing tools lang languages listing, some languages)
    else .ok (listing, known)

/-- A listing takes the place of one in the same language, under the tag of that. -/
def mergeListing (lowercase : String → String) (listing : Listing) :
    List Listing → String × List Listing
  | [] => (listing.1, [listing])
  | (seen, rows) :: listed =>
    if sameLanguage lowercase seen listing.1 then (seen, (seen, listing.2) :: listed)
    else
      let (tag, listed) := mergeListing lowercase listing listed
      (tag, (seen, rows) :: listed)

structure Listed where
  listed : List Listing := []
  listedIn : List String := []

def Listed.add (lowercase : String → String) (listed : Listed) (listing : Listing) : Listed :=
  let (tag, merged) := mergeListing lowercase listing listed.listed
  { listed := merged, listedIn := listed.listedIn ++ [tag] }

def listLanguages : List String → Listed → KnownLanguages → Except ListingStop Listed
  | [], listed, _ => .ok listed
  | lang :: asked, listed, known =>
    match takeListing tools hub opts lang known with
    | .error stop => .error stop
    | .ok (listing, known) => listLanguages asked (listed.add tools.lowercase listing) known

/-! ## Names only -/

/-- The texts that an engine's manifest names. -/
def namesOf (event : Event) : List String :=
  ((((Map.get "intents" event.data).bind Json.Value.asArray).getD []).filterMap
    Json.Value.asStr).filter (· ≠ "")

def intentNames (lang : String) : Result (List (String × List String)) :=
  [("adapt", EVENT_ADAPT_MANIFEST_GET), ("padatious", EVENT_PADATIOUS_MANIFEST_GET)].mapM
    fun (engine, query) => do
      let event ← hub.engineManifest query lang
      return (engine, namesOf event)

/-- The skill and the name of an intent in an engine's manifest. -/
def splitIntentId (raw : String) : String × String :=
  match splitOnce [':'] raw.toList with
  | some (skillId, intentName) =>
    if intentName.isEmpty then ("", raw) else (String.ofList skillId, String.ofList intentName)
  | none => ("", raw)

/-- The first engine to name an intent wins. -/
def addName (engine : String) (bySkill : List (String × List (String × HubIntent))) (raw : String) :
    List (String × List (String × HubIntent)) :=
  let (skillId, name) := splitIntentId raw
  let intents := (SortedMap.get skillId bySkill).getD []
  let intent := (SortedMap.get name intents).getD
    { skillId := skillId, name := name, engine := engine, enabled := true, phrases := [] }
  SortedMap.insert skillId (SortedMap.insert name intent intents) bySkill

def inventoryFromNames (names : List (String × List String)) (languages : List String)
    (denied : String) : HubIntentInventory :=
  let bySkill := names.foldl (fun bySkill (engine, entries) => entries.foldl (addName engine) bySkill) []
  { languages := languages
    listedIn := languages
    skills := bySkill.map fun (skillId, intents) =>
      { skillId := skillId, intents := intents.map Prod.snd }
    source := .engineManifests
    denied := [denied] }

/-! ## Sentences -/

/-- What is to be described of a listing. -/
def wantedIn (listing : Listing) : List Wanted :=
  (listing.2.filter fun row => row.enabled && row.definition.isNone && row.method = "template").map
    fun row => (row.skillId, row.intentName, listing.1)

def wantedOf (listed : List Listing) : List Wanted := listed.flatMap wantedIn

/-- The sentences of a row, as it has them or as they were described. -/
def rowSentences (described : Wanted → Option (List IntentDefinition)) (lang : String)
    (row : IntentRegistration) : List String :=
  match row.definition with
  | some definition => samplesOf definition
  | none =>
    (((described (row.skillId, row.intentName, lang)).bind fun definitions =>
      definitions.find? fun definition => !definition.samples.isEmpty).map
        IntentDefinition.samples).getD []

/-- A skill and an intent of it, in the order of the inventory. -/
abbrev IntentKey := String ×ₗ String

def IntentRegistration.key (row : IntentRegistration) : IntentKey := toLex (row.skillId, row.intentName)

structure InventoryMaps where
  engines : List (IntentKey × String) := []
  enabled : List (IntentKey × Bool) := []
  phrases : List (IntentKey × List (String × List String)) := []

/-- A row that has no sentences takes none away. -/
def InventoryMaps.addRow (described : Wanted → Option (List IntentDefinition)) (lang : String)
    (maps : InventoryMaps) (row : IntentRegistration) : InventoryMaps :=
  let sentences := rowSentences described lang row
  let perLanguage := (SortedMap.get row.key maps.phrases).getD []
  { engines := SortedMap.insert row.key ((SortedMap.get row.key maps.engines).getD row.engine) maps.engines
    enabled := SortedMap.insert row.key
      ((SortedMap.get row.key maps.enabled).getD false || row.enabled) maps.enabled
    phrases := SortedMap.insert row.key
      (if !sentences.isEmpty || (SortedMap.get lang perLanguage).isNone then
        SortedMap.insert lang sentences perLanguage else perLanguage) maps.phrases }

def inventoryMaps (described : Wanted → Option (List IntentDefinition)) (listed : List Listing) :
    InventoryMaps :=
  listed.foldl (fun maps (lang, rows) => rows.foldl (InventoryMaps.addRow described lang) maps) {}

def InventoryMaps.intent (maps : InventoryMaps) (key : IntentKey) (phrases : List (String × List String)) :
    HubIntent where
  skillId := (ofLex key).1
  name := (ofLex key).2
  engine := (SortedMap.get key maps.engines).getD ""
  enabled := (SortedMap.get key maps.enabled).getD true
  phrases := phrases

def InventoryMaps.skills (maps : InventoryMaps) : List HubSkillIntents :=
  let bySkill := maps.phrases.foldl
    (fun bySkill (key, phrases) => SortedMap.push (ofLex key).1 (maps.intent key phrases) bySkill) []
  bySkill.map fun (skillId, intents) =>
    { skillId := skillId, intents := intents.mergeSort fun a b => decide (a.name ≤ b.name) }

/-- What is described of what was listed. -/
def describeListed (listed : List Listing) : Result Described :=
  if opts.describe && !(wantedOf listed).isEmpty then hub.describeMany (wantedOf listed) else .ok []

/-! ## The inventory -/

def isListingDenied : ThalovantError → Bool
  | .policyDenied deniedType _ _ _ _ => deniedType = EVENT_INTENT_LIST
  | _ => false

def isTimeout : ThalovantError → Bool
  | .timeout _ => true
  | _ => false

def inventory (languages : List String) : Result HubIntentInventory :=
  let asked := chosenLanguages tools languages
  match listLanguages tools hub opts asked {} none with
  | .error (.languages err) => .error err
  | .error (.listing err) =>
    if opts.fallback && (isListingDenied err || isTimeout err) then
      match intentNames hub (asked.headD "") with
      | .error err => .error err
      | .ok names => .ok (inventoryFromNames names asked EVENT_INTENT_LIST)
    else .error err
  | .ok listed =>
    match describeListed hub opts listed.listed with
    | .error err => .error err
    | .ok described =>
      .ok
        { languages := asked
          skills := (inventoryMaps (fun key => described.lookup key) listed.listed).skills
          source := .intentManifest
          denied := []
          listedIn := listed.listedIn }

end

end Thalovant.Intents
