import Mathlib.Data.List.Pairwise
import Thalovant.Intents.InventoryPhrases

/-!
# What an inventory keeps

A language asked has one tag that it was listed under, and the phrases of every intent are under such
tags, one for each language. But of two listings in the same language only the later one is kept. So the
inventory has the sentences of every listing exactly if the later ones have those of the earlier ones:
`inventory_law`.
-/

namespace Thalovant.Intents

variable {lowercase : String → String}

/-! ## What is kept -/

/-- The sentences that an inventory of one listing alone gives an intent. -/
def contributes (describe : Wanted → Option (List IntentDefinition)) (listing : Listing)
    (key : IntentKey) : List String :=
  (inventoryMaps (fun wanted => if wanted ∈ wantedIn listing then describe wanted else none)
    [listing]).phrasesOf key listing.1

/-- An intent of the inventory has a sentence under a tag. -/
def HubIntentInventory.Has (inventory : HubIntentInventory) (key : IntentKey) (tag sentence : String) :
    Prop :=
  ∃ intent ∈ inventory.intents, intent.key = key ∧
    sentence ∈ (SortedMap.get tag intent.phrases).getD []

/-- The inventory has every sentence of the listing that was taken for each language asked. -/
def HubIntentInventory.Keeps (inventory : HubIntentInventory) (taken : String → Option Listing)
    (describe : Wanted → Option (List IntentDefinition)) : Prop :=
  ∀ entry ∈ inventory.languages.zip inventory.listedIn, ∀ listing, taken entry.1 = some listing →
    ∀ key, ∀ sentence ∈ contributes describe (entry.2, listing.2) key,
      inventory.Has key entry.2 sentence

/-- The last listing in a language has the sentences of the others in it. -/
def LastHasAll (lowercase : String → String) (taken : List Listing)
    (describe : Wanted → Option (List IntentDefinition)) : Prop :=
  ∀ listing ∈ taken, ∀ rows, lastRows lowercase taken listing.1 = some rows →
    ∀ key, ∀ sentence ∈ contributes describe (keyTag lowercase taken listing.1, listing.2) key,
      sentence ∈ contributes describe (keyTag lowercase taken listing.1, rows) key

/-- What the hub says of each intent, of which a call asks for those it wants. -/
structure Describes (opts : IntentInventoryOptions) (listed : List Listing) (found : Described)
    (describe : Wanted → Option (List IntentDefinition)) : Prop where
  off : opts.describe = false → ∀ wanted, describe wanted = none
  found : ∀ wanted, found.lookup wanted = if wanted ∈ wantedOf listed then describe wanted else none

/-! ## The inventory of what was listed -/

theorem mem_wantedIn {listing : Listing} {wanted : Wanted} (h : wanted ∈ wantedIn listing) :
    wanted.2.2 = listing.1 := by
  obtain ⟨row, -, rfl⟩ := List.mem_map.mp h
  rfl

theorem Distinct.tags_ne {listed : List Listing} (h : Distinct lowercase listed) :
    listed.Pairwise fun a b => a.1 ≠ b.1 := by
  refine h.imp fun {a b} hdistinct heq => ?_
  rw [heq, sameLanguage_self] at hdistinct
  cases hdistinct

theorem Distinct.of_ne {listed : List Listing} (h : Distinct lowercase listed) {a b : Listing}
    (ha : a ∈ listed) (hb : b ∈ listed) (hne : a ≠ b) : sameLanguage lowercase a.1 b.1 = false :=
  have : Std.Symm fun a b : Listing => sameLanguage lowercase a.1 b.1 = false :=
    ⟨fun a b hab => by rw [sameLanguage_comm]; exact hab⟩
  List.Pairwise.forall h ha hb hne

/-- Of the rows of a listing, what is wanted of all listings is what is wanted of this one. -/
theorem mem_wantedOf {listed : List Listing} {listing : Listing} (h : Distinct lowercase listed)
    (hlisting : listing ∈ listed) (skillId intentName : String) :
    (skillId, intentName, listing.1) ∈ wantedOf listed ↔
      (skillId, intentName, listing.1) ∈ wantedIn listing := by
  constructor
  · intro hwanted
    obtain ⟨other, hother, hin⟩ := List.mem_flatMap.mp hwanted
    have htag : listing.1 = other.1 := mem_wantedIn hin
    by_cases heq : listing = other
    · rw [heq] at hin ⊢
      exact hin
    · have hdistinct := h.of_ne hlisting hother heq
      rw [htag, sameLanguage_self] at hdistinct
      cases hdistinct
  · exact fun hin => List.mem_flatMap.mpr ⟨listing, hlisting, hin⟩

/-- The maps have, in each language listed, what its listing gives. -/
theorem phrasesOf_listed {opts : IntentInventoryOptions} {listed : List Listing} {found : Described}
    {describe : Wanted → Option (List IntentDefinition)} (hdistinct : Distinct lowercase listed)
    (hdescribes : Describes opts listed found describe) {listing : Listing} (h : listing ∈ listed)
    (key : IntentKey) :
    (inventoryMaps (fun wanted => found.lookup wanted) listed).phrasesOf key listing.1
      = contributes describe listing key := by
  rw [phrasesOf_inventoryMaps hdistinct.tags_ne h]
  refine phrasesOf_singleton_congr (fun row _ => ?_) key
  rw [hdescribes.found]
  simp only [mem_wantedOf hdistinct h]

/-- The intents of an inventory are those of the maps. -/
theorem mem_intents {maps : InventoryMaps} {inventory : HubIntentInventory}
    (hskills : inventory.skills = maps.skills) (intent : HubIntent) :
    intent ∈ inventory.intents ↔ ∃ entry ∈ maps.phrases, intent = maps.intent entry.1 entry.2 := by
  rw [← mem_skills, HubIntentInventory.intents, List.mem_flatMap, hskills]

/-- An intent has what the maps have. -/
theorem has_iff {maps : InventoryMaps} (hsorted : SortedMap.Sorted maps.phrases)
    {inventory : HubIntentInventory} (hskills : inventory.skills = maps.skills) (key : IntentKey)
    (tag sentence : String) :
    inventory.Has key tag sentence ↔ sentence ∈ maps.phrasesOf key tag := by
  unfold HubIntentInventory.Has InventoryMaps.phrasesOf
  simp only [mem_intents hskills]
  constructor
  · rintro ⟨-, ⟨⟨key, phrases⟩, hentry, rfl⟩, rfl, hsentence⟩
    rw [key_intent, hsorted.get_eq_some_iff.mpr hentry]
    exact hsentence
  · intro hsentence
    cases hget : SortedMap.get key maps.phrases with
    | none =>
      rw [hget] at hsentence
      simp at hsentence
    | some phrases =>
      rw [hget] at hsentence
      exact ⟨_, ⟨(key, phrases), SortedMap.mem_of_get_eq_some hget, rfl⟩, rfl, hsentence⟩

/-- The languages of an intent's phrases were listed, and are different languages. -/
theorem languages_of_mem_intents {described : Wanted → Option (List IntentDefinition)}
    {listed : List Listing} (hdistinct : Distinct lowercase listed) {inventory : HubIntentInventory}
    (hskills : inventory.skills = (inventoryMaps described listed).skills) {intent : HubIntent}
    (h : intent ∈ inventory.intents) :
    (∀ phrase ∈ intent.phrases, phrase.1 ∈ listed.map Prod.fst) ∧
      intent.phrases.Pairwise fun a b => sameLanguage lowercase a.1 b.1 = false := by
  have htagged : (inventoryMaps described listed).TaggedBy (listed.map Prod.fst) :=
    taggedBy_inventoryMaps listed
  obtain ⟨entry, hentry, rfl⟩ := (mem_intents hskills intent).mp h
  have htags := htagged.tags entry hentry
  refine ⟨htags, ?_⟩
  refine (htagged.languages entry hentry).imp_of_mem fun {a b} ha hb hlt => ?_
  obtain ⟨x, hx, hxa⟩ := List.mem_map.mp (htags a ha)
  obtain ⟨y, hy, hyb⟩ := List.mem_map.mp (htags b hb)
  rw [← hxa, ← hyb] at hlt ⊢
  exact hdistinct.of_ne hx hy fun hxy => hlt.ne (by rw [hxy])

/-- The languages asked, each with the tag of its listing. -/
theorem mem_zip_listings {taken : String → Option Listing} (tagOf : Listing → String) :
    ∀ {asked : List String}, (∀ lang ∈ asked, (taken lang).isSome = true) → ∀ entry : String × String,
      entry ∈ asked.zip ((asked.filterMap taken).map tagOf) ↔
        ∃ lang ∈ asked, ∃ listing, taken lang = some listing ∧ entry = (lang, tagOf listing)
  | [], _, _ => by simp
  | lang :: asked, hall, entry => by
    obtain ⟨listing, htaken⟩ := Option.isSome_iff_exists.mp (hall lang List.mem_cons_self)
    have hrest : ∀ other ∈ asked, (taken other).isSome = true :=
      fun other hother => hall other (List.mem_cons_of_mem _ hother)
    have ih := mem_zip_listings tagOf hrest entry
    rw [List.filterMap_cons, htaken]
    simp only [List.map_cons, List.zip_cons_cons, List.mem_cons, ih, exists_eq_or_imp, htaken,
      Option.some.injEq, exists_eq_left']

/-- The inventory keeps the sentences of all listings if the last ones have them all. -/
theorem keeps_iff {taken : String → Option Listing} {asked : List String}
    (hall : ∀ lang ∈ asked, (taken lang).isSome = true) {opts : IntentInventoryOptions}
    {found : Described} {describe : Wanted → Option (List IntentDefinition)}
    {inventory : HubIntentInventory} (hlanguages : inventory.languages = asked)
    (hlistedIn : inventory.listedIn = (mergeAll lowercase (asked.filterMap taken)).listedIn)
    (hskills : inventory.skills = (inventoryMaps (fun wanted => found.lookup wanted)
      (mergeAll lowercase (asked.filterMap taken)).listed).skills)
    (hdescribes : Describes opts (mergeAll lowercase (asked.filterMap taken)).listed found describe) :
    inventory.Keeps taken describe ↔ LastHasAll lowercase (asked.filterMap taken) describe := by
  generalize hlistings : asked.filterMap taken = listings at hlistedIn hskills hdescribes ⊢
  obtain ⟨hdistinct, htags, -, -⟩ := mergeAll_spec lowercase listings
  -- under the tag of each listing, an intent has what the last one in its language gives
  have hhas : ∀ listing ∈ listings, ∀ rows, lastRows lowercase listings listing.1 = some rows →
      ∀ key sentence, inventory.Has key (keyTag lowercase listings listing.1) sentence ↔
        sentence ∈ contributes describe (keyTag lowercase listings listing.1, rows) key := by
    intro listing hlisting rows hrows key sentence
    obtain ⟨rows', hrows', hmem⟩ := mem_mergeAll lowercase hlisting
    rw [hrows] at hrows'
    cases hrows'
    rw [has_iff (taggedBy_inventoryMaps _).intents hskills, ← phrasesOf_listed hdistinct hdescribes hmem]
  have hzip := mem_zip_listings (fun listing : Listing => keyTag lowercase listings listing.1) hall
  rw [hlistings] at hzip
  unfold HubIntentInventory.Keeps LastHasAll
  rw [hlanguages, hlistedIn, htags]
  constructor
  · intro hkeeps listing hlisting rows hrows key sentence hsentence
    have hmem := hlisting
    rw [← hlistings] at hmem
    obtain ⟨lang, hlang, htaken⟩ := List.mem_filterMap.mp hmem
    exact (hhas listing hlisting rows hrows key sentence).mp
      (hkeeps _ ((hzip _).mpr ⟨lang, hlang, listing, htaken, rfl⟩) listing htaken key sentence hsentence)
  · intro hlast entry hentry listing htaken key sentence hsentence
    obtain ⟨lang, hlang, listing', htaken', rfl⟩ := (hzip entry).mp hentry
    rw [htaken] at htaken'
    cases htaken'
    have hlisting : listing ∈ listings := by
      rw [← hlistings]
      exact List.mem_filterMap.mpr ⟨lang, hlang, htaken⟩
    obtain ⟨rows, hrows, -⟩ := mem_mergeAll lowercase hlisting
    exact (hhas listing hlisting rows hrows key sentence).mpr
      (hlast listing hlisting rows hrows key sentence hsentence)

/-! ## The law -/

section

variable (tools : LanguageTools) (hub : InventoryHub) (opts : IntentInventoryOptions)
  (languages : List String)

/-- The listings taken, in the order of the languages asked. -/
def takenListings : List Listing := (chosenLanguages tools languages).filterMap (taken tools hub opts)

/-- A hub that answers is listed in every language asked. -/
theorem listLanguages_answered (hanswers : hub.Answers) :
    listLanguages tools hub opts (chosenLanguages tools languages) {} none
        = .ok (mergeAll tools.lowercase (takenListings tools hub opts languages)) ∧
      ∀ lang ∈ chosenLanguages tools languages, (taken tools hub opts lang).isSome = true := by
  obtain ⟨listed, hlisted⟩ :=
    listLanguages_of_answers tools opts hanswers (chosenLanguages tools languages) {} none
  obtain ⟨heq, hall⟩ := listLanguages_eq (.inl rfl) hlisted
  exact ⟨by rw [hlisted, heq]; rfl, hall⟩

/-- The inventory of the listings taken, with what was described of them. -/
def inventoryOf (found : Described) : HubIntentInventory :=
  let listed := mergeAll tools.lowercase (takenListings tools hub opts languages)
  { languages := chosenLanguages tools languages
    skills := (inventoryMaps (fun wanted => found.lookup wanted) listed.listed).skills
    source := .intentManifest
    denied := []
    listedIn := listed.listedIn }

/-- A call on a hub that answers describes the listings taken. -/
theorem inventory_of_answers (hanswers : hub.Answers) :
    inventory tools hub opts languages
      = match describeListed hub opts
            (mergeAll tools.lowercase (takenListings tools hub opts languages)).listed with
        | .error err => .error err
        | .ok found => .ok (inventoryOf tools hub opts languages found) := by
  unfold inventory
  dsimp only
  rw [(listLanguages_answered tools hub opts languages hanswers).1]
  rfl

/-- **What an inventory keeps of the listings.** -/
theorem inventory_law (hanswers : hub.Answers) :
    let listings := takenListings tools hub opts languages
    let listed := (mergeAll tools.lowercase listings).listed
    (∀ err, describeListed hub opts listed = .error err →
      inventory tools hub opts languages = .error err) ∧
    ∀ found, describeListed hub opts listed = .ok found →
      ∃ inv, inventory tools hub opts languages = .ok inv ∧
        inv.languages = chosenLanguages tools languages ∧
        inv.listedIn.length = inv.languages.length ∧
        (∀ intent ∈ inv.intents,
          (∀ phrase ∈ intent.phrases, phrase.1 ∈ inv.listedIn) ∧
          intent.phrases.Pairwise fun a b => sameLanguage tools.lowercase a.1 b.1 = false) ∧
        ∀ describe, Describes opts listed found describe →
          (inv.Keeps (taken tools hub opts) describe ↔
            LastHasAll tools.lowercase listings describe) := by
  intro listings listed
  have hinventory := inventory_of_answers tools hub opts languages hanswers
  obtain ⟨-, hall⟩ := listLanguages_answered tools hub opts languages hanswers
  obtain ⟨hdistinct, hlistedIn, -, htags⟩ := mergeAll_spec tools.lowercase listings
  refine ⟨fun err herr => ?_, fun found hfound => ?_⟩
  · rw [hinventory, herr]
  refine ⟨inventoryOf tools hub opts languages found, ?_, rfl, ?_, fun intent hintent => ?_,
    fun describe hdescribes => keeps_iff hall rfl rfl rfl hdescribes⟩
  · rw [hinventory, hfound]
  · show (mergeAll tools.lowercase listings).listedIn.length = _
    rw [hlistedIn, List.length_map]
    exact List.filterMap_length_eq_length.mpr hall
  · obtain ⟨hin, hpairwise⟩ := languages_of_mem_intents hdistinct rfl hintent
    refine ⟨fun phrase hphrase => ?_, hpairwise⟩
    obtain ⟨entry, hentry, hentryTag⟩ := List.mem_map.mp (hin phrase hphrase)
    rw [← hentryTag]
    exact htags entry hentry

end

/-! ## A language listed twice -/

def sampleTools : LanguageTools where
  lowercase tag := String.ofList (tag.toList.map Char.toLower)
  usualForm tag := if tag = "en-CA" || tag = "en-US" then some "en-us" else none
  closestLanguage _ _ := none
  print _ := ""

def sampleOptions : IntentInventoryOptions where
  describe := true
  fallback := true
  nearest := true

/-- A row with its sentence. -/
def sampleRow (intentName lang sentence : String) : Value :=
  .object [("definition", .object [("samples", .array [.string sentence])]),
    ("intent_name", .string intentName), ("lang", .string lang), ("method", .string "template"),
    ("skill_id", .string "weather")]

/-- A hub that has rows under each tag as it is spelled. -/
def hubOf (rows : String → List Value) : InventoryHub where
  list lang _ :=
    .ok
      { name := EVENT_INTENT_LIST_RESPONSE
        data := [("intents", .array (rows (lang.getD ""))), ("ok", .bool true)]
        context := [] }
  engineManifest _ _ := .error (.timeout "")
  describeMany _ := .ok []

/-- One intent was registered under `en-US`, and another one under `en-us`. -/
def splitHub : InventoryHub :=
  hubOf fun lang =>
    if lang = "en-US" then [sampleRow "today" "en-US" "what is the weather"]
    else if lang = "en-us" then [sampleRow "tomorrow" "en-us" "will it rain tomorrow"]
    else []

/-- The same intent was registered under both. -/
def sharedHub : InventoryHub :=
  hubOf fun lang =>
    if lang = "en-US" || lang = "en-us" then [sampleRow "today" "en-US" "what is the weather"] else []

theorem hubOf_answers (rows : String → List Value) : (hubOf rows).Answers := by
  intro lang definitions
  exact ⟨_, rfl, by simp [Map.get, SortedMap.get]⟩

theorem describeListed_hubOf (rows : String → List Value) (opts : IntentInventoryOptions)
    (listed : List Listing) : describeListed (hubOf rows) opts listed = .ok [] := by
  unfold describeListed
  split <;> rfl

/-- The inventory of the languages asked. -/
def splitInventory (languages : List String) : HubIntentInventory :=
  inventoryOf sampleTools splitHub sampleOptions languages []

theorem inventory_splitHub (languages : List String) :
    inventory sampleTools splitHub sampleOptions languages = .ok (splitInventory languages) := by
  have hfound : describeListed splitHub sampleOptions (mergeAll sampleTools.lowercase
      (takenListings sampleTools splitHub sampleOptions languages)).listed = .ok [] :=
    describeListed_hubOf _ _ _
  rw [inventory_of_answers sampleTools splitHub sampleOptions languages (hubOf_answers _), hfound]
  rfl

/-- Asked in `en-CA` too, the inventory has lost what was listed in `en-US`. -/
theorem inventory_fails :
    splitHub.Answers ∧
    inventory sampleTools splitHub sampleOptions ["en-US"] = .ok (splitInventory ["en-US"]) ∧
    (splitInventory ["en-US"]).Has (toLex ("weather", "today")) "en-US" "what is the weather" ∧
    inventory sampleTools splitHub sampleOptions ["en-US", "en-CA"]
      = .ok (splitInventory ["en-US", "en-CA"]) ∧
    (splitInventory ["en-US", "en-CA"]).listedIn = ["en-US", "en-US"] ∧
    ∀ intent ∈ (splitInventory ["en-US", "en-CA"]).intents, ∀ phrase ∈ intent.phrases,
      "what is the weather" ∉ phrase.2 := by
  refine ⟨hubOf_answers _, inventory_splitHub _, ?_, inventory_splitHub _, by decide +kernel, ?_⟩
  · rw [splitInventory, has_iff (taggedBy_inventoryMaps _).intents rfl]
    decide +kernel
  · intro intent hintent
    have hnone : ∀ entry ∈ (inventoryMaps (fun wanted => List.lookup wanted ([] : Described))
        (mergeAll sampleTools.lowercase (takenListings sampleTools splitHub sampleOptions
          ["en-US", "en-CA"])).listed).phrases,
        ∀ phrase ∈ entry.2, "what is the weather" ∉ phrase.2 := by
      decide +kernel
    obtain ⟨entry, hentry, rfl⟩ := (mem_intents rfl intent).mp hintent
    exact hnone entry hentry

/-- Two listings of one language that agree are both kept. -/
theorem inventory_sample :
    ∃ inv, inventory sampleTools sharedHub sampleOptions ["en-US", "en-CA"] = .ok inv ∧
      inv.listedIn.length = inv.languages.length ∧
      inv.Keeps (taken sampleTools sharedHub sampleOptions) fun _ => none := by
  obtain ⟨inv, hinv, -, hlength, -, hkeeps⟩ := (inventory_law sampleTools sharedHub sampleOptions
    ["en-US", "en-CA"] (hubOf_answers _)).2 [] (describeListed_hubOf _ _ _)
  refine ⟨inv, hinv, hlength, (hkeeps (fun _ => none) ⟨nofun, fun wanted => ?_⟩).mpr ?_⟩
  · split <;> rfl
  · have hrows : ∀ listing ∈ takenListings sampleTools sharedHub sampleOptions ["en-US", "en-CA"],
        some listing.2 = lastRows sampleTools.lowercase
          (takenListings sampleTools sharedHub sampleOptions ["en-US", "en-CA"]) listing.1 := by
      decide +kernel
    intro listing hlisting rows hrow key sentence hsentence
    rw [← hrows listing hlisting] at hrow
    cases hrow
    exact hsentence

end Thalovant.Intents
