import Thalovant.Intents.InventoryListing

/-!
# The phrases of an inventory

An intent has, in each language listed, the sentences that an inventory of this listing alone has
(`phrasesOf_inventoryMaps`): rows of other languages change nothing there.
-/

namespace Thalovant.Intents

variable {described : Wanted → Option (List IntentDefinition)}

/-- The sentences of an intent under a tag. -/
def InventoryMaps.phrasesOf (maps : InventoryMaps) (key : IntentKey) (tag : String) : List String :=
  (SortedMap.get tag ((SortedMap.get key maps.phrases).getD [])).getD []

/-- A row of a listing, after the others. -/
def laterSentences (described : Wanted → Option (List IntentDefinition)) (lang : String) (key : IntentKey)
    (kept : List String) (row : IntentRegistration) : List String :=
  if row.key = key ∧ rowSentences described lang row ≠ [] then rowSentences described lang row else kept

/-! ## Rows -/

/-- A row says something of its own intent, in its own language. -/
theorem phrasesOf_addRow (maps : InventoryMaps) (lang : String) (row : IntentRegistration)
    (key : IntentKey) (tag : String) :
    (maps.addRow described lang row).phrasesOf key tag
      = if lang = tag then laterSentences described lang key (maps.phrasesOf key tag) row
        else maps.phrasesOf key tag := by
  unfold InventoryMaps.addRow InventoryMaps.phrasesOf laterSentences
  by_cases hkey : row.key = key
  · subst hkey
    dsimp only
    rw [SortedMap.get_insert_self]
    generalize (SortedMap.get row.key maps.phrases).getD [] = perLanguage
    generalize rowSentences described lang row = sentences
    by_cases htag : lang = tag
    · subst htag
      cases sentences with
      | nil =>
        cases hper : SortedMap.get lang perLanguage <;> simp [hper]
      | cons sentence sentences => simp
    · rw [if_neg htag, Option.getD_some]
      split
      · rw [SortedMap.get_insert_of_ne (Ne.symm htag)]
      · rfl
  · dsimp only
    rw [SortedMap.get_insert_of_ne (Ne.symm hkey)]
    simp [hkey]

theorem phrasesOf_foldl_addRow (rows : List IntentRegistration) (maps : InventoryMaps) (lang : String)
    (key : IntentKey) (tag : String) :
    (rows.foldl (InventoryMaps.addRow described lang) maps).phrasesOf key tag
      = if lang = tag then rows.foldl (laterSentences described lang key) (maps.phrasesOf key tag)
        else maps.phrasesOf key tag := by
  induction rows generalizing maps with
  | nil => simp
  | cons row rows ih =>
    rw [List.foldl_cons, ih, phrasesOf_addRow]
    split <;> rfl

/-! ## Listings -/

/-- The maps with one more listing. -/
def InventoryMaps.addListing (described : Wanted → Option (List IntentDefinition)) (maps : InventoryMaps)
    (listing : Listing) : InventoryMaps :=
  listing.2.foldl (InventoryMaps.addRow described listing.1) maps

theorem inventoryMaps_eq (listed : List Listing) :
    inventoryMaps described listed = listed.foldl (InventoryMaps.addListing described) {} := rfl

theorem phrasesOf_addListing (maps : InventoryMaps) (listing : Listing) (key : IntentKey) (tag : String) :
    (maps.addListing described listing).phrasesOf key tag
      = if listing.1 = tag then
          listing.2.foldl (laterSentences described listing.1 key) (maps.phrasesOf key tag)
        else maps.phrasesOf key tag :=
  phrasesOf_foldl_addRow listing.2 maps listing.1 key tag

/-- Listings under other tags change nothing. -/
theorem phrasesOf_foldl_of_ne {listed : List Listing} {tag : String}
    (h : ∀ listing ∈ listed, listing.1 ≠ tag) (maps : InventoryMaps) (key : IntentKey) :
    (listed.foldl (InventoryMaps.addListing described) maps).phrasesOf key tag
      = maps.phrasesOf key tag := by
  induction listed generalizing maps with
  | nil => rfl
  | cons listing listed ih =>
    rw [List.foldl_cons, ih (fun other hother => h other (List.mem_cons_of_mem _ hother)),
      phrasesOf_addListing, if_neg (h listing List.mem_cons_self)]

/-- **In the language of a listing, an intent has what this listing alone gives it.** -/
theorem phrasesOf_inventoryMaps {listed : List Listing} {listing : Listing}
    (htags : listed.Pairwise fun a b => a.1 ≠ b.1) (h : listing ∈ listed) (key : IntentKey) :
    (inventoryMaps described listed).phrasesOf key listing.1
      = (inventoryMaps described [listing]).phrasesOf key listing.1 := by
  obtain ⟨before, after, rfl⟩ := List.append_of_mem h
  obtain ⟨-, hafter, hbefore⟩ := List.pairwise_append.mp htags
  rw [inventoryMaps_eq, inventoryMaps_eq, List.foldl_append, List.foldl_cons,
    phrasesOf_foldl_of_ne
      (fun other hother => ((List.pairwise_cons.mp hafter).1 other hother).symm),
    phrasesOf_addListing, if_pos rfl,
    phrasesOf_foldl_of_ne (fun other hother => hbefore other hother listing List.mem_cons_self),
    List.foldl_cons, List.foldl_nil, phrasesOf_addListing, if_pos rfl]

/-- Only what is described of the rows of a listing matters for it. -/
theorem phrasesOf_singleton_congr {described' : Wanted → Option (List IntentDefinition)}
    {listing : Listing}
    (h : ∀ row ∈ listing.2, described (row.skillId, row.intentName, listing.1)
      = described' (row.skillId, row.intentName, listing.1)) (key : IntentKey) :
    (inventoryMaps described [listing]).phrasesOf key listing.1
      = (inventoryMaps described' [listing]).phrasesOf key listing.1 := by
  have hsentences : ∀ row ∈ listing.2,
      rowSentences described listing.1 row = rowSentences described' listing.1 row := by
    intro row hrow
    unfold rowSentences
    rw [h row hrow]
  rw [inventoryMaps_eq, inventoryMaps_eq, List.foldl_cons, List.foldl_nil, List.foldl_cons,
    List.foldl_nil, phrasesOf_addListing, if_pos rfl, phrasesOf_addListing, if_pos rfl]
  refine List.foldl_ext _ _ _ fun kept row hrow => ?_
  unfold laterSentences
  rw [hsentences row hrow]

/-! ## The tags of the phrases -/

/-- Every intent is there once, and its phrases are under different tags of those listed. -/
structure InventoryMaps.TaggedBy (maps : InventoryMaps) (tags : List String) : Prop where
  intents : SortedMap.Sorted maps.phrases
  languages : ∀ entry ∈ maps.phrases, SortedMap.Sorted entry.2
  tags : ∀ entry ∈ maps.phrases, ∀ phrase ∈ entry.2, phrase.1 ∈ tags

theorem InventoryMaps.TaggedBy.empty (tags : List String) :
    InventoryMaps.TaggedBy {} tags where
  intents := SortedMap.Sorted.nil
  languages := nofun
  tags := nofun

theorem InventoryMaps.TaggedBy.addRow {maps : InventoryMaps} {tags : List String}
    (h : maps.TaggedBy tags) {lang : String} (hlang : lang ∈ tags) (row : IntentRegistration) :
    (maps.addRow described lang row).TaggedBy tags := by
  have hper : SortedMap.Sorted ((SortedMap.get row.key maps.phrases).getD []) ∧
      ∀ phrase ∈ (SortedMap.get row.key maps.phrases).getD [], phrase.1 ∈ tags := by
    cases hget : SortedMap.get row.key maps.phrases with
    | none => exact ⟨SortedMap.Sorted.nil, nofun⟩
    | some perLanguage =>
      have hmem := SortedMap.mem_of_get_eq_some hget
      exact ⟨h.languages _ hmem, h.tags _ hmem⟩
  refine ⟨h.intents.insert _ _, fun entry hentry => ?_, fun entry hentry phrase hphrase => ?_⟩
  · rcases SortedMap.mem_insert hentry with rfl | hold
    · dsimp only
      split
      · exact hper.1.insert _ _
      · exact hper.1
    · exact h.languages entry hold
  · rcases SortedMap.mem_insert hentry with rfl | hold
    · dsimp only at hphrase
      split at hphrase
      · rcases SortedMap.mem_insert hphrase with rfl | hphrase
        · exact hlang
        · exact hper.2 phrase hphrase
      · exact hper.2 phrase hphrase
    · exact h.tags entry hold phrase hphrase

theorem InventoryMaps.TaggedBy.addListing {maps : InventoryMaps} {tags : List String}
    (h : maps.TaggedBy tags) {listing : Listing} (hlang : listing.1 ∈ tags) :
    (maps.addListing described listing).TaggedBy tags := by
  unfold InventoryMaps.addListing
  generalize listing.2 = rows
  induction rows generalizing maps with
  | nil => exact h
  | cons row rows ih => exact ih (h.addRow hlang row)

/-- The phrases of every intent are under the tags listed. -/
theorem taggedBy_inventoryMaps (listed : List Listing) :
    (inventoryMaps described listed).TaggedBy (listed.map Prod.fst) := by
  rw [inventoryMaps_eq]
  have hall : ∀ (rest : List Listing) (maps : InventoryMaps), (∀ listing ∈ rest, listing ∈ listed) →
      maps.TaggedBy (listed.map Prod.fst) →
      (rest.foldl (InventoryMaps.addListing described) maps).TaggedBy (listed.map Prod.fst) := by
    intro rest
    induction rest with
    | nil => exact fun _ _ h => h
    | cons listing rest ih =>
      intro maps hrest h
      exact ih _ (fun other hother => hrest other (List.mem_cons_of_mem _ hother))
        (h.addListing (List.mem_map_of_mem (hrest listing List.mem_cons_self)))
  exact hall listed {} (fun _ h => h) (.empty _)

/-! ## Skills -/

/-- The skill and the name of an intent. -/
def HubIntent.key (intent : HubIntent) : IntentKey := toLex (intent.skillId, intent.name)

@[simp] theorem key_intent (maps : InventoryMaps) (key : IntentKey)
    (phrases : List (String × List String)) : (maps.intent key phrases).key = key := rfl

@[simp] theorem phrases_intent (maps : InventoryMaps) (key : IntentKey)
    (phrases : List (String × List String)) : (maps.intent key phrases).phrases = phrases := rfl

/-- The skills have the intents of the maps. -/
theorem mem_skills (maps : InventoryMaps) (intent : HubIntent) :
    (∃ skill ∈ maps.skills, intent ∈ skill.intents) ↔
      ∃ entry ∈ maps.phrases, intent = maps.intent entry.1 entry.2 := by
  have hfold : ∀ (entries : List (IntentKey × List (String × List String)))
      (bySkill : List (String × List HubIntent)), SortedMap.Sorted bySkill →
      ((∃ e ∈ entries.foldl (fun bySkill entry =>
          SortedMap.push (ofLex entry.1).1 (maps.intent entry.1 entry.2) bySkill) bySkill, intent ∈ e.2) ↔
        (∃ e ∈ bySkill, intent ∈ e.2) ∨ ∃ entry ∈ entries, intent = maps.intent entry.1 entry.2) := by
    intro entries
    induction entries with
    | nil => simp
    | cons entry entries ih =>
      intro bySkill hsorted
      rw [List.foldl_cons, ih _ (hsorted.push _ _), hsorted.mem_push, or_assoc]
      simp only [List.mem_cons, exists_eq_or_imp]
  have hphrases := hfold maps.phrases [] SortedMap.Sorted.nil
  simp only [List.not_mem_nil, false_and, exists_false, false_or] at hphrases
  rw [← hphrases]
  unfold InventoryMaps.skills
  simp only [List.mem_map]
  constructor
  · rintro ⟨-, ⟨entry, hentry, rfl⟩, hintent⟩
    exact ⟨entry, hentry, List.mem_mergeSort.mp hintent⟩
  · rintro ⟨entry, hentry, hintent⟩
    exact ⟨_, ⟨entry, hentry, rfl⟩, List.mem_mergeSort.mpr hintent⟩

end Thalovant.Intents
