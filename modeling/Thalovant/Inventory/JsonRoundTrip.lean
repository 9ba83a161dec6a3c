import Thalovant.Inventory.Json

/-!
# Reading back a written inventory

* `phrasesCodec`, `intentCodec`, `skillCodec`, `inventoryCodec`: what is read has no language twice
  in the phrases of an intent, and such a value is read back as it is
* `Intent.readLanguages_written`: putting the languages right before writing changes nothing of what
  reading makes of them
* `Inventory.fromJson_asJson`: an inventory of the current version is read back with its languages
  put right, and what has been read once is read back as it is
-/

namespace Thalovant

open GroupedCache Json

variable (library : JsonLibrary)

theorem stringsCodec_readable (texts : List String) : stringsCodec.Readable texts :=
  fun _ _ => trivial

theorem JsonLibrary.of_ignore {library : JsonLibrary} {σ : Type} {P : σ → Prop} {fields s' : σ}
    {cs rest : List Char} (h : P fields) (hread : library.ignore fields cs = some (s', rest)) :
    P s' := by
  obtain ⟨r, -, heq⟩ := Option.map_eq_some_iff.mp hread
  cases heq
  exact h

/-! ## Phrases -/

/-- No language is there twice. -/
def DistinctTags (phrases : List (String × List String)) : Prop := (phrases.map Prod.fst).Nodup

instance (phrases : List (String × List String)) : Decidable (DistinctTags phrases) :=
  inferInstanceAs (Decidable (phrases.map Prod.fst).Nodup)

theorem setPhrases_of_not_mem {out : List (String × List String)} {key : String}
    (h : key ∉ out.map Prod.fst) (value : List String) :
    setPhrases out key value = out ++ [(key, value)] := by
  induction out with
  | nil => rfl
  | cons entry out ih =>
    rw [List.map_cons, List.mem_cons, not_or] at h
    rw [setPhrases, if_neg (fun heq => h.1 heq.symm), ih h.2, List.cons_append]

theorem mem_map_fst_setPhrases {out : List (String × List String)} {key tag : String}
    {value : List String} (h : tag ∈ (setPhrases out key value).map Prod.fst) :
    tag ∈ out.map Prod.fst ∨ tag = key := by
  induction out with
  | nil => exact .inr (List.mem_singleton.mp h)
  | cons entry out ih =>
    rw [setPhrases] at h
    split at h
    · exact .inl h
    · rcases List.mem_cons.mp h with rfl | htail
      · exact .inl List.mem_cons_self
      · exact (ih htail).imp_left (List.mem_cons_of_mem _)

/-- Taking a later value keeps the languages apart. -/
theorem DistinctTags.setPhrases {out : List (String × List String)} (h : DistinctTags out)
    (key : String) (value : List String) : DistinctTags (setPhrases out key value) := by
  induction out with
  | nil => exact List.nodup_singleton key
  | cons entry out ih =>
    obtain ⟨hentry, hout⟩ := List.nodup_cons.mp h
    rw [Thalovant.setPhrases]
    split
    · exact h
    · next hne =>
      refine List.nodup_cons.mpr ⟨?_, ih hout⟩
      intro hmem
      rcases mem_map_fst_setPhrases hmem with hold | heq
      · exact hentry hold
      · exact hne heq

/-- Each entry comes after those before it. -/
theorem steps_phrases {phrases : List (String × List String)} :
    ∀ out : List (String × List String), DistinctTags (out ++ phrases) →
      Steps phrasesEntry out (phrases.map fun p => (p.1, stringsCodec.write p.2))
        (out ++ phrases) := by
  induction phrases with
  | nil =>
    intro out _
    rw [List.append_nil]
    exact .nil
  | cons p phrases ih =>
    intro out h
    have hnew : p.1 ∉ out.map Prod.fst := by
      intro hmem
      rw [DistinctTags, List.map_append, List.map_cons] at h
      exact (List.nodup_append.mp h).2.2 p.1 hmem p.1 List.mem_cons_self rfl
    rw [List.append_cons] at h ⊢
    refine .cons (fun rest hrest => ?_) (ih (out ++ [p]) h)
    rw [phrasesEntry, stringsCodec.read_write (stringsCodec_readable p.2) rest hrest,
      Option.map_some, setPhrases_of_not_mem hnew]

def phrasesCodec : Codec (List (String × List String)) where
  write := serializePhrases
  read := deserializePhrases
  Readable := DistinctTags
  starts _ := starts_writeObject _
  readable_of_read h := by
    have hnil : DistinctTags [] := List.nodup_nil
    refine of_readMap ?_ hnil h
    intro key out cs s' rest hout hentry
    obtain ⟨r, -, heq⟩ := Option.map_eq_some_iff.mp hentry
    cases heq
    exact hout.setPhrases key r.1
  read_write h rest _ := readMap_writeObject (steps_phrases [] h) rest

/-! ## Intents -/

/-- The fields of an intent. -/
def Intent.fields (intent : Intent) : IntentFields where
  id := some intent.id
  name := some intent.name
  skillId := some intent.skillId
  engine := some intent.engine
  languages := some intent.languages
  phrases := some intent.phrases

theorem Intent.steps {intent : Intent} (h : DistinctTags intent.phrases) :
    Steps (IntentFields.entry library) {} intent.entries intent.fields := by
  unfold IntentFields.entry
  refine .field stringCodec (by simp only; rfl) trivial ?_
  refine .field stringCodec (by simp only; rfl) trivial ?_
  refine .field stringCodec (by simp only; rfl) trivial ?_
  refine .field stringCodec (by simp only; rfl) trivial ?_
  refine .field stringsCodec (by simp only; rfl) (stringsCodec_readable intent.languages) ?_
  refine .field phrasesCodec (by simp only; rfl) h ?_
  exact .nil

/-- The phrases that have been read have no language twice. -/
def IntentFields.Distinct (fields : IntentFields) : Prop :=
  ∀ phrases, fields.phrases = some phrases → DistinctTags phrases

theorem IntentFields.Distinct.entry {library : JsonLibrary} {key : String}
    {fields fields' : IntentFields} {cs rest : List Char} (h : fields.Distinct)
    (hentry : IntentFields.entry library key fields cs = some (fields', rest)) :
    fields'.Distinct := by
  unfold IntentFields.entry at hentry
  split at hentry
  · exact of_readField hentry fun _ => h
  · exact of_readField hentry fun _ => h
  · exact of_readField hentry fun _ => h
  · exact of_readField hentry fun _ => h
  · exact of_readField hentry fun _ => h
  · refine of_readField hentry ?_
    intro phrases rest hread phrases' heq
    cases heq
    exact phrasesCodec.readable_of_read hread
  · exact JsonLibrary.of_ignore h hentry

theorem IntentFields.phrases_of_finish {fields : IntentFields} {intent : Intent}
    (h : fields.finish = some intent) : fields.phrases = some intent.phrases := by
  simp only [IntentFields.finish, Option.bind_eq_bind, Option.bind_eq_some_iff] at h
  obtain ⟨id, -, name, -, skillId, -, engine, -, phrases, hphrases, hintent⟩ := h
  cases hintent
  exact hphrases

def intentCodec : Codec Intent where
  write := Intent.serialize
  read := Intent.deserialize library
  Readable intent := DistinctTags intent.phrases
  starts intent := starts_writeObject intent.entries
  readable_of_read h := by
    have hnone : IntentFields.Distinct {} := fun _ h => by cases h
    obtain ⟨fields, hfields, hfinish⟩ := of_readStruct IntentFields.Distinct.entry hnone h
    exact hfields _ (IntentFields.phrases_of_finish hfinish)
  read_write h rest _ := by
    refine readStruct_writeObject (Intent.steps library h) ?_ rest
    rfl

/-! ## Skills -/

/-- The fields of a skill. -/
def Skill.fields (skill : Skill) : SkillFields where
  id := some skill.id
  title := some skill.title
  locales := some skill.locales
  intents := some skill.intents

/-- No intent has phrases in one language twice. -/
def DistinctIntents (intents : List Intent) : Prop :=
  ∀ intent ∈ intents, DistinctTags intent.phrases

instance (intents : List Intent) : Decidable (DistinctIntents intents) :=
  inferInstanceAs (Decidable (∀ intent ∈ intents, DistinctTags intent.phrases))

theorem Skill.steps {skill : Skill} (h : DistinctIntents skill.intents) :
    Steps (SkillFields.entry library) {} skill.entries skill.fields := by
  unfold SkillFields.entry
  refine .field stringCodec (by simp only; rfl) trivial ?_
  refine .field stringCodec (by simp only; rfl) trivial ?_
  refine .field stringsCodec (by simp only; rfl) (stringsCodec_readable skill.locales) ?_
  refine .field (listCodec (intentCodec library)) (by simp only; rfl) h ?_
  exact .nil

/-- So it is with the intents that have been read. -/
def SkillFields.Distinct (fields : SkillFields) : Prop :=
  ∀ intents, fields.intents = some intents → DistinctIntents intents

theorem SkillFields.Distinct.entry {library : JsonLibrary} {key : String}
    {fields fields' : SkillFields} {cs rest : List Char} (h : fields.Distinct)
    (hentry : SkillFields.entry library key fields cs = some (fields', rest)) :
    fields'.Distinct := by
  unfold SkillFields.entry at hentry
  split at hentry
  · exact of_readField hentry fun _ => h
  · exact of_readField hentry fun _ => h
  · exact of_readField hentry fun _ => h
  · refine of_readField hentry ?_
    intro intents rest hread intents' heq
    cases heq
    exact (listCodec (intentCodec library)).readable_of_read hread
  · exact JsonLibrary.of_ignore h hentry

theorem SkillFields.intents_of_finish {fields : SkillFields} {skill : Skill}
    (h : fields.finish = some skill) : fields.intents = some skill.intents := by
  simp only [SkillFields.finish, Option.bind_eq_bind, Option.bind_eq_some_iff] at h
  obtain ⟨id, -, title, -, locales, -, intents, hintents, hskill⟩ := h
  cases hskill
  exact hintents

def skillCodec : Codec Skill where
  write := Skill.serialize
  read := Skill.deserialize library
  Readable skill := DistinctIntents skill.intents
  starts skill := starts_writeObject skill.entries
  readable_of_read h := by
    have hnone : SkillFields.Distinct {} := fun _ h => by cases h
    obtain ⟨fields, hfields, hfinish⟩ := of_readStruct SkillFields.Distinct.entry hnone h
    exact hfields _ (SkillFields.intents_of_finish hfinish)
  read_write h rest _ := by
    refine readStruct_writeObject (Skill.steps library h) ?_ rest
    rfl

/-! ## Inventories -/

/-- The fields of an inventory. -/
def Inventory.fields (inventory : Inventory) : InventoryFields where
  cacheVersion := some inventory.cacheVersion
  hubId := some inventory.hubId
  hubName := some inventory.hubName
  source := some inventory.source
  generatedAt := some inventory.generatedAt
  skills := some inventory.skills
  notes := some inventory.notes

/-- No intent of a skill has phrases in one language twice. -/
def DistinctSkills (skills : List Skill) : Prop := ∀ skill ∈ skills, DistinctIntents skill.intents

instance (skills : List Skill) : Decidable (DistinctSkills skills) :=
  inferInstanceAs (Decidable (∀ skill ∈ skills, DistinctIntents skill.intents))

theorem Inventory.steps {inventory : Inventory} (h : DistinctSkills inventory.skills) :
    Steps (InventoryFields.entry library) {} inventory.entries inventory.fields := by
  unfold InventoryFields.entry
  refine .field u32Codec (by simp only; rfl) trivial ?_
  refine .field stringCodec (by simp only; rfl) trivial ?_
  refine .field stringCodec (by simp only; rfl) trivial ?_
  refine .field stringCodec (by simp only; rfl) trivial ?_
  refine .field stringCodec (by simp only; rfl) trivial ?_
  refine .field (listCodec (skillCodec library)) (by simp only; rfl) h ?_
  refine .field stringsCodec (by simp only; rfl) (stringsCodec_readable inventory.notes) ?_
  exact .nil

/-- So it is with the skills that have been read. -/
def InventoryFields.Distinct (fields : InventoryFields) : Prop :=
  ∀ skills, fields.skills = some skills → DistinctSkills skills

theorem InventoryFields.Distinct.entry {library : JsonLibrary} {key : String}
    {fields fields' : InventoryFields} {cs rest : List Char} (h : fields.Distinct)
    (hentry : InventoryFields.entry library key fields cs = some (fields', rest)) :
    fields'.Distinct := by
  unfold InventoryFields.entry at hentry
  split at hentry
  · exact of_readField hentry fun _ => h
  · exact of_readField hentry fun _ => h
  · exact of_readField hentry fun _ => h
  · exact of_readField hentry fun _ => h
  · exact of_readField hentry fun _ => h
  · refine of_readField hentry ?_
    intro skills rest hread skills' heq
    cases heq
    exact (listCodec (skillCodec library)).readable_of_read hread
  · exact of_readField hentry fun _ => h
  · exact JsonLibrary.of_ignore h hentry

theorem InventoryFields.skills_of_finish {fields : InventoryFields} {inventory : Inventory}
    (h : fields.finish = some inventory) : fields.skills = some inventory.skills := by
  simp only [InventoryFields.finish, Option.bind_eq_bind, Option.bind_eq_some_iff] at h
  obtain ⟨version, -, hubId, -, hubName, -, source, -, generatedAt, -, skills, hskills, notes, -,
    hinventory⟩ := h
  cases hinventory
  exact hskills

def inventoryCodec : Codec Inventory where
  write := Inventory.serialize
  read := Inventory.deserialize library
  Readable inventory := DistinctSkills inventory.skills
  starts inventory := starts_writeObject inventory.entries
  readable_of_read h := by
    have hnone : InventoryFields.Distinct {} := fun _ h => by cases h
    obtain ⟨fields, hfields, hfinish⟩ := of_readStruct InventoryFields.Distinct.entry hnone h
    exact hfields _ (InventoryFields.skills_of_finish hfinish)
  read_write h rest _ := by
    refine readStruct_writeObject (Inventory.steps library h) ?_ rest
    rfl

/-! ## Languages -/

/-- The languages that an intent has phrases in. -/
def Intent.tags (intent : Intent) : List String := intent.phrases.map Prod.fst

/-- An intent with its languages put right: those that it has phrases in, each once, and after them
the others that it has phrases in. -/
def Intent.normalised (intent : Intent) : Intent :=
  { intent with
    languages := distinct (intent.languages.filter (· ∈ intent.tags))
      ++ intent.tags.filter (· ∉ intent.languages) }

def Inventory.normalised (inventory : Inventory) : Inventory :=
  inventory.mapIntents Intent.normalised

theorem Intent.hasPhrases_eq (intent : Intent) (tag : String) :
    intent.hasPhrases tag = decide (tag ∈ intent.tags) := by
  rw [Bool.eq_iff_iff, decide_eq_true_eq, Intent.hasPhrases, Intent.tags, List.any_eq_true,
    List.mem_map]
  simp only [decide_eq_true_eq]

theorem Intent.writtenLanguages_eq (intent : Intent) :
    intent.writtenLanguages
      = intent.tags.foldl pushNew (intent.languages.filter (· ∈ intent.tags)) := by
  have hfilter : intent.languages.filter intent.hasPhrases
      = intent.languages.filter (· ∈ intent.tags) :=
    List.filter_congr fun tag _ => intent.hasPhrases_eq tag
  rw [Intent.writtenLanguages, hfilter, Intent.tags, List.foldl_map]

theorem Intent.readLanguages_eq (intent : Intent) :
    intent.readLanguages
      = intent.tags.foldl pushNew (distinct (intent.languages.filter (· ∈ intent.tags))) := by
  have hfilter : (intent.languages ++ intent.tags).filter intent.hasPhrases
      = intent.languages.filter (· ∈ intent.tags) ++ intent.tags := by
    rw [List.filter_congr fun tag _ => intent.hasPhrases_eq tag, List.filter_append]
    congr 1
    exact List.filter_eq_self.mpr fun tag htag => decide_eq_true htag
  rw [Intent.readLanguages, ← List.foldl_filter, ← Intent.tags, hfilter, List.foldl_append]
  rfl

theorem Intent.mem_writtenLanguages {intent : Intent} {tag : String} :
    tag ∈ intent.writtenLanguages ↔ tag ∈ intent.tags := by
  rw [Intent.writtenLanguages_eq, mem_foldl_pushNew, List.mem_filter, decide_eq_true_eq]
  exact or_iff_right_of_imp fun h => h.2

theorem Intent.mem_readLanguages {intent : Intent} {tag : String} :
    tag ∈ intent.readLanguages ↔ tag ∈ intent.tags := by
  rw [Intent.readLanguages_eq, mem_foldl_pushNew, mem_distinct, List.mem_filter, decide_eq_true_eq]
  exact or_iff_right_of_imp fun h => h.2

/-- Languages that are those of the phrases, in any order, are only taken once each. -/
theorem Intent.readLanguages_of_mem_iff {intent : Intent} {languages : List String}
    (h : ∀ tag, tag ∈ languages ↔ tag ∈ intent.tags) :
    ({ intent with languages } : Intent).readLanguages = distinct languages := by
  have hfilter : languages.filter (· ∈ intent.tags) = languages :=
    List.filter_eq_self.mpr fun tag htag => decide_eq_true ((h tag).mp htag)
  rw [Intent.readLanguages_eq]
  show intent.tags.foldl pushNew (distinct (languages.filter (· ∈ intent.tags))) = _
  rw [hfilter]
  exact foldl_pushNew_of_subset fun tag htag => mem_distinct.mpr ((h tag).mpr htag)

/-- **What is written reads as what it was written from.** -/
theorem Intent.readLanguages_written (intent : Intent) :
    ({ intent with languages := intent.writtenLanguages } : Intent).readLanguages
      = intent.readLanguages := by
  rw [Intent.readLanguages_of_mem_iff fun tag => Intent.mem_writtenLanguages,
    Intent.writtenLanguages_eq, distinct_foldl_pushNew, Intent.readLanguages_eq]

theorem Intent.readLanguages_read (intent : Intent) :
    ({ intent with languages := intent.readLanguages } : Intent).readLanguages
      = intent.readLanguages := by
  rw [Intent.readLanguages_of_mem_iff fun tag => Intent.mem_readLanguages]
  refine distinct_of_nodup ?_
  rw [Intent.readLanguages_eq]
  exact foldl_pushNew_nodup _ (distinct_nodup _)

theorem Intent.readLanguages_eq_normalised {intent : Intent} (h : DistinctTags intent.phrases) :
    { intent with languages := intent.readLanguages } = intent.normalised := by
  have htags : intent.tags.Nodup := h
  have hmissing : intent.tags.filter (· ∉ distinct (intent.languages.filter (· ∈ intent.tags)))
      = intent.tags.filter (· ∉ intent.languages) :=
    List.filter_congr fun tag htag => by simp [htag]
  rw [Intent.normalised, Intent.readLanguages_eq, foldl_pushNew_of_nodup htags, hmissing]

/-! ## All intents of an inventory -/

theorem Inventory.mapIntents_mapIntents (f g : Intent → Intent) (inventory : Inventory) :
    (inventory.mapIntents f).mapIntents g = inventory.mapIntents (g ∘ f) := by
  simp [Inventory.mapIntents]

theorem Inventory.mapIntents_congr {f g : Intent → Intent} {inventory : Inventory}
    (h : ∀ skill ∈ inventory.skills, ∀ intent ∈ skill.intents, f intent = g intent) :
    inventory.mapIntents f = inventory.mapIntents g := by
  have hskills : inventory.skills.map (fun skill => { skill with intents := skill.intents.map f })
      = inventory.skills.map (fun skill => { skill with intents := skill.intents.map g }) := by
    refine List.map_congr_left fun skill hskill => ?_
    rw [List.map_congr_left (h skill hskill)]
  rw [Inventory.mapIntents, Inventory.mapIntents, hskills]

theorem DistinctSkills.mapIntents {f : Intent → Intent}
    (hf : ∀ intent, (f intent).phrases = intent.phrases) {inventory : Inventory}
    (h : DistinctSkills inventory.skills) :
    DistinctSkills (inventory.mapIntents f).skills := by
  intro skill hskill intent hintent
  obtain ⟨skill', hskill', rfl⟩ := List.mem_map.mp hskill
  obtain ⟨intent', hintent', rfl⟩ := List.mem_map.mp hintent
  rw [hf]
  exact h skill' hskill' intent' hintent'

/-- An inventory with its languages as they are written. -/
def Inventory.written (inventory : Inventory) : Inventory :=
  inventory.mapIntents fun intent => { intent with languages := intent.writtenLanguages }

/-- An inventory with its languages as they are read. -/
def Inventory.reread (inventory : Inventory) : Inventory :=
  inventory.mapIntents fun intent => { intent with languages := intent.readLanguages }

theorem Inventory.reread_written (inventory : Inventory) :
    inventory.written.reread = inventory.reread := by
  rw [Inventory.reread, Inventory.written, Inventory.mapIntents_mapIntents]
  exact Inventory.mapIntents_congr fun _ _ intent _ => by
    show ({ intent with languages := _ } : Intent) = _
    rw [Intent.readLanguages_written]

theorem Inventory.reread_reread (inventory : Inventory) :
    inventory.reread.reread = inventory.reread := by
  rw [Inventory.reread, Inventory.reread, Inventory.mapIntents_mapIntents]
  exact Inventory.mapIntents_congr fun _ _ intent _ => by
    show ({ intent with languages := _ } : Intent) = _
    rw [Intent.readLanguages_read]

theorem Inventory.reread_eq_normalised {inventory : Inventory}
    (h : DistinctSkills inventory.skills) : inventory.reread = inventory.normalised :=
  Inventory.mapIntents_congr fun skill hskill intent hintent =>
    Intent.readLanguages_eq_normalised (h skill hskill intent hintent)

/-! ## Reading back -/

section

variable {library}

theorem Inventory.fromJson_of_ofStr {raw : String} {doc : Inventory}
    (h : Inventory.ofStr library raw = some doc) :
    Inventory.fromJson library raw = if doc.cacheVersion ≠ INVENTORY_CACHE_VERSION then
      .error (.listing NOT_CURRENT) else .ok doc.reread := by
  rw [Inventory.fromJson, h]
  rfl

theorem Inventory.ofStr_serialize {inventory : Inventory} (h : DistinctSkills inventory.skills) :
    Inventory.ofStr library (String.ofList inventory.serialize) = some inventory := by
  rw [Inventory.ofStr, String.toList_ofList]
  exact (inventoryCodec library).readAll_write h

/-- What is written is read with its languages put right. -/
theorem Inventory.fromJson_asJson_reread (library : JsonLibrary) {inventory : Inventory}
    (hversion : inventory.cacheVersion = INVENTORY_CACHE_VERSION)
    (h : DistinctSkills inventory.skills) :
    ∃ text, inventory.asJson = .ok text ∧
      Inventory.fromJson library text = .ok inventory.reread := by
  refine ⟨String.ofList inventory.written.serialize, ?_, ?_⟩
  · rw [Inventory.asJson, if_neg (not_not_intro hversion)]
    rfl
  · have hwritten : DistinctSkills inventory.written.skills := by
      refine DistinctSkills.mapIntents ?_ h
      exact fun _ => rfl
    have hcurrent : inventory.written.cacheVersion = INVENTORY_CACHE_VERSION := hversion
    rw [Inventory.fromJson_of_ofStr (Inventory.ofStr_serialize hwritten),
      if_neg (not_not_intro hcurrent), Inventory.reread_written]

theorem Inventory.exists_of_fromJson {raw : String} {inventory : Inventory}
    (h : Inventory.fromJson library raw = .ok inventory) :
    ∃ doc, Inventory.ofStr library raw = some doc ∧
      doc.cacheVersion = INVENTORY_CACHE_VERSION ∧ inventory = doc.reread := by
  cases hdoc : Inventory.ofStr library raw with
  | none =>
    rw [Inventory.fromJson, hdoc] at h
    cases h
  | some doc =>
    rw [Inventory.fromJson_of_ofStr hdoc] at h
    split at h
    · cases h
    · next hversion =>
      cases h
      exact ⟨doc, rfl, not_not.mp hversion, rfl⟩

theorem Inventory.distinctSkills_of_ofStr {raw : String} {doc : Inventory}
    (h : Inventory.ofStr library raw = some doc) : DistinctSkills doc.skills :=
  (inventoryCodec library).readable_of_readAll h

end

/-- **The round trip of an inventory.** One of the current version whose phrases have no language
twice is read back with its languages put right; what has been read of any text at all is read back
as it is; and a document of another version is refused. -/
theorem Inventory.fromJson_asJson (library : JsonLibrary) :
    (∀ inventory : Inventory, inventory.cacheVersion = INVENTORY_CACHE_VERSION →
      DistinctSkills inventory.skills → ∃ text, inventory.asJson = .ok text ∧
        Inventory.fromJson library text = .ok inventory.normalised) ∧
    (∀ raw inventory, Inventory.fromJson library raw = .ok inventory →
      inventory.cacheVersion = INVENTORY_CACHE_VERSION ∧ ∃ text, inventory.asJson = .ok text ∧
        Inventory.fromJson library text = .ok inventory) ∧
    ∀ raw doc, Inventory.ofStr library raw = some doc →
      Inventory.fromJson library raw = if doc.cacheVersion = INVENTORY_CACHE_VERSION then
        .ok doc.normalised else .error (.listing NOT_CURRENT) := by
  refine ⟨?_, ?_, ?_⟩
  · intro inventory hversion h
    obtain ⟨text, hwrite, hread⟩ := Inventory.fromJson_asJson_reread library hversion h
    exact ⟨text, hwrite, by rw [hread, Inventory.reread_eq_normalised h]⟩
  · intro raw inventory h
    obtain ⟨doc, hdoc, hversion, rfl⟩ := Inventory.exists_of_fromJson h
    have hdistinct : DistinctSkills doc.reread.skills := by
      refine DistinctSkills.mapIntents ?_ (Inventory.distinctSkills_of_ofStr hdoc)
      exact fun _ => rfl
    have hcurrent : doc.reread.cacheVersion = INVENTORY_CACHE_VERSION := hversion
    obtain ⟨text, hwrite, hread⟩ :=
      Inventory.fromJson_asJson_reread library hcurrent hdistinct
    exact ⟨hcurrent, text, hwrite, by rw [hread, Inventory.reread_reread]⟩
  · intro raw doc hdoc
    rw [Inventory.fromJson_of_ofStr hdoc,
      Inventory.reread_eq_normalised (Inventory.distinctSkills_of_ofStr hdoc)]
    by_cases hversion : doc.cacheVersion = INVENTORY_CACHE_VERSION
    · rw [if_neg (not_not_intro hversion), if_pos hversion]
    · rw [if_pos hversion, if_neg hversion]

/-- An inventory whose languages are not right yet. -/
def kitchenInventory : Inventory where
  cacheVersion := 1
  hubId := "hub"
  hubName := "Kitchen"
  source := "hub"
  generatedAt := "2024-01-01T00:00:00Z"
  skills := [{
    id := "skill-timer"
    title := "Timer"
    locales := ["en-us"]
    intents := [{
      id := "skill-timer:start"
      name := "start"
      skillId := "skill-timer"
      engine := "padatious"
      languages := ["de-de", "pt-pt", "pt-pt"]
      phrases := [("en-us", ["start a timer"]), ("pt-pt", [])] }] }]
  notes := []

theorem Inventory.fromJson_asJson_kitchenInventory :
    (kitchenInventory.normalised.skills.map fun skill => skill.intents.map Intent.languages)
      = [[["pt-pt", "en-us"]]] ∧
    ∃ text, kitchenInventory.asJson = .ok text ∧
      Inventory.fromJson ⟨fun _ => none, fun _ => "no inventory"⟩ text
        = .ok kitchenInventory.normalised :=
  ⟨by decide, (Inventory.fromJson_asJson ⟨fun _ => none, fun _ => "no inventory"⟩).1
    kitchenInventory rfl (by decide)⟩

/-- An inventory of another version is not written at all. -/
theorem Inventory.asJson_otherVersion :
    ({ kitchenInventory with cacheVersion := 2 } : Inventory).asJson
      = .error (.listing NOT_CURRENT) ∧
    DistinctSkills ({ kitchenInventory with cacheVersion := 2 } : Inventory).skills :=
  ⟨by rfl, by decide⟩

end Thalovant
