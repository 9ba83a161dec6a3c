import Thalovant.Error
import Thalovant.HiveMessage
import Thalovant.Text

/-!
# The topics of an MQTT connection

The three topics of a connection share a base, which is the prefix of its credentials without the
white space and the slashes around it. They are taken off in turn, white space, slashes and white
space again, so that a slash that stands behind white space that stands behind a slash is still
there: `mqttTopics_clean_iff`.
-/

namespace Thalovant

structure MqttTopicSet where
  inbound : String
  outbound : String
  status : String
  deriving DecidableEq, Repr

/-- The topics that share a base. -/
def MqttTopicSet.ofBase (base : String) : MqttTopicSet where
  inbound := base ++ "/in"
  outbound := base ++ "/out"
  status := base ++ "/status"

/-- `value.trim().trim_matches('/').trim()` -/
def topicBase (topicPrefix : String) : String := trim (trimChar '/' (trim topicPrefix))

/-- A wildcard. -/
def isWildcard (c : Char) : Bool := c = '#' || c = '+'

/-- A control character below the space. -/
def isControl (c : Char) : Bool := c.toNat < 0x20

def mqttTopicsForIdentity (identity : Identity) : Result MqttTopicSet :=
  match identity.mqtt with
  | none =>
    .error (.unsupportedProtocol "identity does not include MQTT broker credentials")
  | some credentials =>
    match (credentials.topicPrefix.map topicBase).filter (· ≠ "") with
    | none => .error (.connection "MQTT credentials must include topic_prefix.")
    | some base =>
      if base.toList.any fun c => isWildcard c || isControl c then
        .error (.connection
          "MQTT topic_prefix contains characters that are not valid in an MQTT topic.")
      else .ok (MqttTopicSet.ofBase base)

/-! ## Clean bases -/

/-- There is something in a base, no slash and no white space at its ends, and nothing in it that a
topic may not have. -/
structure CleanBase (base : String) : Prop where
  ne_empty : base ≠ ""
  start_slash : Trim.StartSettled (· = '/') base.toList
  end_slash : Trim.EndSettled (· = '/') base.toList
  trimmed : trim base = base
  plain : ∀ c ∈ base.toList, isWildcard c = false ∧ isControl c = false

/-- Around a prefix there is white space, then slashes, then white space, and no more slashes. -/
def SlashesTogether (topicPrefix : String) : Prop :=
  Trim.OneRun isWhitespace (· = '/')
    (topicPrefix.toList.takeWhile fun c => isWhitespace c || decide (c = '/')) ∧
  Trim.OneRun isWhitespace (· = '/')
    (topicPrefix.toList.rtakeWhile fun c => isWhitespace c || decide (c = '/'))

theorem MqttTopicSet.ofBase_inj {base base' : String} :
    MqttTopicSet.ofBase base = MqttTopicSet.ofBase base' ↔ base = base' := by
  refine ⟨fun h => ?_, fun h => h ▸ rfl⟩
  simp only [MqttTopicSet.ofBase, MqttTopicSet.mk.injEq] at h
  have hin := congrArg String.toList h.1
  rw [String.toList_append, String.toList_append, List.append_left_inj] at hin
  exact String.toList_injective hin

theorem toList_topicBase (topicPrefix : String) : (topicBase topicPrefix).toList
    = Trim.stripBetween isWhitespace (· = '/') topicPrefix.toList := by
  rw [topicBase, toList_trim, trimChar, trimStartChar, String.toList_ofList, trimEndChar,
    String.toList_ofList, toList_trim]
  rfl

section

variable {identity : Identity} {credentials : MqttBrokerCredentials} {topicPrefix : String}

/-- What is accepted of the prefix that the credentials have. -/
theorem mqttTopicsForIdentity_eq_ok_iff (hmqtt : identity.mqtt = some credentials)
    (htopic : credentials.topicPrefix = some topicPrefix) {topics : MqttTopicSet} :
    mqttTopicsForIdentity identity = .ok topics ↔
      topicBase topicPrefix ≠ "" ∧
      (∀ c ∈ (topicBase topicPrefix).toList, isWildcard c = false ∧ isControl c = false) ∧
      topics = MqttTopicSet.ofBase (topicBase topicPrefix) := by
  simp only [mqttTopicsForIdentity, hmqtt, htopic, Option.map_some]
  by_cases hempty : topicBase topicPrefix = ""
  · rw [Option.filter_some_neg (by simpa using hempty)]
    exact iff_of_false (by intro h; cases h) fun h => h.1 hempty
  · rw [Option.filter_some_pos (by simpa using hempty)]
    simp only
    split
    · next hany =>
      refine iff_of_false (by intro h; cases h) ?_
      rintro ⟨-, hplain, -⟩
      obtain ⟨c, hc, hbad⟩ := List.any_eq_true.mp hany
      simp [(hplain c hc).1, (hplain c hc).2] at hbad
    · next hany =>
      have hplain : ∀ c ∈ (topicBase topicPrefix).toList,
          isWildcard c = false ∧ isControl c = false := by
        simpa using hany
      simp only [Except.ok.injEq]
      exact ⟨fun h => ⟨hempty, hplain, h.symm⟩, fun h => h.2.2.symm⟩

/-- A clean base is its own base. -/
theorem CleanBase.topicBase_eq {base : String} (h : CleanBase base) : topicBase base = base := by
  have hstrip : trimChar '/' base = base := by
    rw [trimChar, trimStartChar, trimEndChar, String.toList_ofList,
      Trim.rdropWhile_eq_self_iff.mpr h.end_slash, Trim.dropWhile_eq_self_iff.mpr h.start_slash,
      String.ofList_toList]
  rw [topicBase, h.trimmed, hstrip, h.trimmed]

/-- So an identity that has it for its prefix has its topics. -/
theorem CleanBase.mqttTopics {base : String} (h : CleanBase base)
    (hmqtt : identity.mqtt = some credentials) (htopic : credentials.topicPrefix = some base) :
    mqttTopicsForIdentity identity = .ok (MqttTopicSet.ofBase base) := by
  rw [mqttTopicsForIdentity_eq_ok_iff hmqtt htopic, h.topicBase_eq]
  exact ⟨h.ne_empty, h.plain, rfl⟩

/-- A base that is accepted is clean but for the slashes at its ends. -/
theorem cleanBase_iff (hne : topicBase topicPrefix ≠ "")
    (hplain : ∀ c ∈ (topicBase topicPrefix).toList, isWildcard c = false ∧ isControl c = false) :
    CleanBase (topicBase topicPrefix) ↔ SlashesTogether topicPrefix := by
  have hstrip : Trim.stripBetween isWhitespace (· = '/') topicPrefix.toList ≠ [] := by
    rw [← toList_topicBase]
    simpa using hne
  rw [SlashesTogether, ← Trim.startSettled_stripBetween_iff hstrip,
    ← Trim.endSettled_stripBetween_iff hstrip, ← toList_topicBase]
  constructor
  · exact fun h => ⟨h.start_slash, h.end_slash⟩
  · rintro ⟨hstart, hend⟩
    refine ⟨hne, hstart, hend, ?_, hplain⟩
    rw [topicBase, trim_trim]

/-- **The topics of a prefix that is accepted** share a clean base, which gives the same topics
again, exactly if the slashes at either end of the prefix stand together. -/
theorem mqttTopics_clean_iff (hmqtt : identity.mqtt = some credentials)
    (htopic : credentials.topicPrefix = some topicPrefix) {topics : MqttTopicSet}
    (hok : mqttTopicsForIdentity identity = .ok topics) :
    (∃ base, topics = MqttTopicSet.ofBase base ∧ CleanBase base ∧
      ∀ identity' credentials', identity'.mqtt = some credentials' →
        credentials'.topicPrefix = some base → mqttTopicsForIdentity identity' = .ok topics) ↔
      SlashesTogether topicPrefix := by
  obtain ⟨hne, hplain, rfl⟩ := (mqttTopicsForIdentity_eq_ok_iff hmqtt htopic).mp hok
  rw [← cleanBase_iff hne hplain]
  constructor
  · rintro ⟨base, hbase, hclean, -⟩
    rw [MqttTopicSet.ofBase_inj] at hbase
    exact hbase ▸ hclean
  · intro hclean
    exact ⟨_, rfl, hclean, fun identity' credentials' hmqtt' htopic' =>
      hclean.mqttTopics hmqtt' htopic'⟩

end

/-- The credentials of a client, with a prefix of its topics. -/
def topicCredentials (topicPrefix : String) : MqttBrokerCredentials where
  endpoint := "mqtts://mqtt.example.com:8883"
  username := "access"
  password := "broker-password"
  topicPrefix := some topicPrefix
  qos := 1
  tls := true

/-- A client with these credentials. -/
def topicIdentity (topicPrefix : String) : Identity where
  accessKey := "access"
  password := "secret"
  siteId := "site"
  defaultMaster := "https://hub.example.com"
  defaultPort := 443
  defaultPath := ""
  publicKey := none
  metadata := []
  name := none
  dataPlaneEndpoints := ⟨none, none, none⟩
  protocols := ⟨false, false, true⟩
  mqtt := some (topicCredentials topicPrefix)

/-- White space on either side of the slashes. -/
theorem mqttTopics_clean_spaced :
    mqttTopicsForIdentity (topicIdentity " / hivemind/hub / ") = .ok (.ofBase "hivemind/hub") ∧
    ∃ base, MqttTopicSet.ofBase "hivemind/hub" = MqttTopicSet.ofBase base ∧ CleanBase base ∧
      ∀ identity credentials, identity.mqtt = some credentials →
        credentials.topicPrefix = some base →
        mqttTopicsForIdentity identity = .ok (.ofBase "hivemind/hub") := by
  have hok : mqttTopicsForIdentity (topicIdentity " / hivemind/hub / ")
      = .ok (.ofBase "hivemind/hub") := by rfl
  have hspace : ∀ c ∈ [' '], isWhitespace c = true := List.forall_mem_singleton.mpr rfl
  have hslash : ∀ c ∈ ['/'], decide (c = '/') = true := List.forall_mem_singleton.mpr rfl
  refine ⟨hok, (mqttTopics_clean_iff rfl rfl hok).mpr
    ⟨⟨_, _, _, ?_, hspace, hslash, hspace⟩, ⟨_, _, _, ?_, hspace, hslash, hspace⟩⟩⟩
  · decide +kernel
  · decide +kernel

/-- A slash behind white space behind a slash stays, and is gone when its base is the prefix. -/
theorem mqttTopics_keeps_slash :
    mqttTopicsForIdentity (topicIdentity "/ /hub") = .ok (.ofBase "/hub") ∧
    mqttTopicsForIdentity (topicIdentity "/hub") = .ok (.ofBase "hub") ∧
    ¬∃ base, MqttTopicSet.ofBase "/hub" = MqttTopicSet.ofBase base ∧ CleanBase base := by
  refine ⟨by rfl, by rfl, ?_⟩
  rintro ⟨base, hbase, hclean⟩
  obtain rfl := MqttTopicSet.ofBase_inj.mp hbase
  exact absurd (hclean.start_slash '/' rfl) (by decide)

end Thalovant
