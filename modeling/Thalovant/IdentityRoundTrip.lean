import Thalovant.IdentityValue

/-!
# Reading back a written identity

* `fromValue_toValue_iff`: an identity is read back as it is, exactly where taking the slashes off what it
  was read from leaves no white space at an end, and something of the master
-/

namespace Thalovant

/-! ## What the libraries do -/

/-- How the JSON printer writes numbers: an integer in decimal digits. -/
structure DisplaysNumbers (numbers : Json.NumberFormat Number) : Prop where
  ne_nil : ∀ n, numbers.render n ≠ []
  chars : ∀ n, ∀ c ∈ numbers.render n, Json.isNumberChar c = true
  integers : ∀ n, numbers.render (.posInt n) = Nat.toDigits 10 n.toNat

/-- No text is no URL, and an endpoint is one without its last slashes. -/
structure StripsSlashes (urls : UrlLibrary) : Prop where
  empty : urls.parse "" = none
  strip : ∀ raw, isEndpoint urls raw = true → isEndpoint urls (trimEndChar '/' raw) = true

/-! ## Settled texts -/

/-- There is something in the text, and nothing around it. -/
def IsSettled (text : String) : Prop := text ≠ "" ∧ trim text = text

/-- The text does not end in white space. -/
def EndsPlain (text : String) : Prop := Trim.EndSettled isWhitespace text.toList

theorem toList_trimEndChar (c : Char) (text : String) :
    (trimEndChar c text).toList = text.toList.rdropWhile (· = c) := String.toList_ofList

theorem toList_trimChar (c : Char) (text : String) :
    (trimChar c text).toList = (text.toList.rdropWhile (· = c)).dropWhile (· = c) := by
  rw [trimChar, trimStartChar, String.toList_ofList, toList_trimEndChar]

theorem trim_eq_self_iff {text : String} : trim text = text ↔
    Trim.StartSettled isWhitespace text.toList ∧ EndsPlain text := by
  rw [EndsPlain, ← Trim.both_eq_self_iff, ← toList_trim, String.toList_inj]

section

variable {numbers : Json.NumberFormat Number}

theorem stringValue_of_isSettled {text : String} (h : IsSettled text) :
    stringValue numbers (.string text) = some text := by
  rw [stringValue, h.2, if_neg h.1]

/-- White space or a quote. -/
def isAround (c : Char) : Bool := isWhitespace c || c = '"'

theorem isAround_of_isNumberChar {c : Char} (h : Json.isNumberChar c = true) : isAround c = false := by
  have hc : ∀ d : Char, (d.isDigit = true ∨ d ∈ ['+', '-', '.', 'e', 'E']) → isAround d = false := by
    intro d hd
    rcases hd with hd | hd
    · have hlow : 48 ≤ d.toNat ∧ d.toNat ≤ 57 := Char.isDigit_iff_toNat.mp hd
      have hquote : d ≠ '"' := by
        rintro rfl
        exact absurd hlow (by decide)
      simp only [isAround, isWhitespace, hquote, decide_false, Bool.or_false, Bool.or_eq_false_iff,
        Bool.and_eq_false_iff, decide_eq_false_iff_not]
      omega
    · have hall : ['+', '-', '.', 'e', 'E'].all (fun e => !isAround e) = true := by decide
      simpa using List.all_eq_true.mp hall d hd
  refine hc c ?_
  simpa [Json.isNumberChar, or_assoc] using h

/-- The text of a value that is no string has neither white space nor a quote at its ends. -/
theorem print_ends (h : DisplaysNumbers numbers) {value : Value} (hs : ∀ s, value ≠ .string s) :
    Json.print numbers value ≠ [] ∧ Trim.StartSettled isAround (Json.print numbers value) ∧
      Trim.EndSettled isAround (Json.print numbers value) := by
  have hbracketed : ∀ (first last : Char) (inside : List Char), isAround first = false →
      isAround last = false → first :: (inside ++ [last]) ≠ [] ∧
        Trim.StartSettled isAround (first :: (inside ++ [last])) ∧
        Trim.EndSettled isAround (first :: (inside ++ [last])) := by
    intro first last inside hfirst hlast
    refine ⟨List.cons_ne_nil _ _, fun c hc => ?_, fun c hc => ?_⟩
    · obtain rfl : first = c := by simpa using hc
      exact hfirst
    · rw [← List.cons_append, List.getLast?_append] at hc
      obtain rfl : last = c := by simpa using hc
      exact hlast
  cases value with
  | null => exact hbracketed 'n' 'l' "ul".toList (by decide) (by decide)
  | bool b =>
    cases b with
    | false => exact hbracketed 'f' 'e' "als".toList (by decide) (by decide)
    | true => exact hbracketed 't' 'e' "ru".toList (by decide) (by decide)
  | number n =>
    rw [Json.print]
    have hchars := fun c hc => isAround_of_isNumberChar (h.chars n c hc)
    exact ⟨h.ne_nil n, fun c hc => hchars c (List.mem_of_mem_head? hc),
      fun c hc => hchars c (List.mem_of_getLast? hc)⟩
  | string s => exact absurd rfl (hs s)
  | array items =>
    rw [Json.print_array]
    exact hbracketed '[' ']' _ (by decide) (by decide)
  | object entries =>
    rw [Json.print_object]
    exact hbracketed '{' '}' _ (by decide) (by decide)

/-- The quotes that are taken off are those of a string. -/
theorem trimChar_print (h : DisplaysNumbers numbers) {value : Value} (hs : ∀ s, value ≠ .string s) :
    trimChar '"' (String.ofList (Json.print numbers value)) = String.ofList (Json.print numbers value) := by
  obtain ⟨-, hstart, hstop⟩ := print_ends h hs
  have hquote : ∀ c, decide (c = '"') = true → isAround c = true := by simp [isAround]
  rw [← String.toList_inj, toList_trimChar, String.toList_ofList,
    Trim.rdropWhile_eq_self_iff.mpr (hstop.mono hquote),
    Trim.dropWhile_eq_self_iff.mpr (hstart.mono hquote)]

theorem isSettled_print (h : DisplaysNumbers numbers) {value : Value} (hs : ∀ s, value ≠ .string s) :
    IsSettled (String.ofList (Json.print numbers value)) := by
  obtain ⟨hne, hstart, hstop⟩ := print_ends h hs
  have hspace : ∀ c, isWhitespace c = true → isAround c = true := by
    intro c hc
    simp [isAround, hc]
  refine ⟨fun hnil => hne (String.ofList_eq_empty_iff.mp hnil), trim_eq_self_iff.mpr ?_⟩
  rw [EndsPlain, String.toList_ofList]
  exact ⟨hstart.mono hspace, hstop.mono hspace⟩

theorem isSettled_trim {raw : String} (h : trim raw ≠ "") : IsSettled (trim raw) :=
  ⟨h, trim_trim raw⟩

/-- What is read as a text is settled. -/
theorem isSettled_of_stringValue (h : DisplaysNumbers numbers) {value : Value} {text : String}
    (htext : stringValue numbers value = some text) : IsSettled text := by
  have hother : (∀ s, value ≠ .string s) →
      IsSettled (trimChar '"' (String.ofList (Json.print numbers value))) := fun hs => by
    rw [trimChar_print h hs]
    exact isSettled_print h hs
  cases value with
  | null => cases htext
  | string raw =>
    rw [stringValue] at htext
    split at htext
    · cases htext
    · next hne => exact Option.some.inj htext ▸ isSettled_trim hne
  | _ => exact Option.some.inj htext ▸ hother (by simp)

theorem isSettled_of_optionalString (h : DisplaysNumbers numbers) {object : Map} {key : String}
    {aliases : List String} {text : String}
    (htext : optionalString numbers object key aliases = some text) : IsSettled text := by
  obtain ⟨value, -, hvalue⟩ := Option.bind_eq_some_iff.mp htext
  exact isSettled_of_stringValue h hvalue

theorem isSettled_of_firstString (h : DisplaysNumbers numbers) {object : Map} {keys : List String}
    {text : String} (htext : firstString numbers object keys = some text) : IsSettled text := by
  obtain ⟨key, -, hkey⟩ := List.exists_of_findSome?_eq_some htext
  obtain ⟨value, -, hvalue⟩ := Option.bind_eq_some_iff.mp hkey
  exact isSettled_of_stringValue h hvalue

/-- What was read as a text, or not, is read again. -/
theorem stringValue_optionValue {text : Option String} (h : ∀ t, text = some t → IsSettled t) :
    stringValue numbers (optionValue text) = text := by
  cases text with
  | none => rfl
  | some t => exact stringValue_of_isSettled (h t rfl)

end

/-! ## Slashes -/

theorem isWhitespace_slash : isWhitespace '/' = false := by decide

theorem IsSettled.start {text : String} (h : IsSettled text) :
    Trim.StartSettled isWhitespace text.toList := (trim_eq_self_iff.mp h.2).1

/-- Stripping the last slashes leaves the start of a text. -/
theorem IsSettled.start_trimEndChar {text : String} (h : IsSettled text) :
    Trim.StartSettled isWhitespace (trimEndChar '/' text).toList := by
  rw [toList_trimEndChar]
  exact h.start.rdropWhile

/-- A text without its last slashes stays as it is if it does not end in white space. -/
theorem trimEndChar_trim_iff {text : String} (h : IsSettled text) :
    trimEndChar '/' (trim (trimEndChar '/' text)) = trimEndChar '/' text ↔
      EndsPlain (trimEndChar '/' text) := by
  rw [← String.toList_inj, toList_trimEndChar, toList_trim, EndsPlain]
  refine Trim.rdropWhile_both_eq_self_iff h.start_trimEndChar ?_
  rw [toList_trimEndChar]
  exact Trim.endSettled_rdropWhile _

/-- So does a path that is put behind one slash. -/
theorem trimChar_trim_iff {path : String} (hne : trimChar '/' path ≠ "") :
    trimChar '/' (trim ("/" ++ trimChar '/' path)) = trimChar '/' path ↔
      EndsPlain (trimChar '/' path) := by
  have hlist : ("/" ++ trimChar '/' path).toList = '/' :: (trimChar '/' path).toList := by
    rw [String.toList_append]
    rfl
  have hstart : Trim.StartSettled (fun c => decide (c = '/')) (trimChar '/' path).toList := by
    rw [toList_trimChar]
    exact Trim.startSettled_dropWhile _
  have hstop : Trim.EndSettled (fun c => decide (c = '/')) (trimChar '/' path).toList := by
    rw [toList_trimChar]
    exact (Trim.endSettled_rdropWhile _).dropWhile
  have hnil : (trimChar '/' path).toList ≠ [] := fun h => hne (String.toList_eq_nil_iff.mp h)
  rw [← String.toList_inj, toList_trimChar, toList_trim, hlist, EndsPlain]
  exact Trim.strip_both_cons_eq_self_iff isWhitespace_slash (by decide) hnil hstart hstop

section

variable {numbers : Json.NumberFormat Number} {urls : UrlLibrary}

/-- A master is read back as it is if there is something of it, and no white space at its end. -/
theorem master_iff {text : String} (h : IsSettled text) :
    (∃ read, stringValue numbers (.string (trimEndChar '/' text)) = some read ∧
      trimEndChar '/' text = trimEndChar '/' read) ↔
    trimEndChar '/' text ≠ "" ∧ EndsPlain (trimEndChar '/' text) := by
  rw [stringValue]
  constructor
  · rintro ⟨read, hread, heq⟩
    split at hread
    · cases hread
    · next hne =>
      obtain rfl := Option.some.inj hread
      refine ⟨fun hnil => hne ?_, (trimEndChar_trim_iff h).mp heq.symm⟩
      rw [hnil]
      rfl
  · rintro ⟨hne, hplain⟩
    have htrim : trim (trimEndChar '/' text) = trimEndChar '/' text :=
      trim_eq_self_iff.mpr ⟨h.start_trimEndChar, hplain⟩
    rw [htrim, if_neg hne]
    exact ⟨_, rfl, ((trimEndChar_trim_iff h).mpr hplain).symm.trans (by rw [htrim])⟩

theorem normalizePath_of_empty :
    normalizePath (stringValue numbers (.string "")) = "" := by
  rw [stringValue, if_pos (by decide), normalizePath]

/-- A path is read back as it is if there is no white space at its end. -/
theorem path_iff (path : Option String) :
    normalizePath (stringValue numbers (.string (normalizePath path))) = normalizePath path ↔
      ∀ text, path = some text → EndsPlain (trimChar '/' text) := by
  cases path with
  | none => exact ⟨fun _ text h => (by cases h), fun _ => normalizePath_of_empty⟩
  | some text =>
    simp only [Option.some.injEq, forall_eq']
    rw [normalizePath]
    by_cases hnil : trimChar '/' text = ""
    · rw [if_pos hnil, normalizePath_of_empty, hnil]
      simp [EndsPlain, Trim.EndSettled]
    · have hslash : trim ("/" ++ trimChar '/' text) ≠ "" := by
        intro h
        have hall := congrArg String.toList h
        rw [toList_trim, String.toList_append] at hall
        have hspace := Trim.both_eq_nil_iff.mp hall '/' (List.mem_append_left _ (by decide))
        exact absurd hspace (by decide)
      rw [if_neg hnil, stringValue, if_neg hslash, normalizePath, ← trimChar_trim_iff hnil]
      split
      · next h => simp [h, Ne.symm hnil]
      · exact String.append_right_inj "/"

/-- An endpoint is read back as it is if there is no white space at its end. -/
theorem endpoint_iff (hurls : StripsSlashes urls) {value : Option String}
    (hvalue : ∀ text, value = some text → IsSettled text) :
    normalizeEndpoint urls ((normalizeEndpoint urls value).bind fun text =>
        stringValue numbers (.string text)) = normalizeEndpoint urls value ↔
      ∀ text, value = some text → isEndpoint urls text = true → EndsPlain (trimEndChar '/' text) := by
  cases value with
  | none => simp [normalizeEndpoint]
  | some text =>
    have htext := hvalue text rfl
    have hread : normalizeEndpoint urls (some text)
        = if isEndpoint urls text = true then some (trimEndChar '/' text) else none := by
      simp only [normalizeEndpoint, Option.map_some, htext.2, if_neg htext.1]
    simp only [Option.some.injEq, forall_eq']
    rw [hread]
    by_cases hendpoint : isEndpoint urls text = true
    · have hstripped := hurls.strip text hendpoint
      -- what is left of an endpoint without its slashes is one, and so is not empty
      have hne : trimEndChar '/' text ≠ "" := by
        intro hnil
        rw [hnil, isEndpoint, hurls.empty] at hstripped
        cases hstripped
      rw [if_pos hendpoint, Option.bind_some, stringValue]
      simp only [hendpoint, true_implies]
      rw [← trimEndChar_trim_iff htext]
      constructor
      · intro h
        split at h
        · cases h
        · next htrim =>
          simp only [normalizeEndpoint, Option.map_some, trim_trim, if_neg htrim] at h
          split at h
          · exact Option.some.inj h
          · cases h
      · intro h
        have htrim : trim (trimEndChar '/' text) = trimEndChar '/' text :=
          trim_eq_self_iff.mpr ⟨htext.start_trimEndChar, (trimEndChar_trim_iff htext).mp h⟩
        rw [htrim] at h ⊢
        simp only [if_neg hne, normalizeEndpoint, Option.map_some, htrim, hstripped, if_true]
        rw [h]
    · simp [hendpoint, normalizeEndpoint]

/-! ## What is read of an object -/

/-- An identity is what is read of an object. -/
structure ReadFrom (numbers : Json.NumberFormat Number) (urls : UrlLibrary) (object : Map)
    (identity : Identity) : Prop where
  accessKey : optionalString numbers object "access_key" ["accessKey", "key"] = some identity.accessKey
  password : optionalString numbers object "password" ["secret"] = some identity.password
  siteId : optionalString numbers object "site_id" ["siteId", "site"] = some identity.siteId
  defaultMaster : ∃ text, optionalString numbers object "default_master"
    ["defaultMaster", "host", "master"] = some text ∧ identity.defaultMaster = trimEndChar '/' text
  defaultPort : ∃ port, optionalPort numbers object "default_port" ["defaultPort", "port"] = .ok port ∧
    identity.defaultPort = port.getD 443
  defaultPath : identity.defaultPath = normalizePath (optionalString numbers object "default_path"
    ["defaultPath", "hub_http_path", "path", "uri_path"])
  publicKey : identity.publicKey = optionalString numbers object "public_key" ["publicKey"]
  metadata : identity.metadata = ((Map.get "metadata" object).bind Json.Value.asObject).getD []
  name : identity.name = optionalString numbers object "name" []
  dataPlaneEndpoints : identity.dataPlaneEndpoints = .fromObject numbers urls object
  protocols : identity.protocols = .fromObject object
  mqtt : identity.mqtt = MqttBrokerCredentials.fromValue numbers (Map.get "mqtt" object)

theorem requiredString_eq_ok {object : Map} {key : String} {aliases : List String} {text : String} :
    requiredString numbers object key aliases = .ok text ↔
      optionalString numbers object key aliases = some text := by
  unfold requiredString
  cases optionalString numbers object key aliases with
  | none => simp
  | some text' => simp

theorem bind_eq_ok_iff {α β : Type} {x : Result α} {f : α → Result β} {b : β} :
    (x >>= f) = .ok b ↔ ∃ a, x = .ok a ∧ f a = .ok b := by
  cases x with
  | error err =>
    constructor
    · intro h
      cases h
    · rintro ⟨_, h, -⟩
      cases h
  | ok a =>
    constructor
    · exact fun h => ⟨a, rfl, h⟩
    · rintro ⟨a', h, hf⟩
      exact Except.ok.inj h ▸ hf

theorem fromValue_iff {object : Map} {identity : Identity} :
    Identity.fromValue numbers urls (.object object) = .ok identity ↔
      ReadFrom numbers urls object identity := by
  unfold Identity.fromValue
  simp only [Json.Value.asObject, bind_eq_ok_iff, requiredString_eq_ok]
  constructor
  · rintro ⟨accessKey, haccess, password, hpassword, siteId, hsite, master, hmaster, port, hport, hall⟩
    obtain rfl := Except.ok.inj hall
    exact ⟨haccess, hpassword, hsite, ⟨master, hmaster, rfl⟩, ⟨port, hport, rfl⟩, rfl, rfl, rfl, rfl,
      rfl, rfl, rfl⟩
  · intro h
    obtain ⟨master, hmaster, hmaster'⟩ := h.defaultMaster
    obtain ⟨port, hport, hport'⟩ := h.defaultPort
    refine ⟨_, h.accessKey, _, h.password, _, h.siteId, master, hmaster, port, hport, ?_⟩
    rw [← hmaster', ← hport', ← h.defaultPath, ← h.publicKey, ← h.metadata, ← h.name,
      ← h.dataPlaneEndpoints, ← h.protocols, ← h.mqtt]
    rfl

/-! ## What is read of what is written -/

theorem optionalString_of_get {object : Map} {key : String} {aliases : List String} {value : Value}
    (h : object.get key = some value) :
    optionalString numbers object key aliases = stringValue numbers value := by
  simp [optionalString, h]

/-- A number in decimal digits is read. -/
theorem parseUnsigned_toDigits {bound n : Nat} (h : n < bound) :
    parseUnsigned bound (String.ofList (Nat.toDigits 10 n)) = some n := by
  have hdigits : ∀ c ∈ Nat.toDigits 10 n, c.isDigit = true := fun c hc =>
    Nat.isDigit_of_mem_toDigits (by decide) (by decide) hc
  have hvalue : Nat.ofDigitChars 10 (Nat.toDigits 10 n) 0 = n := Nat.ofDigitChars_toDigits (by decide) (by decide)
  have hplus : ∀ digits, Nat.toDigits 10 n ≠ '+' :: digits := by
    intro digits h
    have hdigit := hdigits '+' (by rw [h]; exact List.mem_cons_self)
    exact absurd hdigit (by decide)
  have hall : (Nat.toDigits 10 n).all Char.isDigit = true := List.all_eq_true.mpr hdigits
  have hempty : (Nat.toDigits 10 n).isEmpty = false :=
    List.isEmpty_eq_false_iff.mpr Nat.toDigits_ne_nil
  unfold parseUnsigned
  rw [String.toList_ofList]
  split
  · next digits heq => exact absurd heq (hplus digits)
  · dsimp only
    rw [hempty, hall, hvalue]
    simp [h]

theorem optionalPort_fields (h : DisplaysNumbers numbers) (identity : Identity) (aliases : List String) :
    optionalPort numbers identity.fields "default_port" aliases = .ok (some identity.defaultPort) := by
  have hget : identity.fields.get "default_port"
      = some (.number (.posInt identity.defaultPort.toUInt64)) := by rfl
  have htext : stringValue numbers (.number (.posInt identity.defaultPort.toUInt64))
      = some (String.ofList (Nat.toDigits 10 identity.defaultPort.toNat)) := by
    show some (trimChar '"' (String.ofList (Json.print numbers _))) = _
    rw [trimChar_print h (by simp), Json.print, h.integers, UInt16.toNat_toUInt64]
  unfold optionalPort
  rw [optionalString_of_get hget, htext]
  dsimp only
  rw [parseUnsigned_toDigits identity.defaultPort.toNat_lt]
  dsimp only
  rw [UInt16.ofNat_toNat]

/-- What holds of credentials that were read. -/
structure MqttBrokerCredentials.IsRead (mqtt : MqttBrokerCredentials) : Prop where
  endpoint : IsSettled mqtt.endpoint
  username : IsSettled mqtt.username
  password : IsSettled mqtt.password
  topicPrefix : ∀ text, mqtt.topicPrefix = some text → IsSettled text
  qos : mqtt.qos ≤ 1

theorem MqttBrokerCredentials.isRead_of_fromValue (h : DisplaysNumbers numbers) {value : Option Value}
    {mqtt : MqttBrokerCredentials} (hmqtt : fromValue numbers value = some mqtt) : mqtt.IsRead := by
  unfold fromValue at hmqtt
  simp only [Option.bind_eq_bind, Option.bind_eq_some_iff, Option.pure_def, Option.some.injEq] at hmqtt
  obtain ⟨object, -, endpoint, hendpoint, username, husername, password, hpassword, rfl⟩ := hmqtt
  refine ⟨isSettled_of_optionalString h hendpoint, isSettled_of_optionalString h husername,
    isSettled_of_optionalString h hpassword, fun text htext => isSettled_of_optionalString h htext, ?_⟩
  dsimp only
  split
  · next hle => exact hle
  · decide

theorem MqttBrokerCredentials.fromValue_toValue {mqtt : MqttBrokerCredentials} (h : mqtt.IsRead) :
    fromValue numbers (some mqtt.toValue) = some mqtt := by
  have hendpoint : optionalString numbers mqtt.fields "endpoint" ["broker_url", "brokerUrl"]
      = some mqtt.endpoint :=
    (optionalString_of_get rfl).trans (stringValue_of_isSettled h.endpoint)
  have husername : optionalString numbers mqtt.fields "username" ["broker_username", "brokerUsername"]
      = some mqtt.username :=
    (optionalString_of_get rfl).trans (stringValue_of_isSettled h.username)
  have hpassword : optionalString numbers mqtt.fields "password" ["broker_password", "brokerPassword"]
      = some mqtt.password :=
    (optionalString_of_get rfl).trans (stringValue_of_isSettled h.password)
  have htopic : optionalString numbers mqtt.fields "topic_prefix" ["topicPrefix"] = mqtt.topicPrefix :=
    (optionalString_of_get rfl).trans (stringValue_optionValue h.topicPrefix)
  have hqos : optionalU8 mqtt.fields "qos" = some mqtt.qos := by
    have hget : mqtt.fields.get "qos" = some (.number (.posInt mqtt.qos.toUInt64)) := by rfl
    rw [optionalU8, hget]
    dsimp only
    rw [Number.asU64, UInt8.toNat_toUInt64, Option.filter_some,
      if_pos (by simpa using mqtt.qos.toNat_lt), Option.map_some, UInt8.ofNat_toNat]
  have htls : optionalBool mqtt.fields "tls" = some mqtt.tls := by rfl
  unfold fromValue
  rw [show (some mqtt.toValue).bind Json.Value.asObject = some mqtt.fields from rfl]
  simp only [Option.bind_eq_bind, Option.bind_some, hendpoint, husername, hpassword, htopic, hqos, htls,
    Option.getD_some, h.qos, if_true, Option.pure_def]

theorem HubProtocolSettings.fromObject_fields (identity : Identity) :
    fromObject identity.fields = identity.protocols := by rfl

theorem firstString_pair (object : Map) (key other : String) :
    firstString numbers object [key, other] = ((object.get key).bind (stringValue numbers)).or
      ((object.get other).bind (stringValue numbers)) := by
  rw [firstString, List.findSome?_cons, List.findSome?_cons, List.findSome?_nil]
  cases (object.get key).bind (stringValue numbers) with
  | some text => rfl
  | none =>
    cases (object.get other).bind (stringValue numbers) <;> rfl

theorem HubDataPlaneEndpoints.fromObject_fields (identity : Identity) :
    fromObject numbers urls identity.fields =
      { https := normalizeEndpoint urls (identity.dataPlaneEndpoints.https.bind fun text =>
          stringValue numbers (.string text))
        wss := normalizeEndpoint urls (identity.dataPlaneEndpoints.wss.bind fun text =>
          stringValue numbers (.string text))
        mqtt := normalizeEndpoint urls (identity.dataPlaneEndpoints.mqtt.bind fun text =>
          stringValue numbers (.string text)) } := by
  have hsource : endpointSource identity.fields
      = [("https", identity.dataPlaneEndpoints.https), ("mqtt", identity.dataPlaneEndpoints.mqtt),
          ("wss", identity.dataPlaneEndpoints.wss)].filterMap
        fun entry => entry.2.map fun endpoint => (entry.1, .string endpoint) := by rfl
  unfold fromObject
  rw [hsource]
  rcases identity.dataPlaneEndpoints with ⟨_ | https, _ | wss, _ | mqtt⟩ <;>
    simp [firstString_pair, Map.get, SortedMap.get]

/-! ## The round trip -/

/-- Taking the slashes off what an identity is read from leaves no white space at an end, and something
of the master. -/
structure StripsClean (numbers : Json.NumberFormat Number) (urls : UrlLibrary) (object : Map) : Prop where
  master : ∀ text, optionalString numbers object "default_master" ["defaultMaster", "host", "master"]
    = some text → trimEndChar '/' text ≠ "" ∧ EndsPlain (trimEndChar '/' text)
  path : ∀ text, optionalString numbers object "default_path"
    ["defaultPath", "hub_http_path", "path", "uri_path"] = some text → EndsPlain (trimChar '/' text)
  endpoints : ∀ keys ∈ [["https", "http"], ["wss", "ws"], ["mqtt", "mqtts"]], ∀ text,
    firstString numbers (endpointSource object) keys = some text → isEndpoint urls text = true →
      EndsPlain (trimEndChar '/' text)

/-- What is read again of what is written of an identity that was read. -/
theorem readFrom_fields_iff (h : DisplaysNumbers numbers) (hurls : StripsSlashes urls) {object : Map}
    {identity : Identity} (hread : ReadFrom numbers urls object identity) :
    ReadFrom numbers urls identity.fields identity ↔ StripsClean numbers urls object := by
  obtain ⟨master, hmaster, hmaster'⟩ := hread.defaultMaster
  have hgetMaster : optionalString numbers identity.fields "default_master"
      ["defaultMaster", "host", "master"] = stringValue numbers (.string identity.defaultMaster) :=
    optionalString_of_get rfl
  have hgetPath : optionalString numbers identity.fields "default_path"
      ["defaultPath", "hub_http_path", "path", "uri_path"]
        = stringValue numbers (.string identity.defaultPath) := optionalString_of_get rfl
  -- what was read has been trimmed and stripped, as far as its reader does it
  have hfirst : ∀ keys text, firstString numbers (endpointSource object) keys = some text →
      IsSettled text := fun _ _ htext => isSettled_of_firstString h htext
  have hsettled : IsSettled master := isSettled_of_optionalString h hmaster
  constructor
  · -- read again: each of the three places where a text is stripped gives its condition
    intro hagain
    refine ⟨fun text htext => ?_, fun text htext => ?_, fun keys hkeys text htext hendpoint => ?_⟩
    · obtain rfl := Option.some.inj (hmaster.symm.trans htext)
      obtain ⟨read, hread', heq⟩ := hagain.defaultMaster
      rw [hgetMaster] at hread'
      rw [hmaster'] at hread' heq
      exact (master_iff hsettled).mp ⟨read, hread', heq⟩
    · have hpath := hagain.defaultPath
      rw [hgetPath, hread.defaultPath] at hpath
      exact (path_iff _).mp hpath.symm text htext
    · have hendpoints := hagain.dataPlaneEndpoints
      rw [HubDataPlaneEndpoints.fromObject_fields, hread.dataPlaneEndpoints] at hendpoints
      obtain ⟨hhttps, hwss, hmqtt⟩ := HubDataPlaneEndpoints.mk.inj hendpoints
      simp only [List.mem_cons, List.not_mem_nil, or_false] at hkeys
      rcases hkeys with rfl | rfl | rfl
      · exact (endpoint_iff hurls (hfirst _)).mp hhttps.symm text htext hendpoint
      · exact (endpoint_iff hurls (hfirst _)).mp hwss.symm text htext hendpoint
      · exact (endpoint_iff hurls (hfirst _)).mp hmqtt.symm text htext hendpoint
  · -- and where these hold every field is read as it was written
    intro hclean
    refine ⟨?_, ?_, ?_, ?_, ?_, ?_, ?_, ?_, ?_, ?_, ?_, ?_⟩
    · exact (optionalString_of_get rfl).trans
        (stringValue_of_isSettled (isSettled_of_optionalString h hread.accessKey))
    · exact (optionalString_of_get rfl).trans
        (stringValue_of_isSettled (isSettled_of_optionalString h hread.password))
    · exact (optionalString_of_get rfl).trans
        (stringValue_of_isSettled (isSettled_of_optionalString h hread.siteId))
    · rw [hgetMaster, hmaster']
      exact (master_iff hsettled).mpr (hclean.master master hmaster)
    · exact ⟨_, optionalPort_fields h identity _, rfl⟩
    · rw [hgetPath, hread.defaultPath]
      exact ((path_iff _).mpr hclean.path).symm
    · refine ((optionalString_of_get rfl).trans (stringValue_optionValue fun text htext => ?_)).symm
      exact isSettled_of_optionalString h (hread.publicKey.symm.trans htext)
    · rfl
    · refine ((optionalString_of_get rfl).trans (stringValue_optionValue fun text htext => ?_)).symm
      exact isSettled_of_optionalString h (hread.name.symm.trans htext)
    · rw [HubDataPlaneEndpoints.fromObject_fields, hread.dataPlaneEndpoints]
      refine HubDataPlaneEndpoints.mk.injEq .. |>.mpr ⟨?_, ?_, ?_⟩
      · exact ((endpoint_iff hurls (hfirst _)).mpr (hclean.endpoints _ (by simp))).symm
      · exact ((endpoint_iff hurls (hfirst _)).mpr (hclean.endpoints _ (by simp))).symm
      · exact ((endpoint_iff hurls (hfirst _)).mpr (hclean.endpoints _ (by simp))).symm
    · exact (HubProtocolSettings.fromObject_fields identity).symm
    · have hget : identity.fields.get "mqtt"
          = some ((identity.mqtt.map MqttBrokerCredentials.toValue).getD .null) := by rfl
      rw [hget]
      cases hmqtt : identity.mqtt with
      | none => rfl
      | some mqtt =>
        have hisRead := MqttBrokerCredentials.isRead_of_fromValue h (hread.mqtt.symm.trans hmqtt)
        exact (MqttBrokerCredentials.fromValue_toValue hisRead).symm

end

/-- **A written identity is read back as it is, exactly where the slashes come off clean.** -/
theorem fromValue_toValue_iff (numbers : Json.NumberFormat Number) (urls : UrlLibrary)
    (hnumbers : DisplaysNumbers numbers) (hurls : StripsSlashes urls) (value : Value)
    (identity : Identity) (h : Identity.fromValue numbers urls value = .ok identity) :
    Identity.fromValue numbers urls identity.toValue = .ok identity ↔
      ∃ object, value = .object object ∧ StripsClean numbers urls object := by
  obtain ⟨object, rfl⟩ : ∃ object, value = .object object := by
    cases value with
    | object object => exact ⟨object, rfl⟩
    | _ => cases h
  rw [Identity.toValue, fromValue_iff, readFrom_fields_iff hnumbers hurls (fromValue_iff.mp h)]
  simp

/-! ## Identities that are read back, and not -/

/-- Integers in decimal; the only floating-point number is zero. -/
def decimalNumbers : Json.NumberFormat Number where
  render
    | .posInt n => Nat.toDigits 10 n.toNat
    | .negInt n => '-' :: Nat.toDigits 10 n.toInt.natAbs
    | .float _ => "0.0".toList
  read _ := none

theorem displaysNumbers_decimalNumbers : DisplaysNumbers decimalNumbers where
  ne_nil n := by
    cases n with
    | posInt n => exact Nat.toDigits_ne_nil
    | negInt n => exact List.cons_ne_nil _ _
    | float bits => exact List.cons_ne_nil _ _
  chars n c hc := by
    have hdigits : ∀ m, c ∈ Nat.toDigits 10 m → Json.isNumberChar c = true := fun m hm => by
      simp [Json.isNumberChar, Nat.isDigit_of_mem_toDigits (by decide) (by decide) hm]
    cases n with
    | posInt n => exact hdigits _ hc
    | negInt n =>
      rcases List.mem_cons.mp hc with rfl | hc
      · decide
      · exact hdigits _ hc
    | float bits =>
      have hall : "0.0".toList.all Json.isNumberChar = true := by decide
      exact List.all_eq_true.mp hall c hc
  integers n := rfl

/-- The URL library on the URL below. -/
def bareHubUrls : UrlLibrary where
  parse raw :=
    if trimEndChar '/' raw = "https://hub.example" then
      some ⟨"https", "", none, some "hub.example", none, "/", none, none⟩
    else none
  print _ := "https://hub.example/"

theorem stripsSlashes_bareHubUrls : StripsSlashes bareHubUrls where
  empty := by decide
  strip raw h := by
    have hidem : trimEndChar '/' (trimEndChar '/' raw) = trimEndChar '/' raw := by
      rw [← String.toList_inj, toList_trimEndChar, toList_trimEndChar, List.rdropWhile_idempotent]
    unfold isEndpoint bareHubUrls at h ⊢
    dsimp only at h ⊢
    rwa [hidem]

def hubFields : Map :=
  [("endpoints", .object [("http", .string " https://hub.example/ ")]),
    ("key", .number (.posInt 7)), ("master", .string " https://hub.example// "),
    ("path", .string "/api/"), ("port", .string "8443"), ("secret", .bool true),
    ("site", .string "home")]

def hubIdentity : Identity where
  accessKey := "7"
  password := "true"
  siteId := "home"
  defaultMaster := "https://hub.example"
  defaultPort := 8443
  defaultPath := "/api"
  publicKey := none
  metadata := []
  name := none
  dataPlaneEndpoints := ⟨some "https://hub.example", none, none⟩
  protocols := ⟨true, false, false⟩
  mqtt := none

theorem stripsClean_hubFields : StripsClean decimalNumbers bareHubUrls hubFields where
  master text htext := by
    have hmaster : optionalString decimalNumbers hubFields "default_master"
      ["defaultMaster", "host", "master"] = some "https://hub.example//" := by rfl
    obtain rfl := Option.some.inj (hmaster.symm.trans htext)
    unfold EndsPlain
    decide +kernel
  path text htext := by
    have hpath : optionalString decimalNumbers hubFields "default_path"
      ["defaultPath", "hub_http_path", "path", "uri_path"] = some "/api/" := by rfl
    obtain rfl := Option.some.inj (hpath.symm.trans htext)
    unfold EndsPlain
    decide +kernel
  endpoints keys hkeys text htext _ := by
    have hhttps : firstString decimalNumbers (endpointSource hubFields) ["https", "http"]
      = some "https://hub.example/" := by rfl
    have hwss : firstString decimalNumbers (endpointSource hubFields) ["wss", "ws"] = none := by rfl
    have hmqtt : firstString decimalNumbers (endpointSource hubFields) ["mqtt", "mqtts"] = none := by rfl
    simp only [List.mem_cons, List.not_mem_nil, or_false] at hkeys
    rcases hkeys with rfl | rfl | rfl
    · obtain rfl := Option.some.inj (hhttps.symm.trans htext)
      unfold EndsPlain
      decide +kernel
    · cases hwss.symm.trans htext
    · cases hmqtt.symm.trans htext

/-- An identity that is read back. -/
theorem fromValue_toValue_hubIdentity :
    Identity.fromValue decimalNumbers bareHubUrls (.object hubFields) = .ok hubIdentity ∧
    Identity.fromValue decimalNumbers bareHubUrls hubIdentity.toValue = .ok hubIdentity := by
  have hread : Identity.fromValue decimalNumbers bareHubUrls (.object hubFields) = .ok hubIdentity := by rfl
  exact ⟨hread, (fromValue_toValue_iff decimalNumbers bareHubUrls displaysNumbers_decimalNumbers
    stripsSlashes_bareHubUrls (.object hubFields) hubIdentity hread).mpr
      ⟨hubFields, rfl, stripsClean_hubFields⟩⟩

/-- A master of slashes is accepted, and nothing of it is written. -/
def slashValue : Value :=
  .object [("access_key", .string "key"), ("default_master", .string "///"),
    ("password", .string "password"), ("site_id", .string "site")]

def slashIdentity : Identity where
  accessKey := "key"
  password := "password"
  siteId := "site"
  defaultMaster := ""
  defaultPort := 443
  defaultPath := ""
  publicKey := none
  metadata := []
  name := none
  dataPlaneEndpoints := ⟨none, none, none⟩
  protocols := ⟨true, false, false⟩
  mqtt := none

/-- The written identity is refused. -/
theorem fromValue_toValue_slashIdentity :
    Identity.fromValue decimalNumbers bareHubUrls slashValue = .ok slashIdentity ∧
    Identity.fromValue decimalNumbers bareHubUrls slashIdentity.toValue
      = .error (.missingIdentityField "default_master") := ⟨by rfl, by rfl⟩

end Thalovant
