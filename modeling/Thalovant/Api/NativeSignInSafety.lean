import Thalovant.Api.NativeSignIn

/-!
# Redirects that answer a sign-in

What `codeFrom` checks is not all that makes a redirect the answer to an attempt: a redirect to another
port passes, and so does one whose last `state` only is the attempt's. And an attempt can start with a
redirect URI that no redirect can arrive at. `redirect_check` says when neither matters.
-/

namespace Thalovant.Api

/-! ## Parameters -/

/-- The values of the parameters of one name, in order. -/
def valuesOf (name : String) (pairs : List (String × String)) : List String :=
  (pairs.filter fun pair => pair.1 = name).map Prod.snd

theorem valuesOf_append (name : String) (pairs others : List (String × String)) :
    valuesOf name (pairs ++ others) = valuesOf name pairs ++ valuesOf name others := by
  simp [valuesOf]

/-- The last value of each parameter stays. -/
theorem readAnswerPairs_eq (pairs : List (String × String)) :
    readAnswerPairs pairs = ⟨(valuesOf "state" pairs).getLast?, (valuesOf "code" pairs).getLast?,
      !(valuesOf "error" pairs).isEmpty⟩ := by
  induction pairs using List.reverseRecOn with
  | nil => rfl
  | append_singleton pairs pair ih =>
    obtain ⟨name, value⟩ := pair
    have hstep : readAnswerPairs (pairs ++ [(name, value)])
        = (readAnswerPairs pairs).note (name, value) := by
      simp [readAnswerPairs]
    rw [hstep, ih]
    simp only [valuesOf_append, Answer.note]
    by_cases hstate : name = "state"
    · subst hstate
      simp [valuesOf]
    · by_cases hcode : name = "code"
      · subst hcode
        simp [valuesOf]
      · by_cases herror : name = "error"
        · subst herror
          simp [valuesOf]
        · simp [valuesOf, hstate, hcode, herror]

/-! ## What a redirect should be -/

/-- What the URL standard says of the library. -/
structure StandardUrls (urls : UrlLibrary) : Prop where
  scheme_lower : ∀ {text url}, urls.parse text = some url →
    toAsciiLowercase url.scheme = url.scheme
  host_lower : ∀ {text url}, urls.parse text = some url → url.isSpecial = true →
    ∀ host ∈ url.host, toAsciiLowercase host = host
  /-- A URL that parameters were appended to is printed as it is read. -/
  parse_print : ∀ {text url} (pairs : List (String × String)), urls.parse text = some url →
    urls.parse (urls.print (url.appendPairs pairs)) = some (url.appendPairs pairs)

/-- The same scheme, host, port and path. Only the host of a scheme that the standard does not know may
be written with letters of another case, and the path with other slashes at its end. -/
structure ArrivesAt (got want : Url) : Prop where
  scheme : got.scheme = want.scheme
  host : got.host.map toAsciiLowercase = want.host.map toAsciiLowercase
  special : got.isSpecial = true → got.host = want.host
  port : got.portOrKnownDefault = want.portOrKnownDefault
  path : trimEndChar '/' got.path = trimEndChar '/' want.path

variable (urls : UrlLibrary) (signIn : NativeSignIn)

/-- The redirect answers the attempt, with this code. -/
def Answers (redirect code : String) : Prop :=
  ∃ got want, urls.parse redirect = some got ∧ urls.parse signIn.redirectUri = some want ∧
    ArrivesAt got want ∧
    valuesOf "state" got.queryPairs ≠ [] ∧
    (∀ state ∈ valuesOf "state" got.queryPairs, state = signIn.state) ∧
    valuesOf "error" got.queryPairs = [] ∧
    code ∈ valuesOf "code" got.queryPairs ∧ code ≠ ""

/-- If the target is right up to its port, nothing is refused, and the last `state` and the last `code`
will do, then the port is right as well, and no earlier `state` differs. -/
def PortAndStatesAgree (redirect : String) : Prop :=
  ∀ got want, urls.parse redirect = some got → urls.parse signIn.redirectUri = some want →
    sameTarget urls got signIn.redirectUri = true →
    valuesOf "error" got.queryPairs = [] →
    (valuesOf "state" got.queryPairs).getLast? = some signIn.state →
    (∃ code, (valuesOf "code" got.queryPairs).getLast? = some code ∧ code ≠ "") →
    got.portOrKnownDefault = want.portOrKnownDefault ∧
      ∀ state ∈ valuesOf "state" got.queryPairs, state = signIn.state

/-- The redirect with some parameters appended to the redirect URI, as text where it is no URL. -/
def redirectWith (pairs : List (String × String)) : String :=
  match urls.parse signIn.redirectUri with
  | some url => urls.print (url.appendPairs pairs)
  | none =>
    signIn.redirectUri ++ (if signIn.redirectUri.toList.contains '?' then "&" else "?")
      ++ String.ofList (pairs.foldl FormUrlencoded.append [])

/-- The parameters that the redirect URI carries itself. -/
def ownPairs : List (String × String) :=
  match urls.parse signIn.redirectUri with
  | some url => url.queryPairs
  | none => []

/-! ## What is accepted -/

variable {urls signIn}

theorem sameTarget_iff {got want : Url} (hwant : urls.parse signIn.redirectUri = some want) :
    sameTarget urls got signIn.redirectUri = true ↔
      eqIgnoreAsciiCase got.scheme want.scheme = true ∧
      got.host.map toAsciiLowercase = want.host.map toAsciiLowercase ∧
      trimEndChar '/' got.path = trimEndChar '/' want.path := by
  simp [sameTarget, hwant, and_assoc]

/-- A code that comes out has passed every check. -/
theorem codeFrom_eq_some {redirect code : String} :
    signIn.codeFrom urls redirect = some code ↔
      ∃ got, urls.parse redirect = some got ∧ sameTarget urls got signIn.redirectUri = true ∧
        valuesOf "error" got.queryPairs = [] ∧
        (valuesOf "state" got.queryPairs).getLast? = some signIn.state ∧
        (valuesOf "code" got.queryPairs).getLast? = some code ∧ code ≠ "" := by
  unfold NativeSignIn.codeFrom
  cases hparse : urls.parse redirect with
  | none => simp
  | some got =>
    simp only [readAnswerPairs_eq, Option.some.injEq, exists_eq_left']
    by_cases htarget : sameTarget urls got signIn.redirectUri = true
    · by_cases herror : valuesOf "error" got.queryPairs = []
      · by_cases hstate : (valuesOf "state" got.queryPairs).getLast? = some signIn.state
        · simp [htarget, herror, hstate, Option.filter_eq_some_iff]
        · simp [htarget, herror, hstate]
      · simp [htarget, herror]
    · simp [htarget]

theorem toAsciiLowercase_eq {a b : String} (h : eqIgnoreAsciiCase a b = true) :
    toAsciiLowercase a = toAsciiLowercase b := by
  have hchars := of_decide_eq_true h
  rw [toAsciiLowercase, toAsciiLowercase, hchars]

/-- The same target and port is the same place. -/
theorem ArrivesAt.of_sameTarget (hurls : StandardUrls urls) {redirect : String} {got want : Url}
    (hgot : urls.parse redirect = some got) (hwant : urls.parse signIn.redirectUri = some want)
    (htarget : sameTarget urls got signIn.redirectUri = true)
    (hport : got.portOrKnownDefault = want.portOrKnownDefault) : ArrivesAt got want := by
  obtain ⟨hscheme, hhost, hpath⟩ := (sameTarget_iff hwant).mp htarget
  have hschemes : got.scheme = want.scheme := by
    rw [← hurls.scheme_lower hgot, ← hurls.scheme_lower hwant, toAsciiLowercase_eq hscheme]
  refine ⟨hschemes, hhost, fun hspecial => ?_, hport, hpath⟩
  have hspecial' : want.isSpecial = true := by rwa [Url.isSpecial, hschemes] at hspecial
  have hlower : ∀ {text : String} {url : Url}, urls.parse text = some url → url.isSpecial = true →
      url.host.map toAsciiLowercase = url.host := by
    intro text url hparse hknown
    cases hhostOf : url.host with
    | none => rfl
    | some host => exact congrArg some (hurls.host_lower hparse hknown host hhostOf)
  rw [← hlower hgot hspecial, hhost, hlower hwant hspecial']

/-- What comes out is the answer, if the port and every `state` agree. -/
theorem answers_of_agree (hurls : StandardUrls urls) {redirect code : String}
    (hagree : PortAndStatesAgree urls signIn redirect)
    (h : signIn.codeFrom urls redirect = some code) : Answers urls signIn redirect code := by
  obtain ⟨got, hgot, htarget, herror, hstate, hcode, hne⟩ := codeFrom_eq_some.mp h
  cases hwant : urls.parse signIn.redirectUri with
  | none => simp [sameTarget, hwant] at htarget
  | some want =>
    obtain ⟨hport, hstates⟩ := hagree got want hgot hwant htarget herror hstate ⟨code, hcode, hne⟩
    have hsome : valuesOf "state" got.queryPairs ≠ [] := by
      intro hnil
      rw [hnil] at hstate
      cases hstate
    exact ⟨got, want, hgot, hwant, .of_sameTarget hurls hgot hwant htarget hport, hsome, hstates,
      herror, List.mem_of_getLast? hcode, hne⟩

/-- Where the port or a `state` disagrees, a code comes out that is not the answer. -/
theorem agree_of_answers {redirect : String}
    (h : ∀ code, signIn.codeFrom urls redirect = some code → Answers urls signIn redirect code) :
    PortAndStatesAgree urls signIn redirect := by
  intro got want hgot hwant htarget herror hstate hcode
  obtain ⟨code, hcode, hne⟩ := hcode
  have hfrom : signIn.codeFrom urls redirect = some code :=
    codeFrom_eq_some.mpr ⟨got, hgot, htarget, herror, hstate, hcode, hne⟩
  obtain ⟨got', want', hgot', hwant', harrives, -, hstates, -⟩ := h code hfrom
  cases hgot.symm.trans hgot'
  cases hwant.symm.trans hwant'
  exact ⟨harrives.port, hstates⟩

/-! ## What is not accepted -/

/-- No redirect arrives at what is no URL. -/
theorem codeFrom_of_parse_none (hwant : urls.parse signIn.redirectUri = none) (redirect : String) :
    signIn.codeFrom urls redirect = none := by
  cases hfrom : signIn.codeFrom urls redirect with
  | none => rfl
  | some code =>
    obtain ⟨got, -, htarget, -⟩ := codeFrom_eq_some.mp hfrom
    simp [sameTarget, hwant] at htarget

/-- The redirect URI with its answer appended arrives at itself. -/
theorem sameTarget_appendPairs {want : Url} (hwant : urls.parse signIn.redirectUri = some want)
    (pairs : List (String × String)) :
    sameTarget urls (want.appendPairs pairs) signIn.redirectUri = true := by
  obtain ⟨hscheme, hhost, hpath⟩ := want.appendPairs_target pairs
  rw [sameTarget_iff hwant, hscheme, hhost, hpath]
  exact ⟨eqIgnoreAsciiCase_refl _, rfl, rfl⟩

/-- The code that is appended comes out. -/
theorem codeFrom_redirectWith (hurls : StandardUrls urls) {want : Url} {code : String}
    {pairs : List (String × String)} (hwant : urls.parse signIn.redirectUri = some want)
    (hpairs : pairs.Perm [("code", code), ("state", signIn.state)])
    (hown : ∀ name ∈ ["state", "code", "error"], valuesOf name want.queryPairs = []) (hne : code ≠ "") :
    signIn.codeFrom urls (redirectWith urls signIn pairs) = some code := by
  have hprint : redirectWith urls signIn pairs = urls.print (want.appendPairs pairs) := by
    rw [redirectWith, hwant]
  have hvalues : ∀ name ∈ ["state", "code", "error"],
      valuesOf name (want.appendPairs pairs).queryPairs = valuesOf name pairs := by
    intro name hname
    rw [Url.queryPairs_appendPairs, valuesOf_append, hown name hname, List.nil_append]
  have hperm : ∀ name, (valuesOf name pairs).Perm
      (valuesOf name [("code", code), ("state", signIn.state)]) :=
    fun name => (hpairs.filter _).map _
  have hcodes : valuesOf "code" pairs = [code] := List.perm_singleton.mp (hperm "code")
  have hstates : valuesOf "state" pairs = [signIn.state] := List.perm_singleton.mp (hperm "state")
  have herrors : valuesOf "error" pairs = [] := List.perm_nil.mp (hperm "error")
  rw [hprint, codeFrom_eq_some]
  refine ⟨_, hurls.parse_print pairs hwant, sameTarget_appendPairs hwant pairs, ?_, ?_, ?_, hne⟩
  · rw [hvalues "error" (by decide), herrors]
  · rw [hvalues "state" (by decide), hstates]
    rfl
  · rw [hvalues "code" (by decide), hcodes]
    rfl

/-- The redirect URI of an attempt is the one it was started with. -/
theorem redirectUri_of_begin {sha256 : Bytes → Bytes} {options : NativeSignInOptions}
    {verifierBytes stateBytes : Bytes}
    (h : beginNativeSignIn urls sha256 options verifierBytes stateBytes = .ok signIn) :
    signIn.redirectUri = trim options.redirectUri := by
  unfold beginNativeSignIn at h
  extract_lets clientId redirectUri verifier state scopes dashboard at h
  split at h
  · cases h
  · split at h
    · cases h
    · split at h
      · cases h
      · split at h
        · cases h
        · cases h
          rfl

/-! ## The check of a redirect -/

/-- **A redirect that is accepted is the answer exactly if its port and its states agree, and the answer
of an attempt is accepted exactly if its redirect URI is a URL.** -/
theorem redirect_check (hurls : StandardUrls urls) :
    (∀ (signIn : NativeSignIn) (redirect : String),
      (∀ code, signIn.codeFrom urls redirect = some code → Answers urls signIn redirect code) ↔
        PortAndStatesAgree urls signIn redirect) ∧
    ∀ (sha256 : Bytes → Bytes) (options : NativeSignInOptions) (verifierBytes stateBytes : Bytes)
      (signIn : NativeSignIn),
      beginNativeSignIn urls sha256 options verifierBytes stateBytes = .ok signIn →
      signIn.redirectUri = trim options.redirectUri ∧
      ((∀ name ∈ ["state", "code", "error"], valuesOf name (ownPairs urls signIn) = []) →
        ∀ (code : String) (pairs : List (String × String)), code ≠ "" →
          pairs.Perm [("code", code), ("state", signIn.state)] →
          (signIn.codeFrom urls (redirectWith urls signIn pairs) = some code ↔
            (urls.parse signIn.redirectUri).isSome = true)) := by
  refine ⟨fun signIn redirect => ⟨agree_of_answers, fun h code => answers_of_agree hurls h⟩, ?_⟩
  intro sha256 options verifierBytes stateBytes signIn hbegin
  refine ⟨?_, fun hown code pairs hne hpairs => ?_⟩
  · exact redirectUri_of_begin hbegin
  · cases hwant : urls.parse signIn.redirectUri with
    | none => simp [codeFrom_of_parse_none hwant]
    | some want =>
      rw [ownPairs, hwant] at hown
      simp [codeFrom_redirectWith hurls hwant hpairs hown hne]

/-! ## A redirect to another port -/

/-- A dashboard and two addresses of one machine. -/
def sampleTarget (target : List Char) : Option Url :=
  if target = "https://dash.thalovant.com/authorize".toList then
    some ⟨"https", "", none, some "dash.thalovant.com", none, "/authorize", none, none⟩
  else if target = "http://127.0.0.1:8765/".toList then
    some ⟨"http", "", none, some "127.0.0.1", some 8765, "/", none, none⟩
  else if target = "http://127.0.0.1:9999/".toList then
    some ⟨"http", "", none, some "127.0.0.1", some 9999, "/", none, none⟩
  else none

def sampleText (url : Url) : List Char :=
  if url.port = none then "https://dash.thalovant.com/authorize".toList
  else if url.port = some 8765 then "http://127.0.0.1:8765/".toList
  else "http://127.0.0.1:9999/".toList

/-- The URL library on these addresses, with a query or without. -/
def sampleUrls : UrlLibrary where
  parse text :=
    let target := text.toList.takeWhile (· ≠ '?')
    let query := match text.toList.dropWhile (· ≠ '?') with
      | [] => none
      | _ :: query => some (String.ofList query)
    (sampleTarget target).map fun url => { url with query := query }
  print url :=
    String.ofList (sampleText url ++ match url.query with
      | none => []
      | some query => '?' :: query.toList)

/-- What is read is one of the three addresses with some query. -/
theorem sampleUrls_parse_eq_some {text : String} {url : Url} (h : sampleUrls.parse text = some url) :
    ∃ target base query, sampleTarget target = some base ∧ url = { base with query := query } := by
  obtain ⟨base, hbase, rfl⟩ := Option.map_eq_some_iff.mp h
  exact ⟨_, base, _, hbase, rfl⟩

theorem sampleTarget_eq_some {target : List Char} {base : Url} (h : sampleTarget target = some base)
    (query : Option String) :
    sampleText { base with query := query } = target ∧ (∀ c ∈ target, decide (c ≠ '?') = true) ∧
      toAsciiLowercase base.scheme = base.scheme ∧
      ∀ host ∈ base.host, toAsciiLowercase host = host := by
  unfold sampleTarget at h
  split at h
  · next htarget =>
    cases h
    subst htarget
    exact ⟨rfl, List.all_eq_true.mp (by decide), by decide, by decide⟩
  · split at h
    · next htarget =>
      cases h
      subst htarget
      exact ⟨rfl, List.all_eq_true.mp (by decide), by decide, by decide⟩
    · split at h
      · next htarget =>
        cases h
        subst htarget
        exact ⟨rfl, List.all_eq_true.mp (by decide), by decide, by decide⟩
      · cases h

theorem appendPairs_eq (url : Url) (pairs : List (String × String)) :
    ∃ query, url.appendPairs pairs = { url with query := query } := by
  induction pairs generalizing url with
  | nil => exact ⟨url.query, rfl⟩
  | cons pair pairs ih =>
    obtain ⟨query, hquery⟩ := ih (url.appendPair pair)
    exact ⟨query, hquery⟩

theorem sampleUrls_parse_print {target : List Char} {base : Url} (h : sampleTarget target = some base)
    (query : Option String) :
    sampleUrls.parse (sampleUrls.print { base with query := query })
      = some { base with query := query } := by
  obtain ⟨htext, hplain, -⟩ := sampleTarget_eq_some h query
  unfold sampleUrls
  simp only [htext, String.toList_ofList]
  rw [List.takeWhile_append_of_pos hplain, List.dropWhile_append_of_pos hplain]
  cases query with
  | none => simp [h]
  | some query => simp [h]

theorem sampleUrls_standard : StandardUrls sampleUrls where
  scheme_lower := by
    intro text url h
    obtain ⟨target, base, query, hbase, rfl⟩ := sampleUrls_parse_eq_some h
    exact (sampleTarget_eq_some hbase query).2.2.1
  host_lower := by
    intro text url h _
    obtain ⟨target, base, query, hbase, rfl⟩ := sampleUrls_parse_eq_some h
    exact (sampleTarget_eq_some hbase query).2.2.2
  parse_print := by
    intro text url pairs h
    obtain ⟨target, base, query, hbase, rfl⟩ := sampleUrls_parse_eq_some h
    obtain ⟨query', hquery⟩ := appendPairs_eq { base with query := query } pairs
    rw [hquery]
    exact sampleUrls_parse_print hbase query'

/-- An attempt whose random bytes are few. -/
def sampleBegin (redirectUri : String) : Result NativeSignIn :=
  beginNativeSignIn sampleUrls id ⟨"app", redirectUri, none, none⟩ [1, 2, 3] [0, 16, 131]

def sampleDashboard : Url where
  scheme := "https"
  username := ""
  password := none
  host := some "dash.thalovant.com"
  port := none
  path := "/authorize"
  query := none
  fragment := none

/-- What is kept of it. The state is `ABCD`. -/
def sampleSignIn (redirectUri : String) : NativeSignIn where
  authorizationUrl := sampleUrls.print (sampleDashboard.appendPairs
    (authorizationPairs id "app" redirectUri (base64Url [1, 2, 3]) (base64Url [0, 16, 131])
      DEFAULT_NATIVE_SCOPES))
  state := base64Url [0, 16, 131]
  verifier := base64Url [1, 2, 3]
  redirectUri := redirectUri

theorem sampleBegin_eq_ok {redirectUri : String} (htrim : trim redirectUri = redirectUri)
    (hne : redirectUri ≠ "") : sampleBegin redirectUri = .ok (sampleSignIn redirectUri) := by
  have hclient : trim "app" = "app" := by decide +kernel
  have hdashboard : sampleUrls.parse (trimEndChar '/' DEFAULT_DASHBOARD_URL ++ "/authorize")
      = some sampleDashboard := by
    decide +kernel
  simp [sampleBegin, beginNativeSignIn, requireSafeDashboard, hclient, htrim, hne, hdashboard,
    sampleSignIn]

theorem sampleBegin_url :
    sampleBegin "http://127.0.0.1:8765/" = .ok (sampleSignIn "http://127.0.0.1:8765/") :=
  sampleBegin_eq_ok (by decide +kernel) (by decide)

theorem sampleBegin_text : sampleBegin "app" = .ok (sampleSignIn "app") :=
  sampleBegin_eq_ok (by decide +kernel) (by decide)

/-- A code that came to another port is given out, and so is one that comes with a second `state`. An
attempt starts with a text that is no URL, and refuses its own answer. -/
theorem redirect_check_fails :
    ∃ (urls : UrlLibrary) (sha256 : Bytes → Bytes) (options textOptions : NativeSignInOptions)
      (verifierBytes stateBytes : Bytes) (signIn textSignIn : NativeSignIn),
      StandardUrls urls ∧
      beginNativeSignIn urls sha256 options verifierBytes stateBytes = .ok signIn ∧
      beginNativeSignIn urls sha256 textOptions verifierBytes stateBytes = .ok textSignIn ∧
      (signIn.codeFrom urls "http://127.0.0.1:9999/?code=abc&state=ABCD" = some "abc" ∧
        ¬Answers urls signIn "http://127.0.0.1:9999/?code=abc&state=ABCD" "abc") ∧
      (signIn.codeFrom urls "http://127.0.0.1:8765/?state=DCBA&code=abc&state=ABCD" = some "abc" ∧
        ¬Answers urls signIn "http://127.0.0.1:8765/?state=DCBA&code=abc&state=ABCD" "abc") ∧
      (ownPairs urls textSignIn = [] ∧
        redirectWith urls textSignIn [("code", "abc"), ("state", textSignIn.state)]
          = "app?code=abc&state=ABCD" ∧
        textSignIn.codeFrom urls "app?code=abc&state=ABCD" = none) := by
  refine ⟨sampleUrls, id, ⟨"app", "http://127.0.0.1:8765/", none, none⟩, ⟨"app", "app", none, none⟩,
    [1, 2, 3], [0, 16, 131], _, _, sampleUrls_standard, sampleBegin_url, sampleBegin_text,
    ⟨by decide +kernel, ?_⟩, ⟨by decide +kernel, ?_⟩, by decide +kernel, by decide +kernel,
    by decide +kernel⟩
  · rintro ⟨got, want, hgot, hwant, harrives, -⟩
    have hgot' : sampleUrls.parse "http://127.0.0.1:9999/?code=abc&state=ABCD"
        = some ⟨"http", "", none, some "127.0.0.1", some 9999, "/", some "code=abc&state=ABCD", none⟩ :=
      by decide +kernel
    have hwant' : sampleUrls.parse "http://127.0.0.1:8765/"
        = some ⟨"http", "", none, some "127.0.0.1", some 8765, "/", none, none⟩ := by decide +kernel
    cases hgot.symm.trans hgot'
    cases hwant.symm.trans hwant'
    exact absurd harrives.port (by decide)
  · rintro ⟨got, want, hgot, -, -, -, hstates, -⟩
    have hgot' : sampleUrls.parse "http://127.0.0.1:8765/?state=DCBA&code=abc&state=ABCD"
        = some ⟨"http", "", none, some "127.0.0.1", some 8765, "/",
          some "state=DCBA&code=abc&state=ABCD", none⟩ := by decide +kernel
    cases hgot.symm.trans hgot'
    exact absurd (hstates "DCBA" (by decide +kernel)) (by decide)

theorem redirect_check_sample :
    (sampleSignIn "http://127.0.0.1:8765/").codeFrom sampleUrls
        (redirectWith sampleUrls (sampleSignIn "http://127.0.0.1:8765/")
          [("code", "a+b/c="), ("state", base64Url [0, 16, 131])])
      = some "a+b/c=" :=
  (((redirect_check sampleUrls_standard).2 id ⟨"app", "http://127.0.0.1:8765/", none, none⟩
    [1, 2, 3] [0, 16, 131] _ sampleBegin_url).2 (by decide +kernel) "a+b/c="
    [("code", "a+b/c="), ("state", base64Url [0, 16, 131])] (by decide) (.refl _)).mpr (by decide +kernel)

end Thalovant.Api
