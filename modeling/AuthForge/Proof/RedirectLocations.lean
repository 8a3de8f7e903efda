import AuthForge.Base.QueryString
import AuthForge.Http.Runs

/-!
# What a redirect location carries

The locations that `authorize`, `login` and `consent` send the browser to, read back from their
text. The handlers put `?code=…` or `?error=…` behind the registered redirect URI as it is, so they
are read as they were written exactly when the URI has neither a query nor a fragment of its own. A
consent without any scope writes code and state as they are.
-/

namespace AuthForge.Http

def Page.url : Page → String
  | .client redirectUri => redirectUri
  | .login url => url
  | .consent url => url

def Location.text (l : Location) : String := l.page.url ++ l.query

end AuthForge.Http

namespace AuthForge.RedirectLocations

open Http OAuth2 QueryString

/-! ### What an exit puts in -/

/-- The parameters that a client asked for or is told: the code or the error, and the state. A
request without a state is one with an empty state. -/
structure PutIn where
  name : String
  value : String
  state : String

def PutIn.parameters (p : PutIn) : List Parameter :=
  (bytes p.name, bytes p.value) ::
    if p.state = "" then [] else [(bytes "state", bytes p.state)]

/-- The receiver of the location reads exactly what was put in, beside all that the redirect URI
had. -/
def Carried (redirectUri : String) (l : Location) (p : PutIn) : Prop :=
  Carries (bytes redirectUri) (bytes l.text) p.parameters

def HasNoQuery (redirectUri : String) : Prop :=
  queryMark ∉ bytes redirectUri ∧ fragmentMark ∉ bytes redirectUri

/-- A text that stands for itself in a query. -/
def IsPlain (s : String) : Prop :=
  separator ∉ bytes s ∧ fragmentMark ∉ bytes s ∧ decode (bytes s) = bytes s

/-- Decoding a query gives back what `urlEncode` was given. -/
structure InverseToDecoding (urlEncode : String → String) : Prop where
  decoded : ∀ s, decode (bytes (urlEncode s)) = bytes s
  separator : ∀ s, separator ∉ bytes (urlEncode s)
  fragment : ∀ s, fragmentMark ∉ bytes (urlEncode s)

/-! ### The queries that the builders write -/

/-- A query as the builders write it, with the texts that stand for value, description and
state. -/
structure Written where
  put : PutIn
  raw : String
  description : String := ""
  rawDescription : String := ""
  rawState : String

namespace Written

def query (w : Written) : String :=
  "?" ++ w.put.name ++ "=" ++ w.raw ++
    optionalParam "error_description" w.description w.rawDescription ++
    optionalParam "state" w.put.state w.rawState

def head (w : Written) : Part := ⟨bytes w.put.name, bytes w.raw, bytes w.put.value⟩

def descriptionPart (w : Written) : Part :=
  ⟨bytes "error_description", bytes w.rawDescription, bytes w.description⟩

def statePart (w : Written) : Part := ⟨bytes "state", bytes w.rawState, bytes w.put.state⟩

def tail (w : Written) : List Part :=
  (if w.description = "" then [] else [w.descriptionPart]) ++
    if w.put.state = "" then [] else [w.statePart]

theorem bytes_query (w : Written) : bytes w.query = queryMark :: textOf w.head w.tail := by
  have hquery : bytes "?" = [queryMark] := by decide
  have hequals : bytes "=" = [equalsMark] := by decide
  unfold query tail optionalParam
  by_cases hdescription : w.description = "" <;> by_cases hstate : w.put.state = "" <;>
    simp [hdescription, hstate, bytes_append, hquery, hequals, textOf, Part.text, head,
      descriptionPart, statePart] <;> rfl

theorem query_error {w : Written} (h : w.put.name = "error") :
    ∃ rest, w.query = "?error=" ++ w.raw ++ rest := by
  refine ⟨optionalParam "error_description" w.description w.rawDescription ++
    optionalParam "state" w.put.state w.rawState, ?_⟩
  rw [query, h, String.append_assoc]
  rfl

end Written

/-! ### Reading back what was written -/

structure Faithful (w : Written) : Prop where
  head : w.head.Faithful
  description : w.description ≠ "" → w.descriptionPart.Faithful
  state : w.put.state ≠ "" → w.statePart.Faithful

theorem isName_error_description : IsName (bytes "error_description") := by
  constructor <;> decide

theorem isName_state : IsName (bytes "state") := by
  constructor <;> decide

variable {w : Written} {redirectUri : String}

def IsAnswer (name : String) : Prop := name = "code" ∨ name = "error"

theorem isName_of_isAnswer {name : String} (h : IsAnswer name) : IsName (bytes name) := by
  rcases h with rfl | rfl <;> constructor <;> decide

theorem mem_tail {q : Part} (hq : q ∈ w.tail) :
    (q = w.descriptionPart ∧ w.description ≠ "") ∨ (q = w.statePart ∧ w.put.state ≠ "") := by
  unfold Written.tail at hq
  rcases List.mem_append.mp hq with hq | hq
  · split at hq
    · cases hq
    · exact .inl ⟨List.mem_singleton.mp hq, ‹_›⟩
  · split at hq
    · cases hq
    · exact .inr ⟨List.mem_singleton.mp hq, ‹_›⟩

theorem Faithful.tail (h : Faithful w) {q : Part} (hq : q ∈ w.tail) :
    IsName q.name ∧ q.Faithful := by
  obtain ⟨rfl, hne⟩ | ⟨rfl, hne⟩ := mem_tail hq
  · exact ⟨isName_error_description, h.description hne⟩
  · exact ⟨isName_state, h.state hne⟩

theorem name_ne_of_mem_tail (hname : IsAnswer w.put.name) {q : Part} (hq : q ∈ w.tail) :
    q.name ≠ w.head.name := by
  obtain ⟨rfl, -⟩ | ⟨rfl, -⟩ := mem_tail hq
  · change bytes "error_description" ≠ bytes w.put.name
    rcases hname with h | h <;> rw [h] <;> decide
  · change bytes "state" ≠ bytes w.put.name
    rcases hname with h | h <;> rw [h] <;> decide

theorem names_nodup (hname : IsAnswer w.put.name) : ((w.head :: w.tail).map Part.name).Nodup := by
  rw [List.map_cons, List.nodup_cons]
  constructor
  · intro hmem
    obtain ⟨q, hq, heq⟩ := List.mem_map.mp hmem
    exact name_ne_of_mem_tail hname hq heq
  · have hne : bytes "error_description" ≠ bytes "state" := by decide
    unfold Written.tail
    split <;> split <;> simp [Written.descriptionPart, Written.statePart, hne]

theorem parameters_sublist : w.put.parameters.Sublist ((w.head :: w.tail).map Part.pair) := by
  rw [List.map_cons]
  refine List.Sublist.cons_cons _ ?_
  unfold Written.tail
  rw [List.map_append]
  refine List.Sublist.trans ?_ (List.sublist_append_right _ _)
  split
  · exact List.nil_sublist _
  · exact List.Sublist.refl _

theorem head_mem_parameters : w.head.pair ∈ w.put.parameters := List.mem_cons_self

theorem carried_iff_carries : Carried redirectUri ⟨.client redirectUri, w.query⟩ w.put ↔
    Carries (bytes redirectUri) (bytes redirectUri ++ queryMark :: textOf w.head w.tail)
      w.put.parameters := by
  rw [Carried, Location.text, bytes_append, w.bytes_query]
  rfl

/-- A query that is written faithfully is carried exactly behind a URI without query and
fragment. -/
theorem carried_iff_of_faithful (hname : IsAnswer w.put.name) (hfaithful : Faithful w) :
    Carried redirectUri ⟨.client redirectUri, w.query⟩ w.put ↔ HasNoQuery redirectUri := by
  rw [carried_iff_carries]
  have hparts : ∀ q ∈ w.tail, IsName q.name ∧ q.Faithful := fun q hq => hfaithful.tail hq
  constructor
  · intro h
    have hrest : ∀ q ∈ w.tail, IsName q.name ∧ q.Faithful ∧ q.name ≠ w.head.name := fun q hq =>
      ⟨(hparts q hq).1, (hparts q hq).2, name_ne_of_mem_tail hname hq⟩
    obtain ⟨hquery, hfragment, -⟩ := Carries.of_head (isName_of_isAnswer hname)
      (.inr hfaithful.head) (fun _ => hrest) head_mem_parameters h
    exact ⟨hquery, hfragment⟩
  · intro h
    refine carries_of_faithful h.1 h.2 ?_ (names_nodup hname) parameters_sublist
    intro q hq
    rcases List.mem_cons.mp hq with rfl | hq
    · exact ⟨isName_of_isAnswer hname, hfaithful.head⟩
    · exact hparts q hq

/-! ### Code and state as they are -/

def rawCode (code state : String) : Written where
  put := ⟨"code", code, state⟩
  raw := code
  rawState := state

theorem faithful_rawCode_iff {code state : String} :
    Faithful (rawCode code state) ↔ IsPlain code ∧ IsPlain state := by
  constructor
  · intro h
    refine ⟨⟨h.head.separator, h.head.fragment, h.head.decoded⟩, ?_⟩
    by_cases hstate : state = ""
    · rw [hstate]
      exact ⟨by decide, by decide, by decide⟩
    · have hpart := h.state hstate
      exact ⟨hpart.separator, hpart.fragment, hpart.decoded⟩
  · intro h
    obtain ⟨hcode, hstate⟩ := h
    exact ⟨⟨hcode.1, hcode.2.1, hcode.2.2⟩, fun hne => absurd rfl hne,
      fun _ => ⟨hstate.1, hstate.2.1, hstate.2.2⟩⟩

theorem tail_rawCode {code state : String} : (rawCode code state).tail =
    if state = "" then [] else [(rawCode code state).statePart] := rfl

/-- Where code and state are written as they are, they have to be plain as well. -/
theorem carried_rawCode_iff {code state : String} :
    Carried redirectUri ⟨.client redirectUri, (rawCode code state).query⟩ ⟨"code", code, state⟩ ↔
      HasNoQuery redirectUri ∧ IsPlain code ∧ IsPlain state := by
  have hname : IsAnswer (rawCode code state).put.name := .inl rfl
  rw [← faithful_rawCode_iff]
  constructor
  · intro hcarried
    have h := carried_iff_carries.mp hcarried
    have hlength : (rawCode code state).head.raw.length ≤ (rawCode code state).head.value.length :=
      Nat.le_refl _
    -- a fragment mark in the code cuts off what follows, and the code itself
    have hfragment : fragmentMark ∉ (rawCode code state).head.raw := by
      intro hmem
      obtain ⟨-, -, hfaithful⟩ := Carries.of_head (isName_of_isAnswer hname) (.inl hlength)
        (fun hnot => absurd hmem hnot) head_mem_parameters h
      exact hfaithful.fragment hmem
    have hstate : state ≠ "" → (rawCode code state).statePart.Faithful := by
      intro hne
      rw [tail_rawCode, if_neg hne] at h
      have hput : (rawCode code state).statePart.pair ∈ (rawCode code state).put.parameters := by
        unfold PutIn.parameters
        rw [show (rawCode code state).put.state = state from rfl, if_neg hne]
        exact List.mem_cons_of_mem _ (List.mem_singleton_self _)
      exact Carries.of_second (isName_of_isAnswer hname) isName_state (Nat.le_refl _) hfragment
        hput h
    have hrest : ∀ q ∈ (rawCode code state).tail,
        IsName q.name ∧ q.Faithful ∧ q.name ≠ (rawCode code state).head.name := by
      intro q hq
      refine ⟨?_, ?_, name_ne_of_mem_tail hname hq⟩
      · obtain ⟨-, hne⟩ | ⟨rfl, -⟩ := mem_tail hq
        · exact absurd rfl hne
        · exact isName_state
      · obtain ⟨-, hne⟩ | ⟨rfl, hne⟩ := mem_tail hq
        · exact absurd rfl hne
        · exact hstate hne
    obtain ⟨hquery, hclean, hhead⟩ := Carries.of_head (isName_of_isAnswer hname) (.inl hlength)
      (fun _ => hrest) head_mem_parameters h
    exact ⟨⟨hquery, hclean⟩, hhead, fun hne => absurd rfl hne, hstate⟩
  · intro h
    exact (carried_iff_of_faithful hname h.2).mpr h.1

/-! ### The exits of the three handlers -/

inductive Handler
  | authorize
  | login
  | consent
  deriving DecidableEq

variable {b : Backend}

def Handler.run (cfg : Config) (w : World b) (req : HttpRequest) (env : RequestEnv) :
    Handler → Outcome b
  | .authorize => AuthorizationEndpoint.authorize cfg w req env
  | .login => SessionController.login cfg w req env
  | .consent => SessionController.consent cfg w req env

def Handler.state (req : HttpRequest) : Handler → String
  | .authorize => (AuthorizationEndpoint.authorizeFields req).state
  | .login => (SessionController.loginFields req).state
  | .consent => (SessionController.consentFields req).state

def errorCodes : List String :=
  ["invalid_request", "login_required", "consent_required", "invalid_scope", "access_denied",
    "server_error"]

/-- The one exit that does not encode: a consent that names no scope. -/
def WithoutScopes (req : HttpRequest) (h : Handler) : Prop :=
  h = .consent ∧ (SessionController.consentFields req).action ≠ "deny" ∧
    requestedScopes (SessionController.consentFields req).scope = []

/-- What a handler with this log writes: the code that it issued, or an error. -/
inductive WrittenBy (cfg : Config) (log : List Action) (state : String) : Written → Prop
  | code {session : Nat} {c : OAuth2AuthCode} {code : String}
      (hissued : .codeIssued session c ∈ log)
      (hcode : c.code = hashToken cfg.tokenService.crypto code) :
      WrittenBy cfg log state
        { put := ⟨"code", code, state⟩, raw := cfg.urlEncode code
          rawState := cfg.urlEncode state }
  | error {error raw : String} (description : String) (herror : error ∈ errorCodes)
      (hraw : raw = error ∨ raw = cfg.urlEncode error) :
      WrittenBy cfg log state
        { put := ⟨"error", error, state⟩, raw, description
          rawDescription := cfg.urlEncode description, rawState := cfg.urlEncode state }
  | denied :
      WrittenBy cfg log state
        { put := ⟨"error", "access_denied", state⟩, raw := "access_denied"
          description := "User denied consent", rawDescription := "User+denied+consent"
          rawState := cfg.urlEncode state }

/-- What a consent without scopes writes. -/
def WrittenPlainly (cfg : Config) (log : List Action) (state : String) (written : Written) :
    Prop :=
  ∃ session c code, .codeIssued session c ∈ log ∧
    c.code = hashToken cfg.tokenService.crypto code ∧ written = rawCode code state

def Sends (P : Written → Prop) (response : Response) : Prop :=
  ∀ l ∈ response.locations, ∀ redirectUri, l.page = .client redirectUri →
    ∃ written, P written ∧ l.query = written.query

theorem Sends.of_none {P : Written → Prop} {response : Response} (h : response.locations = []) :
    Sends P response := by
  rw [Sends, h]
  nofun

theorem Sends.redirect {P : Written → Prop} {written : Written} {page : Page} {query : String}
    (hwritten : P written) (hquery : query = written.query) : Sends P (.redirect ⟨page, query⟩) := by
  intro l hl _ _
  obtain rfl := List.mem_singleton.mp hl
  exact ⟨written, hwritten, hquery⟩

theorem Sends.elsewhere {P : Written → Prop} {page : Page} {query : String}
    (hpage : ∀ redirectUri, page ≠ .client redirectUri) : Sends P (.redirect ⟨page, query⟩) := by
  intro l hl redirectUri hclient
  obtain rfl := List.mem_singleton.mp hl
  exact absurd hclient (hpage redirectUri)

section Exits

variable {cfg : Config} {w : World b} {req : HttpRequest} {env : RequestEnv} {log : List Action}

theorem code_query (value raw state rawState : String) :
    "?code=" ++ raw ++ optionalParam "state" state rawState =
      Written.query { put := ⟨"code", value, state⟩, raw, rawState } := by
  simp [Written.query, optionalParam]

namespace Authorize

open AuthorizationEndpoint

theorem sends_error {f : AuthorizeFields} {error description : String}
    (herror : error ∈ errorCodes) :
    Sends (WrittenBy cfg log f.state) (buildAuthorizeErrorRedirect cfg f error description) := by
  refine .redirect (.error description herror (.inr rfl)) ?_
  simp [Written.query]

theorem sends_login {P : Written → Prop} {f : AuthorizeFields} :
    Sends P (loginRedirect cfg f) := .elsewhere nofun

theorem sends_noSession {f : AuthorizeFields} :
    Sends (WrittenBy cfg log f.state) (noSessionResponse cfg f) := by
  unfold noSessionResponse
  split
  · exact sends_error (by decide)
  · exact sends_login

theorem sends_needsConsent {f : AuthorizeFields} {userId : String} :
    Sends (WrittenBy cfg log f.state) (needsConsentResponse cfg f userId) := by
  unfold needsConsentResponse
  split
  · exact sends_error (by decide)
  · exact .elsewhere nofun

theorem sends_scopeError {f : AuthorizeFields} {summary : ScopeValidationSummary} :
    Sends (WrittenBy cfg log f.state) (scopeErrorRedirect cfg f summary) := by
  unfold scopeErrorRedirect
  simp only
  split
  · exact sends_error (by decide)
  · exact sends_error (by decide)

theorem sends_issueSilently {sid : Nat} {f : AuthorizeFields} {userId : String} :
    Sends (WrittenBy cfg (issueSilently cfg w sid env f userId).log f.state)
      (issueSilently cfg w sid env f userId).response := by
  unfold issueSilently
  split
  · exact sends_error (by decide)
  · rw [generateAuthorizationCode_eq]
    dsimp only
    exact .redirect (.code (List.mem_singleton_self _) rfl) (code_query _ _ _ _)

theorem sends_authorize :
    Sends (WrittenBy cfg (authorize cfg w req env).log (authorizeFields req).state)
      (authorize cfg w req env).response := by
  unfold authorize
  simp only
  split
  · exact .of_none rfl
  split
  · exact .of_none rfl
  split
  · exact .of_none rfl
  split
  · exact .of_none rfl
  unfold withClient
  simp only
  split
  · exact sends_error (by decide)
  split
  · exact sends_noSession
  split
  · exact sends_login
  unfold decideScopes
  simp only
  split
  · exact sends_scopeError
  split
  · exact sends_needsConsent
  · exact sends_issueSilently

end Authorize

namespace Session

open SessionController

theorem sends_oauthError {redirectUri error description state : String}
    (herror : error ∈ errorCodes) : Sends (WrittenBy cfg log state)
      (.redirect (oauthErrorLocation cfg redirectUri error description state)) := by
  refine .redirect (.error description herror (.inl rfl)) ?_
  simp [Written.query]

theorem sends_codeResponse {f : LoginFields} {session : Nat} {c : OAuth2AuthCode} {code : String}
    (hissued : .codeIssued session c ∈ log)
    (hcode : c.code = hashToken cfg.tokenService.crypto code) :
    Sends (WrittenBy cfg log f.state) (codeResponse cfg req f code) := by
  intro l hl _ _
  refine ⟨_, .code hissued hcode, ?_⟩
  unfold codeResponse at hl
  simp only at hl
  split at hl
  · obtain rfl := List.mem_singleton.mp hl
    exact code_query _ _ _ _
  · obtain rfl := List.mem_singleton.mp hl
    exact code_query _ _ _ _

theorem sends_pkceError {f : LoginFields} :
    Sends (WrittenBy cfg log f.state) (pkceError cfg w env f) := by
  unfold pkceError
  split
  · exact sends_oauthError (by decide)
  · exact .of_none rfl

theorem sends_proceed {f : LoginFields} {result : Identity.AuthResult}
    {decision : Identity.LoginDecision} :
    Sends (WrittenBy cfg (proceed cfg w req env f result decision).log f.state)
      (proceed cfg w req env f result decision).response := by
  cases decision with
  | DenyEmailNotVerified => exact .of_none rfl
  | RequireMfa =>
    rw [proceed, requireMfa]
    split
    · exact .of_none rfl
    · exact .of_none rfl
  | Proceed =>
    rw [proceed, issueAfterLogin]
    split
    · exact sends_pkceError
    · rw [generateAuthorizationCode_eq]
      dsimp only
      exact sends_codeResponse (List.mem_singleton_self _) rfl

theorem WrittenBy.mono {log' : List Action} {state : String} {written : Written}
    (h : WrittenBy cfg log state written) (hsub : ∀ a ∈ log, a ∈ log') :
    WrittenBy cfg log' state written := by
  cases h with
  | code hissued hcode => exact .code (hsub _ hissued) hcode
  | error description herror hraw => exact .error description herror hraw
  | denied => exact .denied

theorem Sends.imp {P Q : Written → Prop} {response : Response} (h : Sends P response)
    (himp : ∀ written, P written → Q written) : Sends Q response := by
  intro l hl redirectUri hpage
  obtain ⟨written, hwritten, hquery⟩ := h l hl redirectUri hpage
  exact ⟨written, himp written hwritten, hquery⟩

theorem sends_login : Sends (WrittenBy cfg (login cfg w req env).log (loginFields req).state)
    (login cfg w req env).response := by
  unfold login
  simp only
  split
  · exact .of_none rfl
  split
  · refine Sends.imp sends_proceed fun written hwritten => WrittenBy.mono hwritten ?_
    intro a ha
    exact List.mem_append_left _ ha
  · exact .of_none rfl
  · exact .of_none rfl

theorem sends_issueAfterConsent {sid : Nat} {f : ConsentFields} :
    Sends (WrittenBy cfg (issueAfterConsent cfg w sid env f cfg.urlEncode).log f.state)
        (issueAfterConsent cfg w sid env f cfg.urlEncode).response ∧
      Sends (WrittenPlainly cfg (issueAfterConsent cfg w sid env f id).log f.state)
        (issueAfterConsent cfg w sid env f id).response := by
  unfold issueAfterConsent
  simp only [generateAuthorizationCode_eq]
  exact ⟨.redirect (.code (List.mem_singleton_self _) rfl) (code_query _ _ _ _),
    .redirect ⟨_, _, _, List.mem_singleton_self _, rfl, rfl⟩ (code_query _ _ _ _)⟩

theorem sends_denied {f : ConsentFields} : Sends (WrittenBy cfg log f.state)
    (.redirect ⟨.client f.redirectUri,
      "?error=access_denied&error_description=User+denied+consent" ++
        optionalParam "state" f.state (cfg.urlEncode f.state)⟩) := by
  refine .redirect .denied ?_
  have hconstant : "?error=access_denied&error_description=User+denied+consent" =
      "?" ++ "error" ++ "=" ++ "access_denied" ++
        optionalParam "error_description" "User denied consent" "User+denied+consent" := by
    decide
  rw [hconstant]
  rfl

theorem sends_consent :
    (¬WithoutScopes req .consent → Sends
      (WrittenBy cfg (consent cfg w req env).log (consentFields req).state)
      (consent cfg w req env).response) ∧
    (WithoutScopes req .consent → Sends
      (WrittenPlainly cfg (consent cfg w req env).log (consentFields req).state)
      (consent cfg w req env).response) := by
  unfold consent
  simp only
  split
  · rename_i haction
    exact ⟨fun _ => sends_denied, fun h => absurd haction h.2.1⟩
  rename_i haction
  split
  · exact ⟨fun _ => .of_none rfl, fun _ => .of_none rfl⟩
  split
  · rename_i hscopes
    have hmore : ¬WithoutScopes req .consent := by
      intro h
      rw [h.2.2] at hscopes
      cases hscopes
    split
    · exact ⟨fun _ => .of_none rfl, fun _ => .of_none rfl⟩
    · exact ⟨fun _ => sends_issueAfterConsent.1, fun h => absurd h hmore⟩
  · rename_i hscopes
    have hnone : WithoutScopes req .consent := ⟨rfl, haction, hscopes⟩
    exact ⟨fun h => absurd hnone h, fun _ => sends_issueAfterConsent.2⟩

end Session

theorem sends_run (h : Handler) :
    (¬WithoutScopes req h → Sends (WrittenBy cfg (h.run cfg w req env).log (h.state req))
      (h.run cfg w req env).response) ∧
    (WithoutScopes req h → Sends (WrittenPlainly cfg (h.run cfg w req env).log (h.state req))
      (h.run cfg w req env).response) := by
  cases h with
  | authorize => exact ⟨fun _ => Authorize.sends_authorize, fun h => nomatch h.1⟩
  | login => exact ⟨fun _ => Session.sends_login, fun h => nomatch h.1⟩
  | consent => exact Session.sends_consent

/-! ### Every exit -/

/-- The parameters that an answer of a handler puts in: the request's state, and the code that was
issued or the error that stands in the query. -/
structure Puts (cfg : Config) (o : Outcome b) (l : Location) (state : String) (p : PutIn) :
    Prop where
  state : p.state = state
  answer : (p.name = "code" ∧ ∃ session c, .codeIssued session c ∈ o.log ∧
      c.code = hashToken cfg.tokenService.crypto p.value) ∨
    (p.name = "error" ∧ p.value ∈ errorCodes ∧ ∃ raw rest,
      l.query = "?error=" ++ raw ++ rest ∧ (raw = p.value ∨ raw = cfg.urlEncode p.value))

theorem answer_of_writtenBy {state : String} {written : Written}
    (h : WrittenBy cfg log state written) :
    written.put.state = state ∧
      ((written.put.name = "code" ∧ ∃ session c, .codeIssued session c ∈ log ∧
          c.code = hashToken cfg.tokenService.crypto written.put.value) ∨
        (written.put.name = "error" ∧ written.put.value ∈ errorCodes ∧
          (written.raw = written.put.value ∨ written.raw = cfg.urlEncode written.put.value))) := by
  cases h with
  | code hissued hcode => exact ⟨rfl, .inl ⟨rfl, _, _, hissued, hcode⟩⟩
  | error description herror hraw => exact ⟨rfl, .inr ⟨rfl, herror, hraw⟩⟩
  | denied =>
    have herror : "access_denied" ∈ errorCodes := by decide
    exact ⟨rfl, .inr ⟨rfl, herror, .inl rfl⟩⟩

variable (hurl : InverseToDecoding cfg.urlEncode)
include hurl

theorem faithful_encoded (name : List UInt8) (s : String) :
    Part.Faithful ⟨name, bytes (cfg.urlEncode s), bytes s⟩ :=
  ⟨hurl.separator s, hurl.fragment s, hurl.decoded s⟩

theorem faithful_of_writtenBy {state : String} {written : Written}
    (h : WrittenBy cfg log state written) : Faithful written := by
  cases h with
  | code hissued hcode =>
    exact ⟨faithful_encoded hurl _ _, fun hne => absurd rfl hne, fun _ => faithful_encoded hurl _ _⟩
  | @error error raw description herror hraw =>
    refine ⟨?_, fun _ => faithful_encoded hurl _ _, fun _ => faithful_encoded hurl _ _⟩
    obtain rfl | rfl := hraw
    · have hplain : ∀ e ∈ errorCodes, separator ∉ bytes e ∧ fragmentMark ∉ bytes e ∧
          decode (bytes e) = bytes e := by decide
      obtain ⟨hseparator, hfragment, hdecoded⟩ := hplain raw herror
      exact ⟨hseparator, hfragment, hdecoded⟩
    · exact faithful_encoded hurl _ _
  | denied =>
    have hcode : Part.Faithful ⟨bytes "error", bytes "access_denied", bytes "access_denied"⟩ :=
      ⟨by decide, by decide, by decide⟩
    have hdescription : Part.Faithful
        ⟨bytes "error_description", bytes "User+denied+consent", bytes "User denied consent"⟩ :=
      ⟨by decide, by decide, by decide⟩
    exact ⟨hcode, fun _ => hdescription, fun _ => faithful_encoded hurl _ _⟩

theorem locations_carry_iff (h : Handler) {l : Location}
    (hl : l ∈ (h.run cfg w req env).response.locations) {redirectUri : String}
    (hpage : l.page = .client redirectUri) :
    ∃ p, Puts cfg (h.run cfg w req env) l (h.state req) p ∧
      (Carried redirectUri l p ↔ HasNoQuery redirectUri ∧
        (WithoutScopes req h → IsPlain p.value ∧ IsPlain p.state)) := by
  have hlocation : ∀ query, l.query = query → l = ⟨.client redirectUri, query⟩ := by
    intro query hquery
    rw [← hpage, ← hquery]
  by_cases hplain : WithoutScopes req h
  · obtain ⟨written, ⟨session, c, code, hissued, hcode, rfl⟩, hquery⟩ :=
      (sends_run h).2 hplain l hl redirectUri hpage
    refine ⟨⟨"code", code, h.state req⟩, ⟨rfl, .inl ⟨rfl, session, c, hissued, hcode⟩⟩, ?_⟩
    rw [hlocation _ hquery, carried_rawCode_iff]
    exact and_congr_right' ⟨fun h _ => h, fun h => h hplain⟩
  · obtain ⟨written, hwritten, hquery⟩ := (sends_run h).1 hplain l hl redirectUri hpage
    have hfaithful := faithful_of_writtenBy hurl hwritten
    obtain ⟨hstate, hanswer⟩ := answer_of_writtenBy hwritten
    have hname : IsAnswer written.put.name := hanswer.imp And.left And.left
    refine ⟨written.put, ⟨hstate, ?_⟩, ?_⟩
    · refine hanswer.imp_right fun h => ?_
      obtain ⟨herror, hcode, hraw⟩ := h
      obtain ⟨rest, htext⟩ := Written.query_error herror
      exact ⟨herror, hcode, _, rest, hquery.trans htext, hraw⟩
    · rw [hlocation _ hquery, carried_iff_of_faithful hname hfaithful]
      simp only [hplain, false_implies, and_true]

end Exits

/-! ### A denial with known values -/

def charOf (b : UInt8) : Char := Char.ofNat b.toNat

def percentEncode (s : String) : String := String.ofList ((encode (bytes s)).map charOf)

theorem bytes_ofList_ascii {s : List UInt8} (h : ∀ b ∈ s, b < 128) :
    bytes (String.ofList (s.map charOf)) = s := by
  have hbyte : ∀ b : UInt8, b < 128 → String.utf8EncodeChar (charOf b) = [b] :=
    forall_byte (by decide +kernel)
  rw [bytes, String.toList_ofList, List.flatMap_map]
  induction s with
  | nil => rfl
  | cons b s ih =>
    rw [List.flatMap_cons, hbyte b (h b List.mem_cons_self),
      ih fun c hc => h c (List.mem_cons_of_mem _ hc)]
    rfl

theorem bytes_percentEncode (s : String) : bytes (percentEncode s) = encode (bytes s) :=
  bytes_ofList_ascii fun _ hb => (mem_encode hb).1

theorem inverseToDecoding_percentEncode : InverseToDecoding percentEncode where
  decoded s := by rw [bytes_percentEncode, decode_encode]
  separator s := by
    rw [bytes_percentEncode]
    exact fun hmem => (mem_encode hmem).2.1 rfl
  fragment s := by
    rw [bytes_percentEncode]
    exact fun hmem => (mem_encode hmem).2.2 rfl

def encodingConfig : Config := { knownConfig with urlEncode := percentEncode }

def denialAt (redirectUri : String) : HttpRequest where
  session := 1
  params := paramsOf
    [("client_id", "spa"), ("action", "deny"), ("redirect_uri", redirectUri),
     ("state", "state 123")]

def denialLocation (redirectUri : String) : Location :=
  ⟨.client redirectUri,
    "?error=access_denied&error_description=User+denied+consent&state=state+123"⟩

theorem locations_carry_iff_denial :
    ∃ p, Puts encodingConfig
        (Handler.consent.run encodingConfig knownWorld
          (denialAt "https://spa.example.com/callback") {})
        (denialLocation "https://spa.example.com/callback") "state 123" p ∧
      (Carried "https://spa.example.com/callback"
          (denialLocation "https://spa.example.com/callback") p ↔
        HasNoQuery "https://spa.example.com/callback" ∧
          (WithoutScopes (denialAt "https://spa.example.com/callback") .consent →
            IsPlain p.value ∧ IsPlain p.state)) := by
  obtain ⟨hlocations, hstate⟩ :
      denialLocation "https://spa.example.com/callback" ∈
          (Handler.consent.run encodingConfig knownWorld
            (denialAt "https://spa.example.com/callback") {}).response.locations ∧
        Handler.consent.state (denialAt "https://spa.example.com/callback") = "state 123" := by
    decide +kernel
  have hcarry := locations_carry_iff inverseToDecoding_percentEncode .consent hlocations rfl
  rw [hstate] at hcarry
  exact hcarry

/-- An accepted redirect URI with a query of its own: the receiver reads no error at all. -/
theorem ownQuery_not_carried :
    RuleEngine.validateRedirectUri false "https://spa.example.com/callback?tenant=1" = none ∧
      InverseToDecoding encodingConfig.urlEncode ∧
      denialLocation "https://spa.example.com/callback?tenant=1" ∈
        (Handler.consent.run encodingConfig knownWorld
          (denialAt "https://spa.example.com/callback?tenant=1") {}).response.locations ∧
      ¬Carried "https://spa.example.com/callback?tenant=1"
        (denialLocation "https://spa.example.com/callback?tenant=1")
        ⟨"error", "access_denied", "state 123"⟩ := by
  obtain ⟨haccepted, hlocations⟩ :
      RuleEngine.validateRedirectUri false "https://spa.example.com/callback?tenant=1" = none ∧
        denialLocation "https://spa.example.com/callback?tenant=1" ∈
          (Handler.consent.run encodingConfig knownWorld
            (denialAt "https://spa.example.com/callback?tenant=1") {}).response.locations := by
    decide +kernel
  refine ⟨haccepted, inverseToDecoding_percentEncode, hlocations, ?_⟩
  intro h
  have honce := h.once (bytes "error", bytes "access_denied") List.mem_cons_self
  revert honce
  decide +kernel

end AuthForge.RedirectLocations
