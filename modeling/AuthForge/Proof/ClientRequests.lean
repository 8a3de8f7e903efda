import AuthForge.Http.AuthorizationEndpoint
import AuthForge.Http.ClientCredentials
import AuthForge.OAuth2.Trace
import AuthForge.Sdk.AuthorizationCodeFlow

/-!
# What the clients send and what the server makes of it

Every client has its own way to a verifier and its challenge, to the URL of the authorization
request and to the requests to the token endpoint. What they write comes to the same, and the server
reads it back as it was meant, up to an id with a colon in front of a secret.
-/

namespace AuthForge.ClientRequests

open Ascii OAuth2 Sdk

/-! ### Texts -/

theorem bytes_asciiText {b : Bytes} (h : ∀ x ∈ b, x.toNat < 128) : bytes (asciiText b) = b := by
  have hchars : ∀ c ∈ b.map asciiChar, c.toNat < 128 := by
    intro c hc
    obtain ⟨x, hx, rfl⟩ := List.mem_map.mp hc
    have hlt := h x hx
    rwa [toNat_asciiChar hlt]
  rw [asciiText, bytes, String.toList_ofList, flatMap_of_ascii hchars]
  exact map_asciiByte_map_asciiChar h

theorem bytes_quotePlus (s : String) : bytes (quotePlus s) = QueryString.encode (bytes s) := by
  apply bytes_asciiText
  intro x hx
  exact (QueryString.mem_encode hx).1

/-! ### PKCE

The clients come to base64url on different ways and the server on yet another one. All of them write
the same text for the same bytes, and since the encoding can be undone, the server accepts exactly
the verifiers that have the digest of the one that was generated. -/

section Pkce

variable {sha256 : Bytes → Bytes}

theorem lt_of_mem_encoded {b : Bytes} {c : UInt8}
    (hc : c ∈ OpenSslCryptoProvider.base64UrlEncodeImpl b) : c.toNat < 128 :=
  Base64.urlSafe_table.2.2.2 c (OpenSslCryptoProvider.mem_kBase64UrlAlphabet_of_mem hc)

theorem python_encodes (b : Bytes) :
    Python.urlsafeB64encode b = asciiText (OpenSslCryptoProvider.base64UrlEncodeImpl b) := by
  rw [Python.urlsafeB64encode, Base64.rdropWhile_map_urlSafe_encode]

theorem spa_encodes (b : Bytes) :
    Spa.base64UrlEncode b = asciiText (OpenSslCryptoProvider.base64UrlEncodeImpl b) := by
  rw [Spa.base64UrlEncode, List.map_map, ← Base64.rdropWhile_map_urlSafe_encode]
  congr 2
  apply List.map_congr_left
  intro c _
  simp only [Function.comp_apply, Base64.urlSafe]
  by_cases hplus : c = Base64.plus
  · rw [if_pos hplus, if_pos hplus]
    rfl
  · rw [if_neg hplus, if_neg hplus]

theorem toList_encoded (b : Bytes) :
    (asciiText (OpenSslCryptoProvider.base64UrlEncodeImpl b)).toList =
      (OpenSslCryptoProvider.base64UrlEncodeImpl b).map asciiChar := by
  rw [asciiText, String.toList_ofList]

theorem ascii_of_encoded (b : Bytes) :
    ∀ c ∈ (asciiText (OpenSslCryptoProvider.base64UrlEncodeImpl b)).toList, c.toNat < 128 := by
  intro c hc
  rw [toList_encoded] at hc
  obtain ⟨x, hx, rfl⟩ := List.mem_map.mp hc
  have hlt := lt_of_mem_encoded hx
  rwa [toNat_asciiChar hlt]

theorem bytes_encoded (b : Bytes) :
    bytes (asciiText (OpenSslCryptoProvider.base64UrlEncodeImpl b)) =
      OpenSslCryptoProvider.base64UrlEncodeImpl b := by
  apply bytes_asciiText
  intro x hx
  exact lt_of_mem_encoded hx

theorem encoded_inj {b b' : Bytes}
    (h : asciiText (OpenSslCryptoProvider.base64UrlEncodeImpl b) =
      asciiText (OpenSslCryptoProvider.base64UrlEncodeImpl b')) : b = b' := by
  have hbytes := congrArg bytes h
  rw [bytes_encoded, bytes_encoded] at hbytes
  have hdecoded := congrArg OpenSslCryptoProvider.base64UrlDecodeImpl hbytes
  rwa [OpenSslCryptoProvider.base64UrlDecodeImpl_encodeImpl,
    OpenSslCryptoProvider.base64UrlDecodeImpl_encodeImpl] at hdecoded

/-! The format. -/

theorem isPkceChar_of_mem :
    ∀ c ∈ OpenSslCryptoProvider.kBase64UrlAlphabet, isPkceChar c = true := by
  decide +kernel

/-- Between 32 and 96 bytes fill a verifier or a challenge. -/
theorem isValidPkce_encoded {b : Bytes} (hlow : 32 ≤ b.length) (hhigh : b.length ≤ 96) :
    isValidPkceCharsetAndLength (asciiText (OpenSslCryptoProvider.base64UrlEncodeImpl b)) =
      true := by
  have hlength := OpenSslCryptoProvider.length_base64UrlEncodeImpl b
  have hchars : (OpenSslCryptoProvider.base64UrlEncodeImpl b).all isPkceChar = true := by
    rw [List.all_eq_true]
    intro c hc
    exact isPkceChar_of_mem c (OpenSslCryptoProvider.mem_kBase64UrlAlphabet_of_mem hc)
  unfold isValidPkceCharsetAndLength
  rw [byteLength_eq_length_bytes, bytes_encoded, hchars, hlength]
  simp only [Bool.and_true, Bool.and_eq_true, decide_eq_true_eq]
  omega

/-! Challenges and pairs. -/

theorem spa_challenge (verifier : String) :
    Spa.computeS256Challenge sha256 verifier =
      computeCodeChallenge verifier "S256" (openSslCryptoProvider sha256) := by
  rw [Spa.computeS256Challenge, spa_encodes]
  rfl

theorem go_challenge (verifier : String) :
    Go.createChallenge sha256 verifier =
      computeCodeChallenge verifier "S256" (openSslCryptoProvider sha256) :=
  rfl

theorem python_challenge (verifier : String) :
    Python.createPkceChallenge sha256 verifier =
      if verifier.toList.all (·.toNat < 128) then
        .ok (computeCodeChallenge verifier "S256" (openSslCryptoProvider sha256))
      else .error "UnicodeEncodeError" := by
  rw [Python.createPkceChallenge, python_encodes]
  rfl

/-- The pair for these random bytes. -/
def pairOf (sha256 : Bytes → Bytes) (random : Vector UInt8 48) : PkcePair :=
  let verifier := asciiText (OpenSslCryptoProvider.base64UrlEncodeImpl random.toList)
  { verifier, challenge := computeCodeChallenge verifier "S256" (openSslCryptoProvider sha256) }

theorem generated (random : Vector UInt8 48) :
    Spa.generatePkcePair sha256 random = pairOf sha256 random ∧
      Python.generate sha256 random = .ok (pairOf sha256 random) ∧
      Go.newPkcePair sha256 (some random) = .ok (pairOf sha256 random) := by
  refine ⟨?_, ?_, rfl⟩
  · rw [Spa.generatePkcePair, Spa.generateCodeVerifier, spa_encodes, spa_challenge]
    rfl
  · have hascii : (asciiText (OpenSslCryptoProvider.base64UrlEncodeImpl random.toList)).toList.all
        (·.toNat < 128) = true := by
      rw [List.all_eq_true]
      intro c hc
      exact decide_eq_true (ascii_of_encoded _ c hc)
    rw [Python.generate, Python.tokenUrlsafe, python_encodes, python_challenge, if_pos hascii]
    rfl

theorem encoded_ne_empty {b : Bytes} (h : 32 ≤ b.length) :
    asciiText (OpenSslCryptoProvider.base64UrlEncodeImpl b) ≠ "" := by
  intro hempty
  have hlength := OpenSslCryptoProvider.length_base64UrlEncodeImpl b
  rw [← bytes_encoded, hempty] at hlength
  have hnil : (bytes "").length = 0 := rfl
  omega

/-- A code whose challenge was made from a verifier is redeemed by whatever has the same digest. -/
theorem redeemed_iff {svc : TokenService} (hcrypto : svc.crypto = openSslCryptoProvider sha256)
    (hdigest : ∀ data, (sha256 data).length = 32) {code : OAuth2AuthCode} {verifier : String}
    (hchallenge : code.codeChallenge = computeCodeChallenge verifier "S256" svc.crypto)
    (hmethod : code.codeChallengeMethod = "S256") (presented : String) :
    svc.pkceFailure code presented = none ↔
      presented ≠ "" ∧ sha256 (bytes presented) = sha256 (bytes verifier) := by
  rw [TokenService.pkceFailure_eq_none_iff, hchallenge, hmethod, hcrypto]
  have hne : computeCodeChallenge verifier "S256" (openSslCryptoProvider sha256) ≠ "" :=
    encoded_ne_empty (hdigest (bytes verifier)).ge
  have hinj : computeCodeChallenge presented "S256" (openSslCryptoProvider sha256) =
      computeCodeChallenge verifier "S256" (openSslCryptoProvider sha256) ↔
      sha256 (bytes presented) = sha256 (bytes verifier) := by
    constructor
    · intro heq
      exact encoded_inj heq
    · intro heq
      exact congrArg (fun b => asciiText (OpenSslCryptoProvider.base64UrlEncodeImpl b)) heq
  rw [← hinj]
  constructor
  · intro h
    obtain ⟨hpresented, ⟨-, heq⟩ | ⟨hplain, -⟩⟩ := h hne
    · exact ⟨hpresented, heq⟩
    · exact absurd hplain (by decide)
  · intro h _
    exact ⟨h.1, .inl ⟨rfl, h.2⟩⟩

/-- For the same random bytes every client generates the same pair, in the format that the server
names; every client computes the server's challenge for a given verifier, unless the Python client
meets one that is not ASCII; and an exchange for a code with the generated challenge passes with
exactly the verifiers that have the digest of the generated one. -/
theorem pairs_redeem (hdigest : ∀ data, (sha256 data).length = 32) (random : Vector UInt8 48) :
    (Spa.generatePkcePair sha256 random = pairOf sha256 random ∧
      Python.generate sha256 random = .ok (pairOf sha256 random) ∧
      Go.newPkcePair sha256 (some random) = .ok (pairOf sha256 random)) ∧
    (isValidCodeVerifierFormat (pairOf sha256 random).verifier = true ∧
      isValidCodeChallengeFormat (pairOf sha256 random).challenge = true) ∧
    (∀ verifier,
      Spa.computeS256Challenge sha256 verifier =
          computeCodeChallenge verifier "S256" (openSslCryptoProvider sha256) ∧
        Go.createChallenge sha256 verifier =
          computeCodeChallenge verifier "S256" (openSslCryptoProvider sha256) ∧
        Python.createPkceChallenge sha256 verifier =
          if verifier.toList.all (·.toNat < 128) then
            .ok (computeCodeChallenge verifier "S256" (openSslCryptoProvider sha256))
          else .error "UnicodeEncodeError") ∧
    ∀ (svc : TokenService) (code : OAuth2AuthCode) (presented : String),
      svc.crypto = openSslCryptoProvider sha256 →
      code.codeChallenge = (pairOf sha256 random).challenge →
      code.codeChallengeMethod = (pairOf sha256 random).method →
      (svc.pkceFailure code presented = none ↔ presented ≠ "" ∧
        sha256 (bytes presented) = sha256 (bytes (pairOf sha256 random).verifier)) := by
  have hrandom : random.toList.length = 48 := Vector.length_toList
  refine ⟨generated random, ⟨?_, ?_⟩, ?_, ?_⟩
  · apply isValidPkce_encoded <;> omega
  · have hlength := hdigest (bytes (pairOf sha256 random).verifier)
    exact isValidPkce_encoded hlength.ge (hlength.trans_le (by decide))
  · intro verifier
    exact ⟨spa_challenge verifier, go_challenge verifier, python_challenge verifier⟩
  · intro svc code presented hcrypto hchallenge hmethod
    apply redeemed_iff hcrypto hdigest ?_ hmethod presented
    rw [hchallenge, hcrypto]
    rfl

def zeros : Vector UInt8 48 := Vector.replicate 48 0

/-- The digest of 64 letters A. -/
def zerosDigest : Bytes :=
  [213, 62, 218, 122, 99, 124, 153, 204, 127, 181, 102, 217, 110, 159, 161, 9, 191, 21, 196, 120,
   65, 10, 63, 94, 180, 212, 196, 226, 108, 208, 129, 246]

def zerosSha256 (data : Bytes) : Bytes :=
  if data = List.replicate 64 65 then zerosDigest else List.replicate 32 0

theorem length_zerosSha256 (data : Bytes) : (zerosSha256 data).length = 32 := by
  unfold zerosSha256
  split <;> rfl

theorem pairs_redeem_zeros :
    (pairOf zerosSha256 zeros).challenge = "1T7aemN8mcx_tWbZbp-hCb8VxHhBCj9etNTE4mzQgfY" ∧
      Spa.generatePkcePair zerosSha256 zeros = pairOf zerosSha256 zeros ∧
      { knownService with crypto := openSslCryptoProvider zerosSha256 }.pkceFailure
        { code := "hash", clientId := "spa", userId := "1", scope := "openid", redirectUri := ""
          codeChallenge := (pairOf zerosSha256 zeros).challenge, codeChallengeMethod := "S256"
          nonce := "", expiresAt := 4600 } (pairOf zerosSha256 zeros).verifier = none := by
  obtain ⟨⟨hspa, -, -⟩, -, -, hredeemed⟩ := pairs_redeem length_zerosSha256 zeros
  refine ⟨by decide +kernel, hspa, ?_⟩
  refine (hredeemed _ _ _ rfl rfl rfl).mpr ⟨?_, rfl⟩
  decide +kernel

end Pkce

/-! ### Forms -/

section Forms

variable {form : Form} {fields : List (String × Option String)}

def pairs (form : Form) : List QueryString.Parameter := form.map fun p => (bytes p.1, bytes p.2)

theorem bytes_urlencode (form : Form) :
    bytes (urlencode form) = QueryString.formText (pairs form) := by
  have hpair : ∀ p : String × String, bytes (quotePlus p.1 ++ "=" ++ quotePlus p.2) =
      QueryString.encode (bytes p.1) ++
        QueryString.equalsMark :: QueryString.encode (bytes p.2) := by
    intro p
    have hequals : bytes "=" = [QueryString.equalsMark] := rfl
    rw [bytes_append, bytes_append, bytes_quotePlus, bytes_quotePlus, hequals, List.append_assoc]
    rfl
  unfold urlencode
  induction form with
  | nil => rfl
  | cons p form ih =>
    cases form with
    | nil =>
      rw [List.map_singleton, String.intercalate_singleton, hpair]
      rfl
    | cons q form =>
      have hampersand : bytes "&" = [QueryString.separator] := rfl
      rw [List.map_cons] at ih
      rw [List.map_cons, List.map_cons, String.intercalate_cons_cons, bytes_append, bytes_append,
        ih, hpair, hampersand, List.append_assoc]
      rfl

/-- How the server reads the parameters of a query or a form: a name that is given once has its
value, and a name that is not given has none. -/
structure ReadsForms (readForm : Bytes → String → Option Bytes) : Prop where
  once : ∀ {text name value},
    (QueryString.parameters text).filter (·.1 = bytes name) = [(bytes name, value)] →
      readForm text name = some value
  absent : ∀ {text name}, (QueryString.parameters text).filter (·.1 = bytes name) = [] →
    readForm text name = none

variable {readForm : Bytes → String → Option Bytes}

theorem filter_pairs (form : Form) (name : String) :
    (pairs form).filter (·.1 = bytes name) = pairs (form.filter (·.1 = name)) := by
  unfold pairs
  rw [List.filter_map]
  congr 1
  apply List.filter_congr
  intro p _
  simp only [Function.comp_apply, bytes_injective.eq_iff]

theorem lookup_cons_ne {β : Type} {name key : String} (h : name ≠ key) (value : β)
    (entries : List (String × β)) :
    ((key, value) :: entries).lookup name = entries.lookup name := by
  rw [List.lookup_cons, beq_false_of_ne h]

theorem filter_eq_lookup (hnodup : (form.map Prod.fst).Nodup) (name : String) :
    form.filter (·.1 = name) = Python.field name (form.lookup name) := by
  induction form with
  | nil => rfl
  | cons p form ih =>
    obtain ⟨key, value⟩ := p
    rw [List.map_cons, List.nodup_cons] at hnodup
    obtain ⟨hkey, hrest⟩ := hnodup
    by_cases hname : key = name
    · subst hname
      have hnone : form.filter (·.1 = key) = [] := by
        rw [List.filter_eq_nil_iff]
        intro q hq heq
        exact hkey (List.mem_map.mpr ⟨q, hq, of_decide_eq_true heq⟩)
      rw [List.filter_cons_of_pos (by simp), hnone, List.lookup_cons_self]
      rfl
    · rw [List.filter_cons_of_neg (by simpa using hname), ih hrest, lookup_cons_ne (Ne.symm hname)]

/-- Each name of a form without repetitions is read with its value, in whatever order the form was
written. -/
theorem readForm_urlencode (hread : ReadsForms readForm) {written : Form}
    (hperm : written.Perm form) (hnodup : (form.map Prod.fst).Nodup) {text : Bytes}
    (htext : QueryString.parameters text = pairs written) (name : String) :
    readForm text name = (form.lookup name).map bytes := by
  have hfilter : ((QueryString.parameters text).filter (·.1 = bytes name)).Perm
      (pairs (Python.field name (form.lookup name))) := by
    rw [htext, filter_pairs, ← filter_eq_lookup hnodup]
    exact (hperm.filter _).map _
  cases hvalue : form.lookup name with
  | none =>
    rw [hvalue] at hfilter
    exact hread.absent hfilter.eq_nil
  | some value =>
    rw [hvalue] at hfilter
    exact hread.once hfilter.eq_singleton

/-- A form with some of these fields. -/
def filled (fields : List (String × Option String)) : Form :=
  fields.flatMap fun f => Python.field f.1 f.2

theorem map_fst_filled_sublist (fields : List (String × Option String)) :
    ((filled fields).map Prod.fst).Sublist (fields.map Prod.fst) := by
  induction fields with
  | nil => exact .slnil
  | cons f fields ih =>
    obtain ⟨name, value⟩ := f
    cases value with
    | none => exact ih.cons _
    | some value => exact ih.cons_cons _

theorem lookup_filled (hnodup : (fields.map Prod.fst).Nodup) (name : String) :
    (filled fields).lookup name = (fields.lookup name).join := by
  induction fields with
  | nil => rfl
  | cons f fields ih =>
    obtain ⟨key, value⟩ := f
    rw [List.map_cons, List.nodup_cons] at hnodup
    obtain ⟨hkey, hrest⟩ := hnodup
    by_cases hname : name = key
    · subst hname
      rw [List.lookup_cons_self]
      cases value with
      | some value => exact List.lookup_cons_self
      | none =>
        change (filled fields).lookup name = none
        rw [List.lookup_eq_none_iff]
        intro p hp
        have hmem := (map_fst_filled_sublist fields).subset (List.mem_map_of_mem hp)
        simpa using fun heq : name = p.1 => hkey (heq ▸ hmem)
    · rw [lookup_cons_ne hname, ← ih hrest]
      cases value with
      | some value => exact lookup_cons_ne hname _ _
      | none => rfl

end Forms

/-! ### The authorization request -/

section Authorize

open Http Http.AuthorizationEndpoint

variable {readForm : Bytes → String → Option Bytes} {fields : List (String × Option String)}

/-- A value that is sent only if Python takes it for true, or Go for not empty. -/
def given (value : Option String) : Option String := if Python.truthy value then value else none

theorem getD_given (value : Option String) : (given value).getD "" = value.getD "" := by
  unfold given
  cases h : Python.truthy value with
  | true => rfl
  | false => exact (of_not_not (of_decide_eq_false h)).symm

/-- The words of a scope, if there are any. -/
def joined (scopes : List String) : Option String :=
  if scopes = [] then none else some (" ".intercalate scopes)

theorem getD_joined (scopes : List String) : (joined scopes).getD "" = " ".intercalate scopes := by
  unfold joined
  split
  · rename_i h
    rw [h]
    rfl
  · rfl

def asked (clientId : String) (redirectUri scope state : Option String)
    (pkce : Option PkcePair) : List (String × Option String) :=
  [("response_type", some "code"), ("client_id", some clientId), ("redirect_uri", redirectUri),
    ("scope", scope), ("state", state), ("code_challenge", pkce.map PkcePair.challenge),
    ("code_challenge_method", pkce.map fun _ => "S256")]

theorem nodup_asked (clientId : String) (redirectUri scope state : Option String)
    (pkce : Option PkcePair) :
    ((asked clientId redirectUri scope state pkce).map Prod.fst).Nodup := by
  simp [asked]

theorem python_asks (flow : Python.AuthorizationCodeFlow) (state : Option String)
    (pkce : Option PkcePair) (scopes : Option (List String)) (redirectUri : Option String) :
    flow.authorizeParams state pkce scopes redirectUri =
      filled (asked flow.clientId (given (Python.either redirectUri flow.redirectUri))
        (joined (scopes.getD flow.scopes)) (given state) pkce) := by
  have hgiven : ∀ (params : Form) (name : String) (value : Option String),
      (if Python.truthy value then params ++ Python.field name value else params) =
        params ++ Python.field name (given value) := by
    intro params name value
    unfold given
    split
    · rfl
    · exact (List.append_nil params).symm
  have hjoined : ∀ (params : Form) (scopes : List String),
      (if scopes ≠ [] then params ++ [("scope", " ".intercalate scopes)] else params) =
        params ++ Python.field "scope" (joined scopes) := by
    intro params scopes
    unfold joined
    cases scopes with
    | nil => exact (List.append_nil params).symm
    | cons scope scopes => rfl
  unfold Python.AuthorizationCodeFlow.authorizeParams
  simp only [hgiven, hjoined]
  cases pkce <;> simp [filled, asked, Python.field]

theorem go_asks (flow : Go.AuthCodeFlow) (state : String) (pkce : Option PkcePair) :
    flow.authorizeValues state pkce =
      filled (asked flow.clientId (given (some flow.redirectUri)) (joined flow.scopes)
        (given (some state)) pkce) := by
  unfold Go.AuthCodeFlow.authorizeValues given joined Python.truthy
  by_cases hredirect : flow.redirectUri = "" <;> by_cases hscopes : flow.scopes = [] <;>
    by_cases hstate : state = "" <;> cases pkce <;>
    simp [hredirect, hscopes, hstate, Go.Values.set, filled, asked, Python.field]

/-- The server got the parameters of this URL. -/
def Shows (readForm : Bytes → String → Option Bytes) (url : String) (req : HttpRequest) : Prop :=
  ∀ name, bytes (req.getParameter name) =
    (readForm (QueryString.query (bytes url)) name).getD []

/-- A base URL has neither a query nor a fragment. -/
def IsBase (baseUrl : String) : Prop :=
  QueryString.queryMark ∉ bytes baseUrl ∧ QueryString.fragmentMark ∉ bytes baseUrl

theorem parameters_url {baseUrl : String} (hbase : IsBase baseUrl) (form : Form) :
    QueryString.parameters (QueryString.query
      (bytes (baseUrl ++ "/oauth2/authorize" ++ "?" ++ urlencode form))) = pairs form := by
  have hpath : QueryString.queryMark ∉ bytes "/oauth2/authorize" ∧
      QueryString.fragmentMark ∉ bytes "/oauth2/authorize" := by decide
  have hmark : bytes "?" = [QueryString.queryMark] := rfl
  rw [bytes_append, bytes_append, bytes_append, hmark, bytes_urlencode, List.append_assoc,
    List.singleton_append]
  apply QueryString.query_formText
  · rw [List.mem_append, not_or]
    exact ⟨hbase.1, hpath.1⟩
  · rw [List.mem_append, not_or]
    exact ⟨hbase.2, hpath.2⟩

theorem getParameter_of_shows (hread : ReadsForms readForm) {written : Form}
    (hperm : written.Perm (filled fields)) (hnodup : (fields.map Prod.fst).Nodup) {url : String}
    {req : HttpRequest} (hshows : Shows readForm url req)
    (htext : QueryString.parameters (QueryString.query (bytes url)) = pairs written)
    (name : String) : req.getParameter name = ((fields.lookup name).join).getD "" := by
  apply bytes_injective
  rw [hshows, readForm_urlencode hread hperm ((map_fst_filled_sublist _).nodup hnodup) htext,
    lookup_filled hnodup]
  cases (fields.lookup name).join <;> rfl

/-- What an authorization request of a client asks for. -/
def expected (clientId redirectUri scope state : String) (pkce : Option PkcePair) :
    AuthorizeFields where
  responseType := "code"
  clientId := clientId
  redirectUri := redirectUri
  scope := scope
  state := state
  codeChallenge := (pkce.map PkcePair.challenge).getD ""
  codeChallengeMethod := (pkce.map fun _ => "S256").getD ""
  nonce := ""
  prompt := ""
  maxAge := ""

theorem authorizeFields_of_asked {clientId : String} {redirectUri scope state : Option String}
    {pkce : Option PkcePair} {req : HttpRequest}
    (h : ∀ name, req.getParameter name =
      (((asked clientId redirectUri scope state pkce).lookup name).join).getD "") :
    authorizeFields req =
      expected clientId (redirectUri.getD "") (scope.getD "") (state.getD "") pkce := by
  simp [authorizeFields, h, asked, expected, List.lookup_cons]

/-- Whatever a client puts into the URL of an authorization request, the endpoint reads the same
out of it, and both clients ask alike. -/
theorem authorize_urls_read (hread : ReadsForms readForm) :
    (∀ (flow : Python.AuthorizationCodeFlow) (state : Option String) (pkce : Option PkcePair)
        (scopes : Option (List String)) (redirectUri : Option String) (req : HttpRequest),
      IsBase flow.baseUrl →
      Shows readForm (flow.buildAuthorizeUrl state pkce scopes redirectUri) req →
      authorizeFields req = expected flow.clientId
        ((Python.either redirectUri flow.redirectUri).getD "")
        (" ".intercalate (scopes.getD flow.scopes)) (state.getD "") pkce) ∧
    ∀ (flow : Go.AuthCodeFlow) (state : String) (pkce : Option PkcePair) (url : String)
        (req : HttpRequest), IsBase flow.baseUrl → flow.buildAuthorizeURL state pkce = .ok url →
      Shows readForm url req →
      authorizeFields req =
        expected flow.clientId flow.redirectUri (" ".intercalate flow.scopes) state pkce := by
  constructor
  · intro flow state pkce scopes redirectUri req hbase hshows
    have htext := parameters_url hbase (flow.authorizeParams state pkce scopes redirectUri)
    rw [python_asks] at htext
    rw [Python.AuthorizationCodeFlow.buildAuthorizeUrl, python_asks] at hshows
    have hfields := authorizeFields_of_asked
      (getParameter_of_shows hread (List.Perm.refl _) (nodup_asked _ _ _ _ _) hshows htext)
    rwa [getD_given, getD_joined, getD_given] at hfields
  · intro flow state pkce url req hbase hurl hshows
    unfold Go.AuthCodeFlow.buildAuthorizeURL at hurl
    split at hurl
    · cases hurl
    obtain rfl := Except.ok.inj hurl
    have htext := parameters_url hbase
      ((flow.authorizeValues state pkce).insertionSort fun p q => p.1 ≤ q.1)
    have hsorted := List.perm_insertionSort (fun p q : String × String => p.1 ≤ q.1)
      (flow.authorizeValues state pkce)
    have hperm := hsorted.trans (.of_eq (go_asks flow state pkce))
    have hfields := authorizeFields_of_asked
      (getParameter_of_shows hread hperm (nodup_asked _ _ _ _ _) hshows htext)
    rwa [getD_given, getD_joined, getD_given] at hfields

/-- The first value that is given for a name. -/
def firstValue (text : Bytes) (name : String) : Option Bytes :=
  ((QueryString.parameters text).find? (·.1 = bytes name)).map Prod.snd

theorem readsForms_firstValue : ReadsForms firstValue where
  once {text name value} h := by
    rw [firstValue, ← List.head?_filter, h]
    rfl
  absent {text name} h := by
    rw [firstValue, ← List.head?_filter, h]
    rfl

def requestOf (form : Form) : HttpRequest where
  session := 0
  params := form.foldr (fun p params => params.insert p.1 p.2) ∅

theorem shows_requestOf {baseUrl : String} (hbase : IsBase baseUrl) (form : Form) :
    Shows firstValue (baseUrl ++ "/oauth2/authorize" ++ "?" ++ urlencode form)
      (requestOf form) := by
  intro name
  rw [firstValue, parameters_url hbase]
  induction form with
  | nil => rfl
  | cons p form ih =>
    obtain ⟨key, value⟩ := p
    change bytes ((((requestOf form).params.insert key value).lookup name).getD "") = _
    by_cases hname : name = key
    · subst hname
      rw [AList.lookup_insert, pairs, List.map_cons, List.find?_cons_of_pos (by simp)]
      rfl
    · have hkey : (bytes key, bytes value).1 ≠ bytes name := by
        simpa using fun heq => hname (bytes_injective heq).symm
      rw [AList.lookup_insert_ne hname, pairs, List.map_cons,
        List.find?_cons_of_neg (by simpa using hkey)]
      exact ih

def knownPair : PkcePair := { verifier := "v", challenge := "c" }

def knownPython : Python.AuthorizationCodeFlow :=
  .init "https://id.example.com/" "spa & co" none (some "https://app.example.com/cb?x=1#top")
    ["openid", "a+b"]

def knownGo : Go.AuthCodeFlow :=
  Go.newAuthCodeFlow "https://id.example.com//" "spa & co" "" "https://app.example.com/cb?x=1#top"
    ["openid", "a+b"]

theorem authorize_urls_read_known :
    authorizeFields (requestOf (knownPython.authorizeParams (some "st?te&#") (some knownPair) none
        none)) =
      expected "spa & co" "https://app.example.com/cb?x=1#top" "openid a+b" "st?te&#"
        (some knownPair) ∧
    authorizeFields (requestOf ((knownGo.authorizeValues "st?te&#" (some knownPair)).insertionSort
        fun p q => p.1 ≤ q.1)) =
      expected "spa & co" "https://app.example.com/cb?x=1#top" "openid a+b" "st?te&#"
        (some knownPair) := by
  have hpythonBase : IsBase knownPython.baseUrl := by
    constructor <;> decide +kernel
  have hgoBase : IsBase knownGo.baseUrl := by
    constructor <;> decide +kernel
  obtain ⟨hpython, hgo⟩ := authorize_urls_read readsForms_firstValue
  refine ⟨hpython knownPython (some "st?te&#") (some knownPair) none none _ hpythonBase
    (shows_requestOf hpythonBase _), ?_⟩
  exact hgo knownGo "st?te&#" (some knownPair) _ _ hgoBase rfl (shows_requestOf hgoBase _)

end Authorize

/-! ### The requests to the token endpoint -/

section Token

open ClientCredentials hiding Bytes Request

variable {readForm : Bytes → String → Option Bytes} {base64Decode : Bytes → Option Bytes}
  {clientId : String} {clientSecret : Option String} {fields : List (String × Option String)}

/-- The request that arrives. -/
def received (readForm : Bytes → String → Option Bytes) (post : TokenPost) :
    ClientCredentials.Request where
  authorization := (post.authorization.map bytes).getD []
  parameters := readForm (bytes post.body)

/-- What a client sends: the secret goes into the header, and without a secret the id goes into the
form. -/
structure Sends (post : TokenPost) (clientId : String) (clientSecret : Option String)
    (fields : List (String × Option String)) : Prop where
  authorization : post.authorization = clientSecret.map (basicHeader clientId)
  body : ∃ written : Form, written.Perm (filled fields) ∧ post.body = urlencode written
  names : (fields.map Prod.fst).Nodup
  secret : fields.lookup "client_secret" = none
  id : (fields.lookup "client_id").join.getD "" = if clientSecret = none then clientId else ""

/-- The endpoint reads these fields. -/
def Arrives (req : ClientCredentials.Request) (said : List (String × String)) : Prop :=
  ∀ f ∈ said, req.getParameter f.1 = bytes f.2

/-- The gate lets the credentials pass for every client that declared no method, or the one that
goes with having a secret or none. -/
def Understood (base64Decode : Bytes → Option Bytes) (req : ClientCredentials.Request)
    (clientId : String) (clientSecret : Option String) : Prop :=
  ∀ client : OAuth2Client,
    client.tokenEndpointAuthMethod ∈
        ["", if clientSecret = none then "none" else "client_secret_basic"] →
      methodGate base64Decode req (some client) =
        .ok { clientId := bytes clientId, clientSecret := bytes (clientSecret.getD "")
              authScheme := if clientSecret = none then "" else "Basic" }

variable {post : TokenPost} {said : List (String × String)}

theorem Sends.parameter (h : Sends post clientId clientSecret fields) (hread : ReadsForms readForm)
    (name : String) :
    (received readForm post).parameters name = (fields.lookup name).join.map bytes := by
  obtain ⟨written, hperm, hbody⟩ := h.body
  change readForm (bytes post.body) name = _
  have htext : QueryString.parameters (bytes post.body) = pairs written := by
    rw [hbody, bytes_urlencode, QueryString.parameters_formText]
  rw [readForm_urlencode hread hperm ((map_fst_filled_sublist _).nodup h.names) htext,
    lookup_filled h.names]

theorem Sends.getParameter (h : Sends post clientId clientSecret fields)
    (hread : ReadsForms readForm) (name : String) :
    (received readForm post).getParameter name = bytes ((fields.lookup name).join.getD "") := by
  rw [ClientCredentials.Request.getParameter, h.parameter hread]
  cases (fields.lookup name).join <;> rfl

/-! The header. -/

theorem bytes_base64 (b : Bytes) : bytes (asciiText (Base64.encode b)) = Base64.encode b := by
  have htable : (∀ v < 64, (Base64.standardAlphabet.getD v 0).toNat < 128) ∧
      Base64.equals.toNat < 128 := by decide +kernel
  apply bytes_asciiText
  intro x hx
  obtain ⟨n, hn⟩ := Base64.encode_eq b
  rw [hn, Base64Url.encodeBlocks_eq] at hx
  rcases List.mem_append.mp hx with hx | hx
  · obtain ⟨v, hv, rfl⟩ := List.mem_map.mp hx
    exact htable.1 v (Base64Url.sextets_lt _ v hv)
  · rw [List.eq_of_mem_replicate hx]
    exact htable.2

theorem bytes_basicHeader (clientId secret : String) :
    bytes (basicHeader clientId secret) =
      basicPrefix ++ Base64.encode (bytes clientId ++ colon :: bytes secret) := by
  have hcolon : bytes ":" = [colon] := rfl
  rw [basicHeader, bytes_append, bytes_base64, bytes_append, bytes_append, hcolon,
    List.append_assoc]
  rfl

variable (hdecode : ∀ b, base64Decode (Base64.encode b) = some b)
include hdecode

theorem header_of_sends (readForm : Ascii.Bytes → String → Option Ascii.Bytes) {secret : String}
    (h : Sends post clientId (some secret) fields) :
    (received readForm post).IsBasic ∧
      (received readForm post).headerParts base64Decode =
        cutAtColon (bytes clientId ++ colon :: bytes secret) := by
  have hheader : (received readForm post).authorization =
      basicPrefix ++ Base64.encode (bytes clientId ++ colon :: bytes secret) := by
    rw [← bytes_basicHeader]
    simp [received, h.authorization]
  have hdrop : (received readForm post).authorization.drop 6 =
      Base64.encode (bytes clientId ++ colon :: bytes secret) := by
    rw [hheader]
    exact List.drop_left' rfl
  constructor
  · rw [ClientCredentials.Request.IsBasic, hheader]
    exact List.prefix_append _ _
  · rw [ClientCredentials.Request.headerParts, hdrop, hdecode, Option.bind_some]

/-- With a secret, the endpoint takes what stands before the first colon for the id. -/
theorem credentials_of_secret (hread : ReadsForms readForm) {secret : String}
    (h : Sends post clientId (some secret) fields) {user password : Bytes}
    (hcut : cutAtColon (bytes clientId ++ colon :: bytes secret) = some (user, password)) :
    tokenCredentials base64Decode (received readForm post) =
      { clientId := user, clientSecret := password, authScheme := "Basic" } := by
  obtain ⟨hbasic, hparts⟩ := header_of_sends hdecode readForm h
  have hid : (received readForm post).getParameter "client_id" = [] := by
    rw [h.getParameter hread, h.id]
    rfl
  have hsecret : (received readForm post).getParameter "client_secret" = [] := by
    rw [h.getParameter hread, h.secret]
    rfl
  rw [tokenCredentials_eq, tokenHeader_of_basic hbasic, hparts, hcut, hid, hsecret,
    if_pos (take_eq_iff.mpr hbasic)]
  have hkeep : ∀ x : Ascii.Bytes, (if x = [] then [] else x) = x := by
    intro x
    split
    · rename_i hx
      exact hx.symm
    · rfl
  simp only [Option.getD_some, hkeep]

omit hdecode in
/-- Without a secret, there is no header, and the id comes from the form. -/
theorem credentials_of_public (hread : ReadsForms readForm)
    (h : Sends post clientId none fields) :
    tokenCredentials base64Decode (received readForm post) =
      { clientId := bytes clientId, clientSecret := [], authScheme := "" } := by
  have hnot : ¬(received readForm post).IsBasic := by
    intro hbasic
    apply ne_nil_of_isBasic hbasic
    simp [received, h.authorization]
  rw [tokenCredentials_of_not_basic hnot, extractClientCredentials_of_not_basic hnot,
    h.getParameter hread, h.getParameter hread, h.id, h.secret]
  rfl

/-- The gate passes on what the endpoint read. -/
theorem gate_of_sends (hread : ReadsForms readForm)
    (h : Sends post clientId clientSecret fields) (client : OAuth2Client)
    (hmethod : client.tokenEndpointAuthMethod ∈
      ["", if clientSecret = none then "none" else "client_secret_basic"]) :
    methodGate base64Decode (received readForm post) (some client) =
      .ok (tokenCredentials base64Decode (received readForm post)) := by
  have habsent : (received readForm post).parameters "client_secret" = none := by
    rw [h.parameter hread, h.secret]
    rfl
  have hpasses : enforceClientAuthMethod client.tokenEndpointAuthMethod
      (tokenCredentials base64Decode (received readForm post)) false = "" := by
    cases clientSecret with
    | none =>
      rw [credentials_of_public hread h]
      rcases List.mem_cons.mp hmethod with hm | hm
      · rw [hm]
        rfl
      · rw [List.mem_singleton.mp hm]
        rfl
    | some secret =>
      have hscheme : (tokenCredentials base64Decode (received readForm post)).authScheme =
          "Basic" := by
        rw [tokenCredentials_eq]
        exact if_pos (take_eq_iff.mpr (header_of_sends hdecode readForm h).1)
      rcases List.mem_cons.mp hmethod with hm | hm
      · rw [hm]
        rfl
      · rw [List.mem_singleton.mp hm]
        simp [enforceClientAuthMethod, hscheme]
  simp only [methodGate, habsent, Option.isSome_none, hpasses, ne_eq, not_true_eq_false, if_false]

/-- A client that declared no method. -/
def anyClient : OAuth2Client where
  clientId := ""
  clientType := .CONFIDENTIAL
  clientSecretHash := ""
  salt := ""
  redirectUris := []
  allowedScopes := []

/-- The server reads the id in the header up to the first colon. -/
theorem understood_iff (hread : ReadsForms readForm)
    (h : Sends post clientId clientSecret fields) :
    Understood base64Decode (received readForm post) clientId clientSecret ↔
      (clientSecret ≠ none → colon ∉ bytes clientId) := by
  cases clientSecret with
  | none =>
    refine iff_of_true ?_ fun hne => absurd rfl hne
    intro client hmethod
    rw [gate_of_sends hdecode hread h client hmethod, credentials_of_public hread h]
    rfl
  | some secret =>
    constructor
    · intro hunderstood _ hmem
      obtain ⟨before, after, hid, hbefore⟩ := List.eq_append_cons_of_mem hmem
      have hcut : cutAtColon (bytes clientId ++ colon :: bytes secret) =
          some (before, after ++ colon :: bytes secret) := by
        rw [hid, List.append_assoc, List.cons_append]
        exact cutAtColon_append hbefore
      have hgate := hunderstood anyClient List.mem_cons_self
      rw [gate_of_sends hdecode hread h anyClient List.mem_cons_self,
        credentials_of_secret hdecode hread h hcut] at hgate
      have hsame : before = bytes clientId := congrArg Credentials.clientId (Except.ok.inj hgate)
      rw [hsame] at hbefore
      exact hbefore hmem
    · intro hclean client hmethod
      rw [gate_of_sends hdecode hread h client hmethod,
        credentials_of_secret hdecode hread h (cutAtColon_append (hclean (by simp)))]
      rfl

omit hdecode in
/-- What the fields say arrives, whatever the credentials are. -/
theorem Sends.arrives (hread : ReadsForms readForm) (h : Sends post clientId clientSecret fields)
    (hsaid : ∀ f ∈ said, (fields.lookup f.1).join.getD "" = f.2) :
    Arrives (received readForm post) said := by
  intro f hf
  rw [h.getParameter hread, hsaid f hf]

omit hdecode

/-! The four requests. -/

def exchanged (code : String) (redirectUri codeVerifier clientId : Option String) :
    List (String × Option String) :=
  [("grant_type", some "authorization_code"), ("code", some code), ("redirect_uri", redirectUri),
    ("code_verifier", codeVerifier), ("client_id", clientId)]

def refreshed (refreshToken : String) (clientId : Option String) : List (String × Option String) :=
  [("grant_type", some "refresh_token"), ("refresh_token", some refreshToken),
    ("client_id", clientId)]

/-- The id that goes into the form. -/
def named (clientId : String) (clientSecret : Option String) : Option String :=
  if clientSecret = none then some clientId else none

theorem getD_named (clientId : String) (clientSecret : Option String) :
    (named clientId clientSecret).getD "" = if clientSecret = none then clientId else "" := by
  unfold named
  split <;> rfl

theorem python_exchanges (flow : Python.AuthorizationCodeFlow) (code : String)
    (codeVerifier redirectUri : Option String) :
    Sends (flow.exchangeCode code codeVerifier redirectUri) flow.clientId flow.clientSecret
      (exchanged code (some ((Python.either redirectUri flow.redirectUri).getD "")) codeVerifier
        (named flow.clientId flow.clientSecret)) where
  authorization := rfl
  body := by
    refine ⟨_, .refl _, ?_⟩
    unfold Python.AuthorizationCodeFlow.exchangeCode Python.AuthorizationCodeFlow.post named
    cases flow.clientSecret <;> cases codeVerifier <;> rfl
  names := by simp [exchanged]
  secret := by simp [exchanged, List.lookup_cons]
  id := by simp [exchanged, List.lookup_cons, getD_named]

theorem python_refreshes (flow : Python.AuthorizationCodeFlow) (refreshToken : String) :
    Sends (flow.refresh refreshToken) flow.clientId flow.clientSecret
      (refreshed refreshToken (named flow.clientId flow.clientSecret)) where
  authorization := rfl
  body := by
    refine ⟨_, .refl _, ?_⟩
    unfold Python.AuthorizationCodeFlow.refresh Python.AuthorizationCodeFlow.post named
    cases flow.clientSecret <;> rfl
  names := by simp [refreshed]
  secret := by simp [refreshed, List.lookup_cons]
  id := by simp [refreshed, List.lookup_cons, getD_named]

/-- A secret that is empty is none for the Go client. -/
def secretOf (clientSecret : String) : Option String :=
  if clientSecret = "" then none else some clientSecret

theorem go_authorization (clientId clientSecret : String) (form : Go.Values) :
    (Go.AuthCodeFlow.postFormWithBasic form clientId clientSecret).authorization =
      (secretOf clientSecret).map (basicHeader clientId) := by
  unfold Go.AuthCodeFlow.postFormWithBasic secretOf
  by_cases h : clientSecret = "" <;> simp [h]

theorem getD_named_given (clientId clientSecret : String) :
    (given (named clientId (secretOf clientSecret))).getD "" =
      if secretOf clientSecret = none then clientId else "" := by
  rw [getD_given, getD_named]

theorem go_exchanges (flow : Go.AuthCodeFlow) (code codeVerifier : String) :
    Sends (flow.exchangeCode code codeVerifier) flow.clientId (secretOf flow.clientSecret)
      (exchanged code (given (some flow.redirectUri)) (given (some codeVerifier))
        (given (named flow.clientId (secretOf flow.clientSecret)))) where
  authorization := go_authorization _ _ _
  body := by
    refine ⟨_, ?_, rfl⟩
    apply (List.perm_insertionSort _ _).trans
    apply List.Perm.of_eq
    unfold given named secretOf Python.truthy
    by_cases hredirect : flow.redirectUri = "" <;> by_cases hverifier : codeVerifier = "" <;>
      by_cases hsecret : flow.clientSecret = "" <;> by_cases hid : flow.clientId = "" <;>
      simp [hredirect, hverifier, hsecret, hid, Go.Values.set, filled, exchanged, Python.field]
  names := by simp [exchanged]
  secret := by simp [exchanged, List.lookup_cons]
  id := by simp [exchanged, List.lookup_cons, getD_named_given]

theorem go_refreshes (flow : Go.AuthCodeFlow) (refreshToken : String) :
    Sends (flow.refresh refreshToken) flow.clientId (secretOf flow.clientSecret)
      (refreshed refreshToken (given (named flow.clientId (secretOf flow.clientSecret)))) where
  authorization := go_authorization _ _ _
  body := by
    refine ⟨_, ?_, rfl⟩
    apply (List.perm_insertionSort _ _).trans
    apply List.Perm.of_eq
    unfold given named secretOf Python.truthy
    by_cases hsecret : flow.clientSecret = "" <;> by_cases hid : flow.clientId = "" <;>
      simp [hsecret, hid, Go.Values.set, filled, refreshed, Python.field]
  names := by simp [refreshed]
  secret := by simp [refreshed, List.lookup_cons]
  id := by simp [refreshed, List.lookup_cons, getD_named_given]

/-- The parameters of an exchange. -/
def exchangeSaid (code redirectUri codeVerifier : String) : List (String × String) :=
  [("grant_type", "authorization_code"), ("code", code), ("redirect_uri", redirectUri),
    ("code_verifier", codeVerifier)]

def refreshSaid (refreshToken : String) : List (String × String) :=
  [("grant_type", "refresh_token"), ("refresh_token", refreshToken)]

theorem said_exchanged (code : String) (redirectUri codeVerifier clientId : Option String) :
    ∀ f ∈ exchangeSaid code (redirectUri.getD "") (codeVerifier.getD ""),
      ((exchanged code redirectUri codeVerifier clientId).lookup f.1).join.getD "" = f.2 := by
  simp [exchangeSaid, exchanged, List.lookup_cons]

theorem said_refreshed (refreshToken : String) (clientId : Option String) :
    ∀ f ∈ refreshSaid refreshToken,
      ((refreshed refreshToken clientId).lookup f.1).join.getD "" = f.2 := by
  simp [refreshSaid, refreshed, List.lookup_cons]

/-- The requests of both clients to the token endpoint say what was asked for; and they get past the
gate with the credentials of the client exactly if the id of a client with a secret has no colon. -/
theorem token_requests_understood (hread : ReadsForms readForm)
    (hdecode : ∀ b, base64Decode (Base64.encode b) = some b) :
    (∀ (flow : Python.AuthorizationCodeFlow) (code : String)
        (codeVerifier redirectUri : Option String) (refreshToken : String),
      (Arrives (received readForm (flow.exchangeCode code codeVerifier redirectUri))
          (exchangeSaid code ((Python.either redirectUri flow.redirectUri).getD "")
            (codeVerifier.getD "")) ∧
        (Understood base64Decode
            (received readForm (flow.exchangeCode code codeVerifier redirectUri)) flow.clientId
            flow.clientSecret ↔
          (flow.clientSecret ≠ none → colon ∉ bytes flow.clientId))) ∧
      Arrives (received readForm (flow.refresh refreshToken)) (refreshSaid refreshToken) ∧
        (Understood base64Decode (received readForm (flow.refresh refreshToken)) flow.clientId
            flow.clientSecret ↔
          (flow.clientSecret ≠ none → colon ∉ bytes flow.clientId))) ∧
    ∀ (flow : Go.AuthCodeFlow) (code codeVerifier refreshToken : String),
      (Arrives (received readForm (flow.exchangeCode code codeVerifier))
          (exchangeSaid code flow.redirectUri codeVerifier) ∧
        (Understood base64Decode (received readForm (flow.exchangeCode code codeVerifier))
            flow.clientId (secretOf flow.clientSecret) ↔
          (secretOf flow.clientSecret ≠ none → colon ∉ bytes flow.clientId))) ∧
      Arrives (received readForm (flow.refresh refreshToken)) (refreshSaid refreshToken) ∧
        (Understood base64Decode (received readForm (flow.refresh refreshToken)) flow.clientId
            (secretOf flow.clientSecret) ↔
          (secretOf flow.clientSecret ≠ none → colon ∉ bytes flow.clientId)) := by
  constructor
  · intro flow code codeVerifier redirectUri refreshToken
    have hexchange := python_exchanges flow code codeVerifier redirectUri
    have hrefresh := python_refreshes flow refreshToken
    refine ⟨⟨hexchange.arrives hread ?_, understood_iff hdecode hread hexchange⟩,
      hrefresh.arrives hread (said_refreshed _ _), understood_iff hdecode hread hrefresh⟩
    exact said_exchanged code (some ((Python.either redirectUri flow.redirectUri).getD ""))
      codeVerifier (named flow.clientId flow.clientSecret)
  · intro flow code codeVerifier refreshToken
    have hexchange := go_exchanges flow code codeVerifier
    have hrefresh := go_refreshes flow refreshToken
    refine ⟨⟨hexchange.arrives hread ?_, understood_iff hdecode hread hexchange⟩,
      hrefresh.arrives hread (said_refreshed _ _), understood_iff hdecode hread hrefresh⟩
    have hmeant := said_exchanged code (given (some flow.redirectUri)) (given (some codeVerifier))
      (given (named flow.clientId (secretOf flow.clientSecret)))
    rwa [getD_given, getD_given] at hmeant

/-- base64 is decoded as base64url is, after a change of the alphabet. -/
def base64Decoded (encoded : Ascii.Bytes) : Option Ascii.Bytes :=
  some (OpenSslCryptoProvider.base64UrlDecodeImpl
    ((encoded.map Base64.urlSafe).rdropWhile (· = Base64.equals)))

theorem base64Decoded_encode (b : Ascii.Bytes) : base64Decoded (Base64.encode b) = some b := by
  rw [base64Decoded, Base64.rdropWhile_map_urlSafe_encode,
    OpenSslCryptoProvider.base64UrlDecodeImpl_encodeImpl]

/-- A client with a secret is understood; an id with a colon is not, but what it asks for is. -/
theorem token_requests_understood_known :
    (Arrives (received firstValue
          ({ knownPython with clientSecret := some "p:w" }.exchangeCode "c d" none none))
        (exchangeSaid "c d" "https://app.example.com/cb?x=1#top" "") ∧
      Understood base64Decoded (received firstValue
          ({ knownPython with clientSecret := some "p:w" }.exchangeCode "c d" none none))
        "spa & co" (some "p:w")) ∧
    Arrives (received firstValue
          ({ knownGo with clientId := "spa:co", clientSecret := "pw" }.refresh "r"))
        (refreshSaid "r") ∧
      ¬Understood base64Decoded (received firstValue
          ({ knownGo with clientId := "spa:co", clientSecret := "pw" }.refresh "r"))
        "spa:co" (some "pw") := by
  obtain ⟨hpython, hgo⟩ := token_requests_understood readsForms_firstValue base64Decoded_encode
  constructor
  · obtain ⟨⟨harrives, hunderstood⟩, -⟩ :=
      hpython { knownPython with clientSecret := some "p:w" } "c d" none none ""
    refine ⟨harrives, hunderstood.mpr ?_⟩
    intro _
    decide
  · obtain ⟨-, harrives, hunderstood⟩ :=
      hgo { knownGo with clientId := "spa:co", clientSecret := "pw" } "" "" "r"
    refine ⟨harrives, ?_⟩
    intro h
    have hcolon := hunderstood.mp h (by decide)
    revert hcolon
    decide

end Token

end AuthForge.ClientRequests
