import AuthForge.Admin.ClientRegistration
import AuthForge.Http.Runs

/-!
# Redirect URIs in one column

A registration joins the redirect URIs with commas and the repository splits the column at commas.
The pattern of a redirect URI lets a comma into the path, and then one registered URI is read as two.
-/

namespace AuthForge.StoredRedirectUris

open OAuth2 Http Storage Admin.ClientRegistration

/-- No URI of the list has the separator in it. -/
def WithoutComma (uris : List String) : Prop := ∀ uri ∈ uris, ',' ∉ uri.toList

/-- The client is read with the registered URIs, and accepts them and no others. -/
structure Faithful (uris : List String) (c : OAuth2Client) : Prop where
  redirectUris_eq : c.redirectUris = uris
  registered_iff : ∀ uri, c.isRegisteredRedirectUri uri = true ↔ uri ∈ uris

/-! ### Joining and splitting -/

theorem toList_joinItems (first : String) (rest : List String) :
    (RegistrationBody.joinItems (first :: rest)).toList =
      [','].intercalate ((first :: rest).map String.toList) := by
  induction rest generalizing first with
  | nil => simp [RegistrationBody.joinItems, List.intercalate]
  | cons second rest ih =>
    have hjoin : RegistrationBody.joinItems (first :: second :: rest) =
        first ++ "," ++ RegistrationBody.joinItems (second :: rest) :=
      String.intercalate_cons_cons
    rw [hjoin, String.toList_append, String.toList_append, ih second]
    simp [List.intercalate]

theorem notMem_lineItems {sep : Char} {s item : String}
    (h : item ∈ ClientTables.lineItems sep s) : sep ∉ item.toList := by
  unfold ClientTables.lineItems at h
  obtain ⟨part, hpart, rfl⟩ := List.mem_map.mp h
  have hmem : part ∈ s.toList.splitOn sep := by
    split at hpart
    · exact List.dropLast_subset _ hpart
    · exact hpart
  rw [String.toList_ofList]
  exact notMem_of_mem_splitOn hmem

theorem lineItems_joinItems {uris : List String} (hcomma : WithoutComma uris) (hne : "" ∉ uris) :
    ClientTables.lineItems ',' (RegistrationBody.joinItems uris) = uris := by
  unfold ClientTables.lineItems
  cases uris with
  | nil => decide
  | cons first rest =>
    have hsplit : (RegistrationBody.joinItems (first :: rest)).toList.splitOn ',' =
        (first :: rest).map String.toList := by
      rw [toList_joinItems]
      refine List.splitOn_intercalate ',' ?_ (List.cons_ne_nil _ _)
      intro part hpart
      obtain ⟨uri, huri, rfl⟩ := List.mem_map.mp hpart
      exact hcomma uri huri
    rw [hsplit]
    dsimp only
    rw [if_neg, List.map_map]
    · exact List.map_id'' (fun _ => String.ofList_toList) _
    · intro hlast
      obtain ⟨uri, huri, hnil⟩ := List.mem_map.mp (List.mem_of_getLast? hlast)
      exact hne (String.toList_eq_nil_iff.mp hnil ▸ huri)

/-! ### Registering and reading -/

variable {cfg : ClientConfig} {env : Nat → Env} {T : ClientTables} {body : RegistrationBody}
  {clientId clientSecret clientName method : String} {uris grantTypes : List String} {issuedAt : Int}

/-- The tables after further calls of the registration services. -/
def after (calls : List (Env × ClientCall)) (T : ClientTables) : ClientTables :=
  calls.foldl (fun T call => (exec call.1 call.2 T).2) T

/-- A row stays as it was inserted. -/
theorem lookup_exec {e : Env} {call : ClientCall} {k : String} {row : Oauth2Clients}
    (h : T.clients.lookup k = some row) : (exec e call T).2.clients.lookup k = some row := by
  cases call with
  | insertClient row' =>
    change (T.insertClient e row').2.clients.lookup k = some row
    unfold ClientTables.insertClient
    split
    · exact h
    · rename_i hfree
      have hne : k ≠ row'.clientId := by
        rintro rfl
        exact hfree (.inr (AList.lookup_isSome.mp (by rw [h]; rfl)))
      exact (AList.lookup_insert_ne hne).trans h
  | replaceScopes clientId scopes =>
    change (T.replaceScopes e clientId scopes).2.clients.lookup k = some row
    rw [ClientTables.clients_replaceScopes]
    exact h
  | getUuid => exact h
  | generateSecureToken n => exact h
  | nowSeconds => exact h

theorem lookup_after {calls : List (Env × ClientCall)} {k : String} {row : Oauth2Clients}
    (h : T.clients.lookup k = some row) : (after calls T).clients.lookup k = some row := by
  unfold after
  induction calls generalizing T with
  | nil => exact h
  | cons call calls ih => exact ih (lookup_exec h)

theorem accepted_of_registrationError (h : registrationError cfg body = none) :
    "" ∉ body.redirectUris.getD [] := by
  have hvalid : invalidRedirectUri cfg (body.redirectUris.getD []) = none := by
    unfold registrationError at h
    iterate 5
      split at h
      · cases h
    split at h
    · cases h
    · assumption
  intro hmem
  cases List.findSome?_eq_none_iff.mp hvalid "" hmem

theorem registered_of_inserted {ok : Bool} {reply : ClientReply} {code detail : String}
    (h : (if ok = true then reply else .error code detail) =
      .registered clientId clientSecret clientName uris grantTypes method issuedAt) :
    ok = true ∧
      reply = .registered clientId clientSecret clientName uris grantTypes method issuedAt := by
  cases ok with
  | false => cases h
  | true => exact ⟨rfl, h⟩

/-- What a registration that succeeds answers and stores. -/
theorem row_of_registered
    (h : (Prog.eval exec env 0 (registerClient cfg (some body)) T).1 =
      .registered clientId clientSecret clientName uris grantTypes method issuedAt) :
    uris = body.redirectUris.getD [] ∧ "" ∉ uris ∧
      ∃ row, (Prog.eval exec env 0 (registerClient cfg (some body)) T).2.1.clients.lookup clientId =
        some row ∧ row.redirectUris = RegistrationBody.joinItems uris := by
  unfold registerClient at h ⊢
  cases herror : registrationError cfg body with
  | some error =>
    simp only [herror, Prog.eval] at h
    cases h
  | none =>
    simp only [herror, drawClient, Prog.eval, exec] at h ⊢
    obtain ⟨hok, hreply⟩ := registered_of_inserted h
    cases hreply
    exact ⟨rfl, accepted_of_registrationError herror, _, ClientTables.lookup_insertClient hok, rfl⟩

theorem faithful_iff {c : OAuth2Client} (hne : "" ∉ uris)
    (hread : c.redirectUris = ClientTables.lineItems ',' (RegistrationBody.joinItems uris)) :
    Faithful uris c ↔ WithoutComma uris := by
  constructor
  · intro hfaithful uri huri
    rw [← hfaithful.redirectUris_eq, hread] at huri
    exact notMem_lineItems huri
  · intro hcomma
    rw [lineItems_joinItems hcomma hne] at hread
    refine ⟨hread, ?_⟩
    intro uri
    unfold OAuth2Client.isRegisteredRedirectUri
    rw [decide_eq_true_eq, hread]

/-- Whatever follows the registration, the client is read with its redirect URIs exactly if none of
them contains a comma, and only then are these the URIs that it accepts. -/
theorem stored_faithfully_iff (cfg : ClientConfig) (env : Nat → Env) (T : ClientTables)
    (body : RegistrationBody) (clientId clientSecret clientName method : String)
    (uris grantTypes : List String) (issuedAt : Int)
    (hregistered : (Prog.eval exec env 0 (registerClient cfg (some body)) T).1 =
      .registered clientId clientSecret clientName uris grantTypes method issuedAt)
    (calls : List (Env × ClientCall)) (e : Env) (c : OAuth2Client)
    (hread : (after calls (Prog.eval exec env 0 (registerClient cfg (some body)) T).2.1).getClient e
      clientId = some c) :
    (Faithful uris c ↔ WithoutComma uris) ∧
      ((∀ uri, c.isRegisteredRedirectUri uri = true ↔ uri ∈ uris) ↔ WithoutComma uris) := by
  obtain ⟨-, hne, row, hrow, huris⟩ := row_of_registered hregistered
  have hstored : (after calls _).clients.lookup clientId = some row := lookup_after hrow
  have hread' : c.redirectUris = ClientTables.lineItems ',' (RegistrationBody.joinItems uris) := by
    unfold ClientTables.getClient at hread
    rw [hstored] at hread
    by_cases hfails : e.fails = true
    · rw [if_pos hfails] at hread
      cases hread
    · rw [if_neg hfails] at hread
      dsimp only at hread
      split at hread
      · cases hread
      · rw [← Option.some.inj hread, ← huris]
        rfl
  refine ⟨faithful_iff hne hread', ?_⟩
  constructor
  · intro hregistered uri huri
    have hlisted := (hregistered uri).mpr huri
    unfold OAuth2Client.isRegisteredRedirectUri at hlisted
    rw [decide_eq_true_eq, hread'] at hlisted
    exact notMem_lineItems hlisted
  · intro hcomma
    exact ((faithful_iff hne hread').mpr hcomma).registered_iff

/-! ### A comma in a path -/

def drawn (n : Nat) : Env :=
  { random := ["c2f6e0a4-17d9-4b38-b5ac-93e1f07d6842", "9f1c", "0a7d"].getD n "", now := 900 }

def registering (uri : String) : ClientReply × ClientTables × List ClientCall :=
  Prog.eval exec drawn 0
    (registerClient { knownConfig with }
      (some { clientName := "batch", redirectUris := some [uri] })) .empty

def told (uri : String) : ClientReply :=
  .registered "c2f6e0a4-17d9-4b38-b5ac-93e1f07d6842" "9f1c" "batch" [uri] ["authorization_code"]
    "client_secret_basic" 900

def readBack (uri : String) : Option OAuth2Client :=
  (registering uri).2.1.getClient {} "c2f6e0a4-17d9-4b38-b5ac-93e1f07d6842"

theorem stored_faithfully_iff_one :
    ∃ c, readBack "https://b.example/cb" = some c ∧ Faithful ["https://b.example/cb"] c := by
  have htold : (registering "https://b.example/cb").1 = told "https://b.example/cb" := by
    decide +kernel
  refine ⟨_, rfl, ?_⟩
  refine ((stored_faithfully_iff _ _ _ _ _ _ _ _ _ _ _ htold [] {} _ rfl).1).mpr ?_
  intro uri huri
  obtain rfl := List.mem_singleton.mp huri
  decide +kernel

/-- One URI is registered, and a plain one of another host is accepted for it. -/
theorem comma_registers_another :
    ¬∀ (cfg : ClientConfig) (env : Nat → Env) (T : ClientTables) (body : RegistrationBody)
        (clientId clientSecret clientName method : String) (uris grantTypes : List String)
        (issuedAt : Int) (c : OAuth2Client),
      (Prog.eval exec env 0 (registerClient cfg (some body)) T).1 =
        .registered clientId clientSecret clientName uris grantTypes method issuedAt →
      (Prog.eval exec env 0 (registerClient cfg (some body)) T).2.1.getClient {} clientId =
        some c →
      Faithful uris c := by
  intro hclaim
  obtain ⟨htold, haccepted, hother⟩ :
      (registering "https://b.example/cb,http://evil.example/").1 =
          told "https://b.example/cb,http://evil.example/" ∧
        (readBack "https://b.example/cb,http://evil.example/").any
            (·.isRegisteredRedirectUri "http://evil.example/") = true ∧
        "http://evil.example/" ∉ ["https://b.example/cb,http://evil.example/"] := by
    decide +kernel
  obtain ⟨c, hread, hc⟩ := (Option.any_eq_true _ _).mp haccepted
  have hfaithful := hclaim _ _ _ _ _ _ _ _ _ _ _ _ htold hread
  exact hother ((hfaithful.registered_iff "http://evil.example/").mp hc)

end AuthForge.StoredRedirectUris
