import AuthForge.Http.Logout
import Mathlib.Data.List.Dedup

/-!
# Whom a logout reaches

The notifier looks the user's active tokens up under one key: the `user_id` of the revoked token, or
the subject of the session. The issuing paths store them under the public subject or under the
internal id. It posts once to every relying party that has a token under that key, so it reaches all
of them exactly if nobody has tokens under the other key only.
-/

namespace AuthForge.LogoutNotices

open Http Http.Logout OAuth2 Identity Storage

variable {sha256Hex : String → String} {grants : GrantRepository}

/-! ### Requests and their users -/

inductive Request
  | logout (req : LogoutRequest)
  | endSession (req : HttpRequest)

def serve (cfg : Config) (ports : Ports) (s : Site sha256Hex grants) (env : LogoutEnv) :
    Request → Outcome sha256Hex grants
  | .logout req => logout cfg ports s req env
  | .endSession req => endSession cfg ports s req env

/-- The user of a request: of its valid token, or of its session. -/
def userOf (cfg : Config) (s : Site sha256Hex grants) (env : LogoutEnv) :
    Request → Option String
  | .logout req => (presented cfg s req env).map OAuth2AccessToken.userId
  | .endSession req => (s.world.sessions req.session).sub

/-- The keys under which the issuing paths store the tokens of a user. -/
def keysOf (id : Int) (p : Profile) : List String := [p.publicSub, toString id]

/-- The client has an unexpired, unrevoked access token under the key. -/
def HasActive (s : Site sha256Hex grants) (now : Int) (key clientId : String) : Prop :=
  ∃ hash row, s.tokens.oauth2AccessTokens.lookup hash = some row ∧ row.clientId = clientId ∧
    row.userId = key ∧ now < row.expiresAt ∧ row.revoked = false

/-- The relying party of the target is to be notified of the logout of a user with these keys. -/
def Concerned (s : Site sha256Hex grants) (now : Int) (keys : List String)
    (target : BackchannelRpTarget) : Prop :=
  target.clientId ∈ s.world.clients ∧
    target.backchannelLogoutUri = s.backchannelLogoutUri target.clientId ∧
      target.backchannelLogoutUri ≠ "" ∧ ∃ key ∈ keys, HasActive s now key target.clientId

/-- One POST to everybody who is concerned, and none to anybody else. -/
def NotifiesOnce (s : Site sha256Hex grants) (now : Int) (keys : List String)
    (posts : List Post) : Prop :=
  (posts.map Post.target).Nodup ∧
    ∀ target, target ∈ posts.map Post.target ↔ Concerned s now keys target

/-- The hash of the token that the request revokes. -/
def revokedBy (cfg : Config) : Request → Option String
  | .logout req => some (hashToken cfg.tokenService.crypto (bearer req))
  | .endSession _ => none

/-- An active access token besides the one with the given hash. -/
def HasOther (s : Site sha256Hex grants) (gone : Option String) (now : Int)
    (key clientId : String) : Prop :=
  ∃ hash row, some hash ≠ gone ∧ s.tokens.oauth2AccessTokens.lookup hash = some row ∧
    row.clientId = clientId ∧ row.userId = key ∧ now < row.expiresAt ∧ row.revoked = false

/-- Every relying party with another token under one of the keys has one under the key of the
request. -/
def Covers (s : Site sha256Hex grants) (gone : Option String) (now : Int) (key : String)
    (keys : List String) : Prop :=
  ∀ clientId ∈ s.world.clients, s.backchannelLogoutUri clientId ≠ "" →
    ∀ other ∈ keys, HasOther s gone now other clientId → HasOther s gone now key clientId

variable {cfg : Config} {ports : Ports} {s : Site sha256Hex grants} {env : LogoutEnv}

/-! ### The two queries and the fan-out -/

theorem mem_activeClientIds {now : Int} {key clientId : String} :
    clientId ∈ activeClientIds now key s.tokens ↔ HasActive s now key clientId := by
  unfold activeClientIds HasActive
  rw [List.mem_dedup, List.mem_map]
  constructor
  · rintro ⟨⟨hash, row⟩, hrow, rfl⟩
    obtain ⟨hmem, hactive⟩ := List.mem_filter.mp hrow
    simp only [isActive, Bool.and_eq_true, decide_eq_true_eq, Bool.not_eq_true'] at hactive
    obtain ⟨⟨hexpires, hrevoked⟩, huser⟩ := hactive
    exact ⟨hash, row, AList.mem_lookup_iff.mpr hmem, rfl, huser, hexpires, hrevoked⟩
  · rintro ⟨hash, row, hrow, rfl, huser, hexpires, hrevoked⟩
    refine ⟨⟨hash, row⟩, List.mem_filter.mpr ⟨AList.mem_lookup_iff.mp hrow, ?_⟩, rfl⟩
    simp [isActive, huser, hexpires, hrevoked]

theorem mem_targetsOf {clientIds : List String} {target : BackchannelRpTarget} :
    target ∈ targetsOf s clientIds ↔ target.clientId ∈ s.world.clients ∧
      target.clientId ∈ clientIds ∧
        target.backchannelLogoutUri = s.backchannelLogoutUri target.clientId ∧
          target.backchannelLogoutUri ≠ "" := by
  unfold targetsOf
  rw [List.mem_map]
  constructor
  · rintro ⟨clientId, hmem, rfl⟩
    obtain ⟨hclient, hkept⟩ := List.mem_filter.mp hmem
    simp only [Bool.and_eq_true, decide_eq_true_eq] at hkept
    exact ⟨AList.mem_keys.mpr hclient, hkept.1, rfl, hkept.2⟩
  · rintro ⟨hclient, hmem, huri, hne⟩
    refine ⟨target.clientId, List.mem_filter.mpr ⟨AList.mem_keys.mp hclient, ?_⟩, ?_⟩
    · rw [huri] at hne
      simp [hmem, hne]
    · rw [← huri]

theorem nodup_targetsOf {clientIds : List String} : (targetsOf s clientIds).Nodup := by
  unfold targetsOf
  refine (s.world.clients.keys_nodup.filter _).map ?_
  intro a b heq
  exact congrArg BackchannelRpTarget.clientId heq

theorem target_postTo (hsigns : ∀ claims, ports.signJwt claims ≠ "") (env : LogoutEnv)
    (subject : String) (target : BackchannelRpTarget) (n : Nat) :
    (postTo ports env subject target n).map Post.target = some target := by
  unfold postTo
  dsimp only
  rw [if_neg (hsigns _)]
  rfl

/-- Where every token is signed, each target with a URI gets its post. -/
theorem map_target_dispatch (hsigns : ∀ claims, ports.signJwt claims ≠ "") {subject : String}
    {targets : List BackchannelRpTarget} (huris : ∀ t ∈ targets, t.backchannelLogoutUri ≠ "") :
    (dispatch ports env subject targets).map Post.target = targets := by
  unfold dispatch
  generalize 0 = start
  induction targets generalizing start with
  | nil => rfl
  | cons target targets ih =>
    have hpost := target_postTo hsigns env subject target start
    obtain ⟨post, hpost, htarget⟩ := Option.map_eq_some_iff.mp hpost
    have hrest := ih (fun t ht => huris t (List.mem_cons_of_mem _ ht)) (start + 1)
    rw [List.zipIdx_cons, List.filterMap_cons]
    dsimp only
    rw [if_neg (huris target List.mem_cons_self), hpost]
    dsimp only
    rw [List.map_cons, htarget, hrest]

theorem map_target_notify (hsigns : ∀ claims, ports.signJwt claims ≠ "")
    (htokens : env.tokenQueryFails = false) (hclients : env.clientQueryFails = false)
    (key : String) :
    (notify ports s env key).map Post.target =
      targetsOf s (activeClientIds env.notifiedAt key s.tokens) := by
  have huris : ∀ t ∈ targetsOf s (activeClientIds env.notifiedAt key s.tokens),
      t.backchannelLogoutUri ≠ "" := fun t ht => (mem_targetsOf.mp ht).2.2.2
  unfold notify
  rw [htokens, hclients]
  dsimp only
  split
  · rename_i hnone
    cases hnone
  · split
    · rename_i hempty
      rw [hempty]
      unfold targetsOf
      simp
    · exact map_target_dispatch hsigns huris

/-- Notifying under one key reaches everybody who is concerned exactly if the others add nobody. -/
theorem notifiesOnce_notify_iff (hsigns : ∀ claims, ports.signJwt claims ≠ "")
    (htokens : env.tokenQueryFails = false) (hclients : env.clientQueryFails = false)
    {key : String} {keys : List String} (hkey : key ∈ keys) :
    NotifiesOnce s env.notifiedAt keys (notify ports s env key) ↔
      ∀ clientId ∈ s.world.clients, s.backchannelLogoutUri clientId ≠ "" → ∀ other ∈ keys,
        HasActive s env.notifiedAt other clientId → HasActive s env.notifiedAt key clientId := by
  unfold NotifiesOnce
  rw [map_target_notify hsigns htokens hclients]
  constructor
  · rintro ⟨-, hreaches⟩ clientId hclient huri other hother hactive
    have hconcerned : Concerned s env.notifiedAt keys ⟨clientId, s.backchannelLogoutUri clientId⟩ :=
      ⟨hclient, rfl, huri, other, hother, hactive⟩
    obtain ⟨-, hmem, -⟩ := mem_targetsOf.mp ((hreaches _).mpr hconcerned)
    exact mem_activeClientIds.mp hmem
  · intro hcovers
    refine ⟨nodup_targetsOf, ?_⟩
    intro target
    rw [mem_targetsOf, mem_activeClientIds]
    constructor
    · rintro ⟨hclient, hactive, huri, hne⟩
      exact ⟨hclient, huri, hne, key, hkey, hactive⟩
    · rintro ⟨hclient, huri, hne, other, hother, hactive⟩
      refine ⟨hclient, ?_, huri, hne⟩
      exact hcovers target.clientId hclient (huri ▸ hne) other hother hactive

/-! ### The requests -/

/-- A request that completes notifies under the key of its user, in the state it leaves. -/
theorem posts_serve {r : Request} {key : String} (huser : userOf cfg s env r = some key)
    (hkey : key ≠ "") (hcompletes : (serve cfg ports s env r).reply.completes = true) :
    (serve cfg ports s env r).posts = notify ports (serve cfg ports s env r).site env key := by
  cases r with
  | logout req =>
    change (presented cfg s req env).map OAuth2AccessToken.userId = some key at huser
    generalize ho : serve cfg ports s env (.logout req) = o at hcompletes ⊢
    have hcase : LogoutCase cfg ports s req env o := ho ▸ logout_cases
    cases hcase with
    | refused hreply => exact absurd hcompletes (by simp [Site.answer, hreply])
    | done htoken =>
      rw [htoken] at huser
      obtain rfl := Option.some.inj huser
      rfl
  | endSession req =>
    change (s.world.sessions req.session).sub = some key at huser
    have hsubject : subjectOf s ports req = key := by
      unfold subjectOf
      rw [huser]
      exact if_neg hkey
    generalize ho : serve cfg ports s env (.endSession req) = o at hcompletes ⊢
    have hcase : EndSessionCase ports s req env o := ho ▸ endSession_cases
    cases hcase with
    | refused hreply => exact absurd hcompletes (by simp [Site.answer, hreply])
    | finished hreply =>
      rw [hsubject]
      exact if_neg hkey

theorem oauth2AccessTokens_loggedOut {req : LogoutRequest} {token : OAuth2AccessToken}
    (htoken : presented cfg s req env = some token) (hrevocation : env.revocation = {}) :
    (loggedOut cfg s req env token.clientId).tokens.oauth2AccessTokens =
      s.tokens.oauth2AccessTokens.mapValues fun hash row =>
        if hash = hashToken cfg.tokenService.crypto (bearer req) then
          { row with revoked := true, revokedAt := env.revokedAt, revokedBy := token.clientId }
        else row := by
  have hfound : ∃ row, s.tokens.oauth2AccessTokens.lookup
      (hashToken cfg.tokenService.crypto (bearer req)) = some row := by
    have hvalid := (TokenService.checkAccessToken_eq_some_iff.mp htoken).1
    unfold Postgres.getAccessToken Postgres.findAccessToken at hvalid
    obtain ⟨row, hrow, -⟩ := Option.map_eq_some_iff.mp hvalid
    split at hrow
    · cases hrow
    · exact ⟨row, hrow⟩
  obtain ⟨row, hrow⟩ := hfound
  change (Postgres.revokeAccessToken env.revokedAt env.revocation _ token.clientId
    s.tokens).oauth2AccessTokens = _
  unfold Postgres.revokeAccessToken Postgres.findAccessToken
  rw [hrevocation]
  dsimp only
  rw [if_neg Bool.false_ne_true, hrow]
  rfl

theorem hasActive_loggedOut_iff {req : LogoutRequest} {token : OAuth2AccessToken}
    (htoken : presented cfg s req env = some token) (hrevocation : env.revocation = {}) {now : Int}
    {key clientId : String} :
    HasActive (loggedOut cfg s req env token.clientId) now key clientId ↔
      HasOther s (revokedBy cfg (.logout req)) now key clientId := by
  unfold HasActive HasOther
  rw [oauth2AccessTokens_loggedOut htoken hrevocation]
  simp only [Dict.lookup_mapValues]
  constructor
  · rintro ⟨hash, row, hrow, hclient, huser, hexpires, hrevoked⟩
    obtain ⟨old, hold, rfl⟩ := Option.map_eq_some_iff.mp hrow
    by_cases hgone : hash = hashToken cfg.tokenService.crypto (bearer req)
    · rw [if_pos hgone] at hrevoked
      cases hrevoked
    · rw [if_neg hgone] at hclient huser hexpires hrevoked
      exact ⟨hash, old, fun heq => hgone (Option.some.inj heq), hold, hclient, huser, hexpires,
        hrevoked⟩
  · rintro ⟨hash, row, hgone, hrow, hclient, huser, hexpires, hrevoked⟩
    have hne : hash ≠ hashToken cfg.tokenService.crypto (bearer req) := by
      rintro rfl
      exact hgone rfl
    refine ⟨hash, row, ?_, hclient, huser, hexpires, hrevoked⟩
    rw [hrow, Option.map_some, if_neg hne]

/-- A request that completes leaves the clients, and all tokens but the one that it revokes. -/
theorem site_serve {r : Request} (hcompletes : (serve cfg ports s env r).reply.completes = true)
    (hrevocation : env.revocation = {}) :
    (serve cfg ports s env r).site.world.clients = s.world.clients ∧
      (serve cfg ports s env r).site.backchannelLogoutUris = s.backchannelLogoutUris ∧
        ∀ now key clientId, HasActive (serve cfg ports s env r).site now key clientId ↔
          HasOther s (revokedBy cfg r) now key clientId := by
  cases r with
  | logout req =>
    generalize ho : serve cfg ports s env (.logout req) = o at hcompletes ⊢
    have hcase : LogoutCase cfg ports s req env o := ho ▸ logout_cases
    cases hcase with
    | refused hreply => exact absurd hcompletes (by simp [Site.answer, hreply])
    | done htoken => exact ⟨rfl, rfl, fun _ _ _ => hasActive_loggedOut_iff htoken hrevocation⟩
  | endSession req =>
    generalize ho : serve cfg ports s env (.endSession req) = o at hcompletes ⊢
    have hcase : EndSessionCase ports s req env o := ho ▸ endSession_cases
    cases hcase with
    | refused hreply => exact absurd hcompletes (by simp [Site.answer, hreply])
    | finished hreply =>
      refine ⟨rfl, rfl, fun now key clientId => ?_⟩
      constructor
      · rintro ⟨hash, row, hrow⟩
        exact ⟨hash, row, nofun, hrow⟩
      · rintro ⟨hash, row, -, hrow⟩
        exact ⟨hash, row, hrow⟩

theorem ne_empty_of_mem_keysOf {id : Int} {p : Profile} {key : String}
    (hrow : s.world.directory.users.table.lookup id = some p) (hkey : key ∈ keysOf id p) :
    key ≠ "" := by
  rintro rfl
  rcases List.mem_cons.mp hkey with hsub | hid
  · have huuid := s.world.directory.users.publicSubs_uuid _ (AList.mem_lookup_iff.mp hrow)
    rw [← hsub] at huuid
    cases huuid
  · have hempty : toString id = "" := (List.mem_singleton.mp hid).symm
    rcases intToString_cases id with ⟨n, -, heq⟩ | ⟨n, -, heq⟩
    · rw [hempty, Nat.toString_eq_repr] at heq
      exact Nat.repr_ne_empty heq.symm
    · rw [hempty] at heq
      cases heq

/-- A request of a user that completes, with all queries and signatures succeeding, notifies every
relying party that has an active token of the user, once, exactly if no relying party has one under
the other key only. -/
theorem notifies_once_iff {id : Int} {p : Profile} {key : String} {r : Request}
    (hrow : s.world.directory.users.table.lookup id = some p)
    (huser : userOf cfg s env r = some key) (hkey : key ∈ keysOf id p)
    (hcompletes : (serve cfg ports s env r).reply.completes = true)
    (hrevocation : env.revocation = {}) (htokens : env.tokenQueryFails = false)
    (hclients : env.clientQueryFails = false) (hsigns : ∀ claims, ports.signJwt claims ≠ "") :
    NotifiesOnce (serve cfg ports s env r).site env.notifiedAt (keysOf id p)
        (serve cfg ports s env r).posts ↔
      Covers s (revokedBy cfg r) env.notifiedAt key (keysOf id p) := by
  obtain ⟨hsame, huris, hactive⟩ := site_serve hcompletes hrevocation
  rw [posts_serve huser (ne_empty_of_mem_keysOf hrow hkey) hcompletes,
    notifiesOnce_notify_iff hsigns htokens hclients hkey, hsame]
  unfold Covers Site.backchannelLogoutUri
  rw [huris]
  simp only [hactive]

/-! ### Alice's applications -/

def alice : Profile where
  publicSub := "11111111-1111-4111-8111-111111111111"
  username := some "alice"
  emailVerified := true

def fromSession : Request := .endSession ⟨0, ∅, none, none⟩

/-- She logs in, and her client gets tokens. -/
def withClient : List Logout.Input :=
  [.signIn (.flow (.http (knownLogin 0 "alice" "correct-horse" (knownEnv 59 0)))),
   .signIn (.flow (.exchange (knownExchange 0) (knownEnv 60 1).exchange))]

theorem notifies_once_iff_withClient :
    let s := (siteExecuted withClient).2
    let o := serve knownConfig knownPorts s (knownLogoutEnv 62) fromSession
    o.posts.map Post.target = [⟨"spa", "https://spa.example.com/logout"⟩] ∧
      (NotifiesOnce o.site 62 (keysOf 1 alice) o.posts ↔
        Covers s none 62 alice.publicSub (keysOf 1 alice)) := by
  intro s o
  have hsigns : ∀ claims, knownPorts.signJwt claims ≠ "" := by
    intro claims
    change "header.claims.signature" ≠ ""
    decide
  have hrun : s.world.directory.users.table.lookup 1 = some alice ∧
      userOf knownConfig s (knownLogoutEnv 62) fromSession = some alice.publicSub ∧
      o.reply.completes = true ∧
      o.posts.map Post.target = [⟨"spa", "https://spa.example.com/logout"⟩] := by
    decide +kernel
  obtain ⟨hrow, huser, hcompletes, hposts⟩ := hrun
  refine ⟨hposts, ?_⟩
  exact notifies_once_iff hrow huser List.mem_cons_self hcompletes rfl rfl rfl hsigns

/-- She logs in with her password, and to another client through GitHub. -/
def throughGitHub : List Logout.Input :=
  [.signIn (.flow (.http (knownLogin 0 "alice" "correct-horse" (knownEnv 59 0)))),
   .signIn (.gitHub (.ok 1) (knownEnv 61 2).exchange)]

/-- Her GitHub client is not told that she has ended her session. -/
theorem gitHub_client_not_notified :
    ¬∀ (history : List Event) (s : Site (fun _ => "") Memory.grantRepository) (env : LogoutEnv)
        (id : Int) (p : Profile) (key : String) (r : Request),
      SiteRun knownConfig knownPorts knownSite history s →
      s.world.directory.users.table.lookup id = some p →
      userOf knownConfig s env r = some key → key ∈ keysOf id p →
      (serve knownConfig knownPorts s env r).reply.completes = true →
      env.revocation = {} → env.tokenQueryFails = false → env.clientQueryFails = false →
      NotifiesOnce (serve knownConfig knownPorts s env r).site env.notifiedAt (keysOf id p)
        (serve knownConfig knownPorts s env r).posts := by
  intro hclaim
  let s := (siteExecuted throughGitHub).2
  let o := serve knownConfig knownPorts s (knownLogoutEnv 62) fromSession
  have hrun : (s.world.directory.users.table.lookup 1 = some alice ∧
        userOf knownConfig s (knownLogoutEnv 62) fromSession = some alice.publicSub ∧
        o.reply.completes = true ∧ o.posts = []) ∧
      "vue-client" ∈ o.site.world.clients ∧
        o.site.backchannelLogoutUri "vue-client" = "https://app.example.com/logout" ∧
        "vue-client" ∈ activeClientIds 62 "1" o.site.tokens := by
    decide +kernel
  obtain ⟨⟨hrow, huser, hcompletes, hposts⟩, hclient, huri, hactive⟩ := hrun
  have honce := hclaim _ _ (knownLogoutEnv 62) 1 alice alice.publicSub fromSession
    (siteRun_executed throughGitHub) hrow huser List.mem_cons_self hcompletes rfl rfl rfl
  rw [hposts] at honce
  have hreached := (honce.2 ⟨"vue-client", "https://app.example.com/logout"⟩).mpr
  refine absurd (hreached ⟨hclient, huri, by decide, "1", by decide, ?_⟩) List.not_mem_nil
  exact mem_activeClientIds.mp hactive

end AuthForge.LogoutNotices
