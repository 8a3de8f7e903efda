import AuthForge.Identity.SocialExchange

/-!
# When a social login ends in one genuine result

A login should answer once, let no exception escape, and report success only for a user whose
identifier came with status 200. The three providers check different parts of the two responses, so
each has its own condition.
-/

namespace AuthForge.GenuineProfile

open Jsoncpp Identity.SocialExchange

def isOk (r : OAuthHttpResult) : Prop := r.transportOk = true ∧ r.statusCode = 200

def Arrived (upstream : Upstream) : Prop := isOk (oauthHttpResult upstream)

structure Genuine {Result : Type} (errorCode : Result → String) (HasSubject : Result → Prop)
    (token user : Upstream) (e : Ended Result) : Prop where
  once : e.answers.length = 1
  contained : e.escaped = false
  genuine : ∀ result ∈ e.answers, errorCode result = "" →
    Arrived token ∧ Arrived user ∧ HasSubject result

abbrev GenuineGoogle (token user : Upstream) : Ended GoogleLoginResult → Prop :=
  Genuine GoogleLoginResult.errorCode (fun result => result.profile.sub ≠ "") token user

abbrev GenuineWeChat (token user : Upstream) : Ended WeChatLoginResult → Prop :=
  Genuine WeChatLoginResult.errorCode (fun result => result.profile.openid ≠ "") token user

abbrev GenuineGitHub (token user : Upstream) : Ended GitHubProfileResult → Prop :=
  Genuine GitHubProfileResult.errorCode (fun result => 0 < result.githubId) token user

/-! ### The conditions -/

/-- The response to the exchange names an access token. -/
def HasToken (body : Value) : Prop := body.isMember "access_token" = some true

/-- A user-info response that arrives has status 200 and names its subject; nothing read from it
throws. -/
structure GoogleUser (r : OAuthHttpResult) : Prop where
  status : r.statusCode = 200
  textual : r.body.Textual ["sub", "name", "email", "picture"]
  subject : r.body.stringAt "sub" ≠ some ""

def GoogleMeets (token user : OAuthHttpResult) : Prop :=
  isOk token → token.body.Textual ["access_token"] ∧
    (HasToken token.body → user.transportOk = true → GoogleUser user)

structure WeChatUser (r : OAuthHttpResult) : Prop where
  status : r.statusCode = 200
  textual : r.body.Textual ["openid", "nickname", "headimgurl", "city", "province", "country"]
  sex : (r.body.get "sex" (.int 0)).bind Value.asInt ≠ none
  subject : r.body.stringAt "openid" ≠ some ""

/-- The error code of the response is an integer, or there is none and it counts as zero. -/
def errcode (body : Value) : Option Int := (body.index "errcode").bind Value.asInt

def WeChatMeets (token user : OAuthHttpResult) : Prop :=
  isOk token → errcode token.body ≠ none ∧
    (errcode token.body = some 0 → token.body.Textual ["access_token", "openid"] ∧
      (user.transportOk = true → WeChatUser user))

structure GitHubUser (r : OAuthHttpResult) : Prop where
  textual : r.body.Textual ["login", "email"]
  id : (r.body.get "id" (.int 0)).bind Value.asInt64 ≠ none

def GitHubMeets (token user : OAuthHttpResult) : Prop :=
  isOk token → token.body.Textual ["access_token"] ∧
    (HasToken token.body → isOk user → GitHubUser user)

/-! ### The ends of a login -/

section Ends

variable {Result α : Type} {errorCode : Result → String} {HasSubject : Result → Prop}
  {token user : Upstream} {n : Nat}

theorem endedFrom_token (op : HttpCall) (k : OAuthHttpResult → ExchangeProg Result) :
    endedFrom 0 (.call op k) token user = endedFrom 1 (k (oauthHttpResult token)) token user := rfl

theorem endedFrom_user (op : HttpCall) (k : OAuthHttpResult → ExchangeProg Result) :
    endedFrom 1 (.call op k) token user = endedFrom 2 (k (oauthHttpResult user)) token user := rfl

theorem genuine_callback_iff {result : Result} :
    Genuine errorCode HasSubject token user (endedFrom n (callback result) token user) ↔
      (errorCode result = "" → Arrived token ∧ Arrived user ∧ HasSubject result) := by
  constructor
  · intro h
    exact h.genuine result (List.mem_singleton_self _)
  · intro h
    refine ⟨rfl, rfl, ?_⟩
    intro result' hmem
    rw [List.mem_singleton.mp hmem]
    exact h

theorem genuine_error {result : Result} (herror : errorCode result ≠ "") :
    Genuine errorCode HasSubject token user (endedFrom n (callback result) token user) :=
  genuine_callback_iff.mpr fun h => absurd h herror

theorem genuine_reading_iff {read : Option α} {k : α → ExchangeProg Result} :
    Genuine errorCode HasSubject token user (endedFrom n (reading read k) token user) ↔
      ∃ a, read = some a ∧
        Genuine errorCode HasSubject token user (endedFrom n (k a) token user) := by
  cases read with
  | none =>
    constructor
    · intro h
      cases h.contained
    · intro h
      obtain ⟨a, ha, -⟩ := h
      cases ha
  | some a =>
    constructor
    · exact fun h => ⟨a, rfl, h⟩
    · intro h
      obtain ⟨a', ha', h⟩ := h
      exact Option.some.inj ha' ▸ h

/-- A response that did not arrive with status 200 is answered with an error. -/
theorem genuine_ok_iff {r : OAuthHttpResult} {result : Result} {p : ExchangeProg Result}
    (herror : errorCode result ≠ "") :
    Genuine errorCode HasSubject token user (endedFrom n
        (if r.transportOk = false ∨ r.statusCode ≠ 200 then callback result else p) token user) ↔
      (isOk r → Genuine errorCode HasSubject token user (endedFrom n p token user)) := by
  by_cases hok : isOk r
  · have hpasses : ¬(r.transportOk = false ∨ r.statusCode ≠ 200) := by
      simp [hok.1, hok.2]
    simp only [if_neg hpasses, hok, forall_const]
  · have hrefused : r.transportOk = false ∨ r.statusCode ≠ 200 := by
      rw [← Bool.not_eq_true, ← not_and_or]
      exact hok
    simp only [if_pos hrefused, hok, false_implies, iff_true]
    exact genuine_error herror

/-- The step that Google and GitHub share: without an access token an error is answered, and one
that is no string throws. -/
theorem genuine_accessToken_iff {body : Value} {result : Result}
    {k : String → ExchangeProg Result} {P : Prop} (herror : errorCode result ≠ "")
    (hk : ∀ accessToken,
      Genuine errorCode HasSubject token user (endedFrom n (k accessToken) token user) ↔ P) :
    Genuine errorCode HasSubject token user (endedFrom n
        (reading (body.isMember "access_token") fun isMember =>
          if isMember = false then callback result
          else reading (body.stringAt "access_token") k) token user) ↔
      body.Textual ["access_token"] ∧ (HasToken body → P) := by
  rw [genuine_reading_iff, Value.textual_cons_iff, List.forall_mem_singleton, HasToken]
  cases hmember : body.isMember "access_token" with
  | none =>
    have hthrows : body.stringAt "access_token" = none := by
      rw [Value.stringAt, Value.index_eq_none_iff.mpr (Value.isMember_eq_none_iff.mp hmember)]
      rfl
    simp [hthrows]
  | some isMember =>
    cases isMember with
    | false =>
      have hempty := Value.stringAt_of_not_member hmember
      simp [hempty, genuine_error herror]
    | true =>
      simp only [Option.some.injEq, exists_eq_left', Bool.true_eq_false, if_false,
        genuine_reading_iff, hk, forall_const, exists_and_right]

end Ends

/-! ### Google -/

variable {body : Value} {token user : Upstream}

theorem google_readProfile_iff :
    (∃ profile, GoogleAuthService.readProfile body = some profile ∧ profile.sub ≠ "") ↔
      body.Textual ["sub", "name", "email", "picture"] ∧ body.stringAt "sub" ≠ some "" := by
  simp only [GoogleAuthService.readProfile, Value.getString_eq_stringAt, Value.textual_cons_iff,
    List.forall_mem_cons, Option.bind_eq_bind, Option.bind_eq_some_iff, Option.pure_def,
    Option.some.injEq]
  constructor
  · intro h
    obtain ⟨profile, ⟨sub, hsub, name, hname, email, hemail, picture, hpicture, rfl⟩, hne⟩ := h
    refine ⟨⟨⟨_, hsub⟩, ⟨_, hname⟩, ⟨_, hemail⟩, ⟨_, hpicture⟩, nofun⟩, ?_⟩
    rw [hsub]
    simpa using hne
  · intro h
    obtain ⟨⟨⟨sub, hsub⟩, ⟨name, hname⟩, ⟨email, hemail⟩, ⟨picture, hpicture⟩, -⟩, hne⟩ := h
    refine ⟨_, ⟨sub, hsub, name, hname, email, hemail, picture, hpicture, rfl⟩, ?_⟩
    rw [hsub] at hne
    simpa using hne

theorem google_onUserInfo_iff (htoken : Arrived token) :
    GenuineGoogle token user
        (endedFrom 2 (GoogleAuthService.onUserInfo (oauthHttpResult user)) token user) ↔
      ((oauthHttpResult user).transportOk = true → GoogleUser (oauthHttpResult user)) := by
  unfold GoogleAuthService.onUserInfo GenuineGoogle
  cases htransport : (oauthHttpResult user).transportOk with
  | false =>
    rw [if_pos rfl]
    exact iff_of_true (genuine_error (by decide)) nofun
  | true =>
    rw [if_neg (by decide), genuine_reading_iff]
    simp only [genuine_callback_iff, forall_const]
    constructor
    · intro h
      obtain ⟨profile, hread, -, harrived, hsub⟩ := h
      obtain ⟨htextual, hsubject⟩ := google_readProfile_iff.mp ⟨profile, hread, hsub⟩
      exact ⟨harrived.2, htextual, hsubject⟩
    · intro h
      obtain ⟨profile, hread, hsub⟩ := google_readProfile_iff.mpr ⟨h.textual, h.subject⟩
      exact ⟨profile, hread, htoken, ⟨htransport, h.status⟩, hsub⟩

theorem google_onToken_iff :
    GenuineGoogle token user
        (endedFrom 1 (GoogleAuthService.onToken (oauthHttpResult token)) token user) ↔
      GoogleMeets (oauthHttpResult token) (oauthHttpResult user) := by
  unfold GoogleAuthService.onToken GoogleMeets GenuineGoogle
  rw [genuine_ok_iff (by decide)]
  apply forall_congr'
  intro harrived
  apply genuine_accessToken_iff (by decide)
  intro accessToken
  exact google_onUserInfo_iff harrived

theorem google_login_iff (service : GoogleAuthService) (code : String) :
    GenuineGoogle token user (ended (service.login code) token user) ↔
      (service.hasHttpClient = true →
        GoogleMeets (oauthHttpResult token) (oauthHttpResult user)) := by
  unfold GoogleAuthService.login ended
  cases service.hasHttpClient with
  | false => exact iff_of_true (genuine_error (by decide)) nofun
  | true =>
    simp only [Bool.true_eq_false, if_false, endedFrom_token, forall_const]
    exact google_onToken_iff

/-! ### WeChat -/

theorem wechat_readProfile_iff :
    (∃ profile, WeChatAuthService.readProfile body = some profile ∧ profile.openid ≠ "") ↔
      body.Textual ["openid", "nickname", "headimgurl", "city", "province", "country"] ∧
        (body.get "sex" (.int 0)).bind Value.asInt ≠ none ∧
          body.stringAt "openid" ≠ some "" := by
  simp only [WeChatAuthService.readProfile, Value.getString_eq_stringAt, Value.textual_cons_iff,
    List.forall_mem_cons, Option.bind_eq_bind, Option.bind_eq_some_iff, Option.pure_def,
    Option.some.injEq, Option.ne_none_iff_exists']
  constructor
  · intro h
    obtain ⟨profile, ⟨openid, hopenid, nickname, hnickname, headimgurl, hheadimgurl, member,
      hmember, sex, hsex, city, hcity, province, hprovince, country, hcountry, rfl⟩, hne⟩ := h
    refine ⟨⟨⟨_, hopenid⟩, ⟨_, hnickname⟩, ⟨_, hheadimgurl⟩, ⟨_, hcity⟩, ⟨_, hprovince⟩,
      ⟨_, hcountry⟩, nofun⟩, ⟨sex, member, hmember, hsex⟩, ?_⟩
    rw [hopenid]
    simpa using hne
  · intro h
    obtain ⟨⟨⟨openid, hopenid⟩, ⟨nickname, hnickname⟩, ⟨headimgurl, hheadimgurl⟩, ⟨city, hcity⟩,
      ⟨province, hprovince⟩, ⟨country, hcountry⟩, -⟩, ⟨sex, member, hmember, hsex⟩, hne⟩ := h
    refine ⟨_, ⟨openid, hopenid, nickname, hnickname, headimgurl, hheadimgurl, member, hmember,
      sex, hsex, city, hcity, province, hprovince, country, hcountry, rfl⟩, ?_⟩
    rw [hopenid] at hne
    simpa using hne

theorem wechat_onUserInfo_iff (htoken : Arrived token) :
    GenuineWeChat token user
        (endedFrom 2 (WeChatAuthService.onUserInfo (oauthHttpResult user)) token user) ↔
      ((oauthHttpResult user).transportOk = true → WeChatUser (oauthHttpResult user)) := by
  unfold WeChatAuthService.onUserInfo GenuineWeChat
  cases htransport : (oauthHttpResult user).transportOk with
  | false =>
    rw [if_pos rfl]
    exact iff_of_true (genuine_error (by decide)) nofun
  | true =>
    rw [if_neg (by decide), genuine_reading_iff]
    simp only [genuine_callback_iff, forall_const]
    constructor
    · intro h
      obtain ⟨profile, hread, -, harrived, hopenid⟩ := h
      obtain ⟨htextual, hsex, hsubject⟩ := wechat_readProfile_iff.mp ⟨profile, hread, hopenid⟩
      exact ⟨harrived.2, htextual, hsex, hsubject⟩
    · intro h
      obtain ⟨profile, hread, hopenid⟩ :=
        wechat_readProfile_iff.mpr ⟨h.textual, h.sex, h.subject⟩
      exact ⟨profile, hread, htoken, ⟨htransport, h.status⟩, hopenid⟩

theorem wechat_hasError_eq :
    WeChatAuthService.hasError body = (errcode body).map fun n => decide (n ≠ 0) := by
  unfold WeChatAuthService.hasError errcode
  cases hmembers : body.members with
  | none => simp [Value.isMember, Value.index, hmembers]
  | some members =>
    cases hlookup : members.lookup "errcode" with
    | none => simp [Value.isMember, Value.index, hmembers, hlookup, Value.asInt, Value.asIntIn]
    | some member =>
      cases hint : member.asInt <;> simp [Value.isMember, Value.index, hmembers, hlookup, hint]

theorem wechat_onToken_iff :
    GenuineWeChat token user
        (endedFrom 1 (WeChatAuthService.onToken (oauthHttpResult token)) token user) ↔
      WeChatMeets (oauthHttpResult token) (oauthHttpResult user) := by
  unfold WeChatAuthService.onToken WeChatMeets GenuineWeChat
  rw [genuine_ok_iff (by decide)]
  apply forall_congr'
  intro harrived
  rw [genuine_reading_iff, wechat_hasError_eq]
  cases hread : errcode (oauthHttpResult token).body with
  | none => simp
  | some n =>
    simp only [Option.map_some, Option.some.injEq, exists_eq_left', ne_eq, reduceCtorEq,
      not_false_eq_true, true_and, decide_eq_true_eq]
    by_cases hzero : n = 0
    · simp only [hzero, not_true_eq_false, if_false, forall_const, genuine_reading_iff,
        endedFrom_user, Value.textual_cons_iff, List.forall_mem_cons]
      constructor
      · intro h
        obtain ⟨accessToken, haccess, openid, hopenid, huser⟩ := h
        exact ⟨⟨⟨_, haccess⟩, ⟨_, hopenid⟩, nofun⟩, (wechat_onUserInfo_iff harrived).mp huser⟩
      · intro h
        obtain ⟨⟨⟨accessToken, haccess⟩, ⟨openid, hopenid⟩, -⟩, huser⟩ := h
        exact ⟨accessToken, haccess, openid, hopenid, (wechat_onUserInfo_iff harrived).mpr huser⟩
    · simp only [hzero, not_false_eq_true, if_true, false_implies, iff_true]
      exact genuine_error (by decide)

theorem wechat_login_iff (service : WeChatAuthService) (code : String) :
    GenuineWeChat token user (ended (service.login code) token user) ↔
      (service.hasHttpClient = true →
        WeChatMeets (oauthHttpResult token) (oauthHttpResult user)) := by
  unfold WeChatAuthService.login ended
  cases service.hasHttpClient with
  | false => exact iff_of_true (genuine_error (by decide)) nofun
  | true =>
    simp only [Bool.true_eq_false, if_false, endedFrom_token, forall_const]
    exact wechat_onToken_iff

/-! ### GitHub -/

theorem github_readProfile_iff :
    (∃ profile, GitHubAuthService.readProfile body = some profile) ↔
      body.Textual ["login", "email"] ∧
        (body.get "id" (.int 0)).bind Value.asInt64 ≠ none := by
  simp only [GitHubAuthService.readProfile, Value.getString_eq_stringAt, Value.textual_cons_iff,
    List.forall_mem_cons, Option.bind_eq_bind, Option.bind_eq_some_iff, Option.pure_def,
    Option.some.injEq, Option.ne_none_iff_exists']
  constructor
  · intro h
    obtain ⟨profile, login, hlogin, email, hemail, member, hmember, githubId, hgithubId, -⟩ := h
    exact ⟨⟨⟨_, hlogin⟩, ⟨_, hemail⟩, nofun⟩, githubId, member, hmember, hgithubId⟩
  · intro h
    obtain ⟨⟨⟨login, hlogin⟩, ⟨email, hemail⟩, -⟩, githubId, member, hmember, hgithubId⟩ := h
    exact ⟨_, login, hlogin, email, hemail, member, hmember, githubId, hgithubId, rfl⟩

theorem github_onUserInfo_iff (htoken : Arrived token) :
    GenuineGitHub token user
        (endedFrom 2 (GitHubAuthService.onUserInfo (oauthHttpResult user)) token user) ↔
      (isOk (oauthHttpResult user) → GitHubUser (oauthHttpResult user)) := by
  unfold GitHubAuthService.onUserInfo GenuineGitHub
  rw [genuine_ok_iff (by decide)]
  apply forall_congr'
  intro harrived
  rw [genuine_reading_iff]
  constructor
  · intro h
    obtain ⟨profile, hread, -⟩ := h
    obtain ⟨htextual, hid⟩ := github_readProfile_iff.mp ⟨profile, hread⟩
    exact ⟨htextual, hid⟩
  · intro h
    obtain ⟨profile, hread⟩ := github_readProfile_iff.mpr ⟨h.textual, h.id⟩
    refine ⟨profile, hread, ?_⟩
    split
    · exact genuine_error (by decide)
    · rename_i haccepted
      rw [genuine_callback_iff]
      intro _
      exact ⟨htoken, harrived, by omega⟩

theorem github_onToken_iff :
    GenuineGitHub token user
        (endedFrom 1 (GitHubAuthService.onToken (oauthHttpResult token)) token user) ↔
      GitHubMeets (oauthHttpResult token) (oauthHttpResult user) := by
  unfold GitHubAuthService.onToken GitHubMeets GenuineGitHub
  rw [genuine_ok_iff (by decide)]
  apply forall_congr'
  intro harrived
  apply genuine_accessToken_iff (by decide)
  intro accessToken
  exact github_onUserInfo_iff harrived

theorem github_fetchProfile_iff (service : GitHubAuthService) (code : String) :
    GenuineGitHub token user (ended (service.fetchProfile code) token user) ↔
      (service.hasHttpClient = true →
        GitHubMeets (oauthHttpResult token) (oauthHttpResult user)) := by
  unfold GitHubAuthService.fetchProfile ended
  cases service.hasHttpClient with
  | false => exact iff_of_true (genuine_error (by decide)) nofun
  | true =>
    simp only [Bool.true_eq_false, if_false, endedFrom_token, forall_const]
    exact github_onToken_iff

/-! ### All three -/

/-- Each login ends in one genuine result exactly when its provider's condition holds of the two
responses. -/
theorem exchanges_genuine_iff (google : GoogleAuthService) (wechat : WeChatAuthService)
    (github : GitHubAuthService) (code : String) (token user : Upstream) :
    (GenuineGoogle token user (ended (google.login code) token user) ↔
      (google.hasHttpClient = true →
        GoogleMeets (oauthHttpResult token) (oauthHttpResult user))) ∧
    (GenuineWeChat token user (ended (wechat.login code) token user) ↔
      (wechat.hasHttpClient = true →
        WeChatMeets (oauthHttpResult token) (oauthHttpResult user))) ∧
    (GenuineGitHub token user (ended (github.fetchProfile code) token user) ↔
      (github.hasHttpClient = true →
        GitHubMeets (oauthHttpResult token) (oauthHttpResult user))) :=
  ⟨google_login_iff google code, wechat_login_iff wechat code, github_fetchProfile_iff github code⟩

def knownToken : Upstream :=
  .completed true (some (200, some (.object [("access_token", .string "t")])))

/-- The token is not accepted. -/
def knownRefusal : Upstream :=
  .completed true (some (401, some (.object [("error", .string "invalid_token")])))

def knownArray : Upstream := .completed true (some (200, some (.array [])))

/-- A refused user-info request is reported as success without a subject, and a JSON array in place
of the token response throws. -/
theorem refusal_reported_as_success :
    (ended (GoogleAuthService.login ⟨true, "id", "secret", "uri"⟩ "code") knownToken
        knownRefusal).answers = [{ errorCode := "", profile := {} }] ∧
    (ended (GitHubAuthService.fetchProfile ⟨true, "id", "secret"⟩ "code") knownArray
        knownRefusal).escaped = true ∧
    ¬GenuineGoogle knownToken knownRefusal
        (ended (GoogleAuthService.login ⟨true, "id", "secret", "uri"⟩ "code") knownToken
          knownRefusal) ∧
    ¬GenuineGitHub knownArray knownRefusal
        (ended (GitHubAuthService.fetchProfile ⟨true, "id", "secret"⟩ "code") knownArray
          knownRefusal) := by
  refine ⟨rfl, rfl, ?_, ?_⟩
  · intro h
    exact (h.genuine _ (List.mem_singleton_self _) rfl).2.2 rfl
  · intro h
    cases h.contained

end AuthForge.GenuineProfile
