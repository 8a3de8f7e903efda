import AuthForge.Base.Jsoncpp
import AuthForge.Base.Prog

/-!
# Exchanging a code with a social provider

`GoogleAuthService::login`, `WeChatAuthService::login` and `GitHubAuthService::fetchProfile`: the
code is exchanged for an access token, and the token for the user's profile. Both answers come from
outside, and nothing on the way catches what reading them throws.
-/

namespace AuthForge.Identity.SocialExchange

open Jsoncpp

/-! ### The HTTP client -/

structure OAuthHttpResult where
  transportOk : Bool := false
  statusCode : Int := 0
  body : Value := .null

/-- What becomes of a request of `DrogonOAuthHttpClient`: setting it up throws, or it completes with
or without a response, which has a status and perhaps a JSON body. -/
inductive Upstream
  | setupThrows
  | completed (ok : Bool) (response : Option (Int × Option Value))

def oauthHttpResult : Upstream → OAuthHttpResult
  | .setupThrows => {}
  | .completed _ none => {}
  | .completed ok (some (statusCode, json)) =>
    { transportOk := ok, statusCode, body := json.getD .null }

inductive HttpCall
  | postForm (url : String) (params : List (String × String))
  | getWithBearerToken (url bearerToken : String)

/-- How a login ends: the results its callback was invoked with, and whether an exception escaped
from the callback of a HTTP call. -/
structure Ended (Result : Type) where
  answers : List Result := []
  escaped : Bool := false

abbrev ExchangeProg (Result : Type) := Prog HttpCall (fun _ => OAuthHttpResult) (Ended Result)

def callback {Result : Type} (result : Result) : ExchangeProg Result :=
  .ret { answers := [result] }

/-- Go on with what was read, if reading it does not throw. -/
def reading {α Result : Type} (read : Option α) (k : α → ExchangeProg Result) :
    ExchangeProg Result :=
  match read with
  | none => .ret { escaped := true }
  | some a => k a

/-- The end of a login that has sent `n` requests, with the answers to the first and the second. -/
def endedFrom {Result : Type} (n : Nat) (p : ExchangeProg Result) (token user : Upstream) :
    Ended Result :=
  (p.eval (fun upstream _ s => (oauthHttpResult upstream, s))
    (fun n => if n = 0 then token else user) n ()).1

def ended {Result : Type} (login : ExchangeProg Result) (token user : Upstream) : Ended Result :=
  endedFrom 0 login token user

/-! ### Google -/

structure GoogleUserInfo where
  sub : String := ""
  name : String := ""
  email : String := ""
  picture : String := ""

structure GoogleLoginResult where
  errorCode : String := ""
  profile : GoogleUserInfo := {}

structure GoogleAuthService where
  hasHttpClient : Bool
  clientId : String
  clientSecret : String
  redirectUri : String

namespace GoogleAuthService

def readProfile (body : Value) : Option GoogleUserInfo := do
  let sub ← body.getString "sub"
  let name ← body.getString "name"
  let email ← body.getString "email"
  let picture ← body.getString "picture"
  return { sub, name, email, picture }

/-- The status of this answer is not looked at. -/
def onUserInfo (userResp : OAuthHttpResult) : ExchangeProg GoogleLoginResult :=
  if userResp.transportOk = false then callback { errorCode := "NET_CONNECTION_FAILED" }
  else reading (readProfile userResp.body) fun profile => callback { profile }

def onToken (tokenResp : OAuthHttpResult) : ExchangeProg GoogleLoginResult :=
  if tokenResp.transportOk = false ∨ tokenResp.statusCode ≠ 200 then
    callback { errorCode := "NET_CONNECTION_FAILED" }
  else
    reading (tokenResp.body.isMember "access_token") fun isMember =>
      if isMember = false then callback { errorCode := "VALIDATION_INVALID_INPUT" }
      else
        reading (tokenResp.body.stringAt "access_token") fun accessToken =>
          .call (.getWithBearerToken "https://www.googleapis.com/oauth2/v3/userinfo" accessToken)
            onUserInfo

def login (service : GoogleAuthService) (code : String) : ExchangeProg GoogleLoginResult :=
  if service.hasHttpClient = false then callback { errorCode := "NET_CONNECTION_FAILED" }
  else
    .call (.postForm "https://oauth2.googleapis.com/token"
      [("code", code), ("client_id", service.clientId), ("client_secret", service.clientSecret),
        ("redirect_uri", service.redirectUri), ("grant_type", "authorization_code")]) onToken

end GoogleAuthService

/-! ### WeChat -/

structure WeChatUserInfo where
  openid : String := ""
  nickname : String := ""
  headimgurl : String := ""
  sex : Int := 0
  city : String := ""
  province : String := ""
  country : String := ""

structure WeChatLoginResult where
  errorCode : String := ""
  profile : WeChatUserInfo := {}

structure WeChatAuthService where
  hasHttpClient : Bool
  appId : String
  secret : String

namespace WeChatAuthService

def readProfile (body : Value) : Option WeChatUserInfo := do
  let openid ← body.getString "openid"
  let nickname ← body.getString "nickname"
  let headimgurl ← body.getString "headimgurl"
  let sex ← (← body.get "sex" (.int 0)).asInt
  let city ← body.getString "city"
  let province ← body.getString "province"
  let country ← body.getString "country"
  return { openid, nickname, headimgurl, sex, city, province, country }

def onUserInfo (userResp : OAuthHttpResult) : ExchangeProg WeChatLoginResult :=
  if userResp.transportOk = false then callback { errorCode := "NET_CONNECTION_FAILED" }
  else reading (readProfile userResp.body) fun profile => callback { profile }

/-- `body.isMember("errcode") && body["errcode"].asInt() != 0`. -/
def hasError (body : Value) : Option Bool := do
  if ← body.isMember "errcode" then
    let errcode ← (← body.index "errcode").asInt
    return errcode ≠ 0
  else return false

def onToken (tokenResp : OAuthHttpResult) : ExchangeProg WeChatLoginResult :=
  if tokenResp.transportOk = false ∨ tokenResp.statusCode ≠ 200 then
    callback { errorCode := "NET_CONNECTION_FAILED" }
  else
    reading (hasError tokenResp.body) fun hasError =>
      if hasError then callback { errorCode := "VALIDATION_INVALID_INPUT" }
      else
        reading (tokenResp.body.stringAt "access_token") fun accessToken =>
        reading (tokenResp.body.stringAt "openid") fun openid =>
          .call (.getWithBearerToken ("https://api.weixin.qq.com/sns/userinfo?access_token=" ++
            accessToken ++ "&openid=" ++ openid) "") onUserInfo

def login (service : WeChatAuthService) (code : String) : ExchangeProg WeChatLoginResult :=
  if service.hasHttpClient = false then callback { errorCode := "NET_CONNECTION_FAILED" }
  else
    .call (.getWithBearerToken ("https://api.weixin.qq.com/sns/oauth2/access_token?appid=" ++
      service.appId ++ "&secret=" ++ service.secret ++ "&code=" ++ code ++
      "&grant_type=authorization_code") "") onToken

end WeChatAuthService

/-! ### GitHub -/

structure GitHubProfileResult where
  errorCode : String := ""
  githubId : Int := 0
  login : String := ""
  email : String := ""

structure GitHubAuthService where
  hasHttpClient : Bool
  clientId : String
  clientSecret : String

namespace GitHubAuthService

def readProfile (body : Value) : Option GitHubProfileResult := do
  let login ← body.getString "login"
  let email ← body.getString "email"
  let githubId ← (← body.get "id" (.int 0)).asInt64
  return { githubId, login, email }

def onUserInfo (userResp : OAuthHttpResult) : ExchangeProg GitHubProfileResult :=
  if userResp.transportOk = false ∨ userResp.statusCode ≠ 200 then
    callback { errorCode := "NET_CONNECTION_FAILED" }
  else
    reading (readProfile userResp.body) fun profile =>
      if profile.login = "" ∨ profile.githubId ≤ 0 then
        callback { errorCode := "VALIDATION_INVALID_INPUT" }
      else callback profile

def onToken (tokenResp : OAuthHttpResult) : ExchangeProg GitHubProfileResult :=
  if tokenResp.transportOk = false ∨ tokenResp.statusCode ≠ 200 then
    callback { errorCode := "NET_CONNECTION_FAILED" }
  else
    reading (tokenResp.body.isMember "access_token") fun isMember =>
      if isMember = false then callback { errorCode := "VALIDATION_INVALID_INPUT" }
      else
        reading (tokenResp.body.stringAt "access_token") fun accessToken =>
          .call (.getWithBearerToken "https://api.github.com/user" accessToken) onUserInfo

def fetchProfile (service : GitHubAuthService) (code : String) :
    ExchangeProg GitHubProfileResult :=
  if service.hasHttpClient = false then callback { errorCode := "INTERNAL_ERROR" }
  else
    .call (.postForm "https://github.com/login/oauth/access_token"
      [("client_id", service.clientId), ("client_secret", service.clientSecret), ("code", code)])
      onToken

end GitHubAuthService

end AuthForge.Identity.SocialExchange
