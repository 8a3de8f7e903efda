import AuthForge.Base.JsValue

/-!
# The error adapter of the frontends

`normalizeError` turns what a failed request was rejected with into a code, a message, a request
identifier and a status. Both frontends have a copy of the module and of its catalog. The catalog is
a plain object, so a locale or a code may name an inherited property.
-/

namespace AuthForge.Spa

/-- Two entries a locale table has in any case. -/
def UNKNOWN_CODE : String := "__unknown__"

def NETWORK_CODE : String := "__network__"

def DEFAULT_LOCALE : String := "zh-CN"

def RATE_LIMITED_CODE : String := "VALIDATION_RATE_LIMITED"

def NORMALIZED_BRAND : String := "__isNormalizedError__"

/-! ### Messages -/

/-- What `messages[locale]` is: the catalog, a function that every object inherits, or the prototype
of all objects. -/
inductive LocaleTable
  | catalog
  | function (name : String)
  | objectPrototype

/-- The functions that every object inherits, with their names. -/
def inheritedFunctions : List (String × String) :=
  [("constructor", "Object"), ("hasOwnProperty", "hasOwnProperty"),
   ("isPrototypeOf", "isPrototypeOf"), ("propertyIsEnumerable", "propertyIsEnumerable"),
   ("toLocaleString", "toLocaleString"), ("toString", "toString"), ("valueOf", "valueOf"),
   ("__defineGetter__", "__defineGetter__"), ("__defineSetter__", "__defineSetter__"),
   ("__lookupGetter__", "__lookupGetter__"), ("__lookupSetter__", "__lookupSetter__")]

/-- `messages[locale] ?? messages[DEFAULT_LOCALE]`. -/
def localeTable (locale : String) : LocaleTable :=
  if locale = "__proto__" then .objectPrototype
  else
    match inheritedFunctions.lookup locale with
    | some name => .function name
    | none => .catalog

/-- `table?.[code]` where it is a string; reading `caller` or `arguments` of a function throws. -/
def LocaleTable.direct (zhCN : List (String × String)) (table : LocaleTable) (code : String) :
    Option (Option String) :=
  match table with
  | .catalog => some (zhCN.lookup code)
  | .function name =>
    if code = "caller" ∨ code = "arguments" then none
    else if code = "name" then some (some name)
    else some none
  | .objectPrototype => some none

/-- `none` is an exception. -/
def getErrorMessage (zhCN : List (String × String)) (code locale : String) : Option String :=
  ((localeTable locale).direct zhCN code).map fun direct =>
    match direct.filter (· ≠ "") with
    | some message => message
    | none =>
      match (zhCN.lookup UNKNOWN_CODE).filter (· ≠ "") with
      | some message => message
      | none => "发生未知错误，请稍后重试"

/-! ### Normalization -/

def normalized (code message requestId : String) (httpStatus : Rat) : Js :=
  .object [("code", .string code), ("message", .string message),
    ("request_id", .string requestId), ("httpStatus", .number httpStatus)]

def isNormalizedError (value : Js) : Bool := (value.get NORMALIZED_BRAND).isTrue

/-- Non-enumerable in the source; a read finds it all the same. -/
def brand (n : Js) : Js :=
  match n with
  | .object members => .object (members ++ [(NORMALIZED_BRAND, .boolean true)])
  | v => v

def isRateLimitBody (data : Js) : Bool := (data.get "error").text? = some "invalid_request"

/-- The non-empty string among the candidates that comes first. -/
def firstText (candidates : List Js) : String := (candidates.findSome? Js.text?).getD ""

/-- What the answer says: its code, its request identifier and its status. -/
def readResponse (response : Js) : String × String × Rat :=
  let httpStatus := (response.get "status").number?.getD 0
  let data := response.get "data"
  if httpStatus = 429 ∧ isRateLimitBody data then
    (RATE_LIMITED_CODE, firstText [data.get "request_id"], httpStatus)
  else if data.isObject then
    let envelopeError := data.get "error"
    match (envelopeError.get "code").text? with
    | some code =>
      (code, firstText [envelopeError.get "request_id", data.get "request_id"], httpStatus)
    | none =>
      match envelopeError.text? with
      | some code => (code, firstText [data.get "request_id"], httpStatus)
      | none => (UNKNOWN_CODE, firstText [data.get "request_id"], httpStatus)
  else (UNKNOWN_CODE, "", httpStatus)

def localeOf (locale : Option String) : String := (locale.filter (· ≠ "")).getD DEFAULT_LOCALE

/-- The adapter over the catalog of a frontend; `none` is an exception. -/
def normalizeErrorOver (zhCN : List (String × String)) (err : Js) (locale : Option String) :
    Option Js :=
  if isNormalizedError err then some err
  else
    let loc := localeOf locale
    let response := err.get "response"
    if response.isObject then
      let (code, requestId, httpStatus) := readResponse response
      (getErrorMessage zhCN code loc).map fun message =>
        normalized code message requestId httpStatus
    else
      (getErrorMessage zhCN NETWORK_CODE loc).map fun message => normalized NETWORK_CODE message "" 0

def SESSION_EXPIRED_CODE : String := "AUTH_TOKEN_EXPIRED"

def sessionExpiredErrorOver (zhCN : List (String × String)) (locale : Option String) : Option Js :=
  (getErrorMessage zhCN SESSION_EXPIRED_CODE (localeOf locale)).map fun message =>
    brand (normalized SESSION_EXPIRED_CODE message "" 401)

/-! ### What the parts answer -/

section Parts

variable {zhCN : List (String × String)} {code locale message : String}

theorem getErrorMessage_ne_empty (h : getErrorMessage zhCN code locale = some message) :
    message ≠ "" := by
  have hfilter : ∀ {o : Option String} {m : String}, o.filter (· ≠ "") = some m → m ≠ "" := by
    intro o m hm
    simpa using (Option.filter_eq_some_iff.mp hm).2
  obtain ⟨direct, -, rfl⟩ := Option.map_eq_some_iff.mp h
  split
  · rename_i hdirect
    exact hfilter hdirect
  · split
    · rename_i hunknown
      exact hfilter hunknown
    · decide

/-- Only `caller` and `arguments` of a function throw. -/
theorem getErrorMessage_isSome (zhCN : List (String × String)) (locale : String)
    (hcaller : code ≠ "caller") (harguments : code ≠ "arguments") :
    ∃ message, getErrorMessage zhCN code locale = some message := by
  have hread : ∃ direct, (localeTable locale).direct zhCN code = some direct := by
    unfold LocaleTable.direct
    cases localeTable locale with
    | catalog => exact ⟨_, rfl⟩
    | function name =>
      dsimp only
      rw [if_neg (not_or.mpr ⟨hcaller, harguments⟩)]
      split
      · exact ⟨_, rfl⟩
      · exact ⟨_, rfl⟩
    | objectPrototype => exact ⟨_, rfl⟩
  obtain ⟨direct, hdirect⟩ := hread
  rw [getErrorMessage, hdirect]
  exact ⟨_, rfl⟩

theorem firstText_eq_empty_iff (candidates : List Js) :
    firstText candidates = "" ↔ ∀ v ∈ candidates, v.text? = none := by
  unfold firstText
  cases hfirst : candidates.findSome? Js.text? with
  | none => exact iff_of_true rfl (List.findSome?_eq_none_iff.mp hfirst)
  | some text =>
    obtain ⟨v, hmem, hv⟩ := List.exists_of_findSome?_eq_some hfirst
    refine iff_of_false (Js.text?_eq_some_iff.mp hv).2 ?_
    intro hnone
    rw [hnone v hmem] at hv
    cases hv

theorem isNormalizedError_normalized (requestId : String) (httpStatus : Rat) :
    isNormalizedError (normalized code message requestId httpStatus) = false := rfl

/-- A result has no response. -/
theorem normalizeErrorOver_normalized (requestId : String) (httpStatus : Rat)
    (loc : Option String) :
    normalizeErrorOver zhCN (normalized code message requestId httpStatus) loc =
      (getErrorMessage zhCN NETWORK_CODE (localeOf loc)).map fun message =>
        normalized NETWORK_CODE message "" 0 := rfl

end Parts

/-! ### The two frontends -/

namespace UserFrontend

def zhCN : List (String × String) :=
  [("__unknown__", "发生未知错误，请稍后重试"),
   ("__network__", "网络连接失败，请检查网络后重试"),
   ("NET_CONNECTION_FAILED", "上游连接失败"),
   ("NET_TIMEOUT", "请求超时"),
   ("DB_CONNECTION_ERROR", "服务暂时不可用"),
   ("DB_QUERY_ERROR", "服务暂时不可用"),
   ("DB_CONSTRAINT_VIOLATION", "数据冲突"),
   ("VALIDATION_INVALID_INPUT", "输入参数有误"),
   ("VALIDATION_MISSING_REQUIRED_FIELD", "缺少必填字段"),
   ("VALIDATION_FORMAT_ERROR", "格式不正确"),
   ("VALIDATION_RESOURCE_NOT_FOUND", "资源不存在"),
   ("VALIDATION_RESOURCE_CONFLICT", "资源已存在或冲突"),
   ("AUTH_INVALID_CREDENTIALS", "用户名或密码错误"),
   ("AUTH_TOKEN_EXPIRED", "登录已过期"),
   ("AUTH_TOKEN_INVALID", "登录凭证无效"),
   ("AUTHZ_ACCESS_DENIED", "没有访问权限"),
   ("AUTHZ_INSUFFICIENT_PERMISSIONS", "权限不足"),
   ("INTERNAL_ERROR", "服务器内部错误"),
   ("VALIDATION_USERNAME_TAKEN", "该用户名已被注册"),
   ("VALIDATION_EMAIL_TAKEN", "该邮箱已被注册"),
   ("VALIDATION_CREDENTIAL_ALREADY_REGISTERED", "该安全密钥已注册，无需重复添加"),
   ("VALIDATION_RESET_TOKEN_INVALID", "重置链接已失效，请重新申请"),
   ("VALIDATION_VERIFICATION_TOKEN_INVALID", "验证链接已失效，请重新发送邮件"),
   ("VALIDATION_DEVICE_CODE_INVALID", "设备码无效、已过期或已被处理"),
   ("VALIDATION_RATE_LIMITED", "请求过于频繁，请稍后重试"),
   ("AUTH_MFA_CODE_INVALID", "验证码不正确"),
   ("AUTH_MFA_NOT_CONFIGURED", "尚未设置双重验证，请先完成设置"),
   ("invalid_request", "请求参数缺失或无效"),
   ("invalid_client", "客户端认证失败"),
   ("invalid_grant", "授权许可无效或已过期"),
   ("unauthorized_client", "客户端无权使用该授权类型"),
   ("unsupported_grant_type", "不支持的授权类型"),
   ("invalid_scope", "请求的 scope 无效"),
   ("server_error", "服务器内部错误"),
   ("temporarily_unavailable", "服务暂时不可用"),
   ("access_denied", "授权请求被拒绝"),
   ("unsupported_token_type", "不支持的令牌类型"),
   ("authorization_pending", "授权尚未完成，请稍后重试"),
   ("slow_down", "轮询过于频繁，请降低频率"),
   ("expired_token", "设备码已过期，请重新发起授权"),
   ("invalid_token", "提供的访问令牌无效或已过期"),
   ("insufficient_scope", "权限不足，缺少所需的 scope"),
   ("login_required", "需要重新登录以完成授权"),
   ("consent_required", "需要用户同意才能完成授权"),
   ("interaction_required", "需要用户交互才能完成授权")]

def normalizeError (err : Js) (locale : Option String) : Option Js :=
  normalizeErrorOver zhCN err locale

def sessionExpiredError (locale : Option String) : Option Js := sessionExpiredErrorOver zhCN locale

end UserFrontend

namespace AdminFrontend

def zhCN : List (String × String) :=
  [("__unknown__", "发生未知错误，请稍后重试"),
   ("__network__", "网络连接失败，请检查网络后重试"),
   ("NET_CONNECTION_FAILED", "上游连接失败"),
   ("NET_TIMEOUT", "请求超时"),
   ("DB_CONNECTION_ERROR", "服务暂时不可用"),
   ("DB_QUERY_ERROR", "服务暂时不可用"),
   ("DB_CONSTRAINT_VIOLATION", "数据冲突"),
   ("VALIDATION_INVALID_INPUT", "输入参数有误"),
   ("VALIDATION_MISSING_REQUIRED_FIELD", "缺少必填字段"),
   ("VALIDATION_FORMAT_ERROR", "格式不正确"),
   ("VALIDATION_RESOURCE_NOT_FOUND", "资源不存在"),
   ("VALIDATION_RESOURCE_CONFLICT", "资源已存在或冲突"),
   ("AUTH_INVALID_CREDENTIALS", "用户名或密码错误"),
   ("AUTH_TOKEN_EXPIRED", "登录已过期"),
   ("AUTH_TOKEN_INVALID", "登录凭证无效"),
   ("AUTHZ_ACCESS_DENIED", "没有访问权限"),
   ("AUTHZ_INSUFFICIENT_PERMISSIONS", "权限不足"),
   ("INTERNAL_ERROR", "服务器内部错误"),
   ("VALIDATION_USERNAME_TAKEN", "该用户名已被注册"),
   ("VALIDATION_EMAIL_TAKEN", "该邮箱已被注册"),
   ("VALIDATION_CREDENTIAL_ALREADY_REGISTERED", "该安全密钥已注册，无需重复添加"),
   ("VALIDATION_RESET_TOKEN_INVALID", "重置链接已失效，请重新申请"),
   ("VALIDATION_VERIFICATION_TOKEN_INVALID", "验证链接已失效，请重新发送邮件"),
   ("VALIDATION_DEVICE_CODE_INVALID", "设备码无效、已过期或已被处理"),
   ("VALIDATION_RATE_LIMITED", "请求过于频繁，请稍后重试"),
   ("AUTH_MFA_CODE_INVALID", "验证码不正确"),
   ("AUTH_MFA_NOT_CONFIGURED", "尚未设置双重验证，请先完成设置"),
   ("invalid_request", "请求参数缺失或无效"),
   ("invalid_client", "客户端认证失败"),
   ("invalid_grant", "授权许可无效或已过期"),
   ("unauthorized_client", "客户端无权使用该授权类型"),
   ("unsupported_grant_type", "不支持的授权类型"),
   ("invalid_scope", "请求的 scope 无效"),
   ("server_error", "服务器内部错误"),
   ("temporarily_unavailable", "服务暂时不可用"),
   ("access_denied", "授权请求被拒绝"),
   ("unsupported_token_type", "不支持的令牌类型"),
   ("authorization_pending", "授权尚未完成，请稍后重试"),
   ("slow_down", "轮询过于频繁，请降低频率"),
   ("expired_token", "设备码已过期，请重新发起授权"),
   ("invalid_token", "提供的访问令牌无效或已过期"),
   ("insufficient_scope", "权限不足，缺少所需的 scope"),
   ("login_required", "需要重新登录以完成授权"),
   ("consent_required", "需要用户同意才能完成授权"),
   ("interaction_required", "需要用户交互才能完成授权")]

def normalizeError (err : Js) (locale : Option String) : Option Js :=
  normalizeErrorOver zhCN err locale

def sessionExpiredError (locale : Option String) : Option Js := sessionExpiredErrorOver zhCN locale

end AdminFrontend

end AuthForge.Spa
