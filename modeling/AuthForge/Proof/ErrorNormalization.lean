import AuthForge.Spa.ErrorAdapter

/-!
# Normalizing an error twice

A result of `normalizeError` has no response and no brand, so normalizing it again makes it an error
of the network. The second result is the first one only where the first already was that, or where
the value carried the brand to begin with; and what carries the brand is taken as it is.
-/

namespace AuthForge.Spa

/-! ### What is asked of the adapter -/

/-- The non-empty string `response.data.error.code` of an error. -/
def serverCode (e : Js) : Option String :=
  ((((e.get "response").get "data").get "error").get "code").text?

def fields : List String := ["code", "message", "request_id", "httpStatus"]

/-- Both frontends give one result, normalizing it again changes none of its fields, the message is
not empty, and the code is that of the server. -/
def NormalizesOnce (e : Js) (locale : Option String) : Prop :=
  ∃ r, UserFrontend.normalizeError e locale = some r ∧
    AdminFrontend.normalizeError e locale = some r ∧
    (∃ r', UserFrontend.normalizeError r locale = some r' ∧
      AdminFrontend.normalizeError r locale = some r' ∧ ∀ key ∈ fields, r'.get key = r.get key) ∧
    (∃ message, (r.get "message").text? = some message) ∧
    ∀ code, serverCode e = some code → r.get "code" = .string code

/-- The response has no status but 0, and its body says the code of network errors without a request
identifier. -/
def SaysNetwork (response : Js) : Prop :=
  (response.get "status").number?.getD 0 = 0 ∧
    ((response.get "data").get "request_id").text? = none ∧
    ((response.get "data").get "error" = .string NETWORK_CODE ∨
      ((response.get "data").get "error").get "code" = .string NETWORK_CODE ∧
        (((response.get "data").get "error").get "request_id").text? = none)

/-- An error with the brand has a message, and the code of the server if there is one; another has no
response, or one that says what a network error is normalized to. -/
def Normal (e : Js) : Prop :=
  isNormalizedError e = true ∧ (∃ message, (e.get "message").text? = some message) ∧
      (∀ code, serverCode e = some code → e.get "code" = .string code) ∨
    isNormalizedError e = false ∧
      ((e.get "response").isObject = false ∨ SaysNetwork (e.get "response"))

/-! ### One frontend -/

variable {e : Js} {locale : Option String} {code : String}

theorem frontends_agree (e : Js) (locale : Option String) :
    AdminFrontend.normalizeError e locale = UserFrontend.normalizeError e locale := by
  have hcatalog : AdminFrontend.zhCN = UserFrontend.zhCN := rfl
  rw [AdminFrontend.normalizeError, hcatalog, UserFrontend.normalizeError]

/-- Where the code of the envelope is a non-empty string, the answer says it. -/
theorem readResponse_envelope {response : Js}
    (h : (((response.get "data").get "error").get "code").text? = some code) :
    readResponse response =
      (code, firstText [((response.get "data").get "error").get "request_id",
        (response.get "data").get "request_id"], (response.get "status").number?.getD 0) := by
  have herror : ((response.get "data").get "error").isObject = true := by
    apply Js.isObject_of_get "code"
    rw [(Js.text?_eq_some_iff.mp h).1]
    nofun
  have hdata : (response.get "data").isObject = true := by
    apply Js.isObject_of_get "error"
    intro hundefined
    rw [hundefined] at herror
    cases herror
  have hlimit : isRateLimitBody (response.get "data") = false := by
    unfold isRateLimitBody
    refine decide_eq_false ?_
    intro htext
    rw [(Js.text?_eq_some_iff.mp htext).1] at herror
    cases herror
  unfold readResponse
  simp [hlimit, hdata, h]

/-- Where it is not, the code is that of a string body, or one of two that are not the network's. -/
theorem readResponse_string {response : Js}
    (h : (((response.get "data").get "error").get "code").text? = none) :
    readResponse response = (NETWORK_CODE, "", 0) ↔
      (response.get "status").number?.getD 0 = 0 ∧
        ((response.get "data").get "request_id").text? = none ∧
        (response.get "data").get "error" = .string NETWORK_CODE := by
  have hknown : RATE_LIMITED_CODE ≠ NETWORK_CODE ∧ UNKNOWN_CODE ≠ NETWORK_CODE := by decide
  unfold readResponse
  by_cases hlimit : (response.get "status").number?.getD 0 = 429 ∧
      isRateLimitBody (response.get "data") = true
  · have hstatus : (response.get "status").number?.getD 0 ≠ 0 := by
      rw [hlimit.1]
      decide
    simp [hlimit, hknown.1]
  dsimp only
  rw [if_neg hlimit]
  cases hdata : (response.get "data").isObject with
  | false =>
    have herror := Js.get_of_not_isObject hdata "error"
    simp [hknown.2, herror]
  | true =>
    rw [if_pos rfl, h]
    cases herror : ((response.get "data").get "error").text? with
    | some text =>
      have hstring := (Js.text?_eq_some_iff.mp herror).1
      have hrequest := firstText_eq_empty_iff [(response.get "data").get "request_id"]
      simp only [List.mem_singleton, forall_eq] at hrequest
      rw [hstring]
      simp only [Prod.mk.injEq, Js.string.injEq, hrequest]
      tauto
    | none =>
      have hstring : (response.get "data").get "error" ≠ .string NETWORK_CODE := by
        intro hstring
        rw [hstring] at herror
        cases herror
      simp [hknown.2, hstring]

theorem readResponse_eq_iff (response : Js) :
    readResponse response = (NETWORK_CODE, "", 0) ↔ SaysNetwork response := by
  unfold SaysNetwork
  cases hcode : (((response.get "data").get "error").get "code").text? with
  | some code =>
    obtain ⟨hget, hne⟩ := Js.text?_eq_some_iff.mp hcode
    have herror : (response.get "data").get "error" ≠ .string NETWORK_CODE := by
      intro hstring
      rw [hstring] at hget
      cases hget
    rw [readResponse_envelope hcode, Prod.mk.injEq, Prod.mk.injEq, firstText_eq_empty_iff, hget]
    simp [herror]
    tauto
  | none =>
    have hget : ((response.get "data").get "error").get "code" ≠ .string NETWORK_CODE := by
      intro hstring
      rw [hstring] at hcode
      cases hcode
    rw [readResponse_string hcode]
    simp [hget]

/-! ### Once more -/

theorem normalizesOnce_of_branded (h : isNormalizedError e = true) :
    NormalizesOnce e locale ↔ (∃ message, (e.get "message").text? = some message) ∧
      ∀ code, serverCode e = some code → e.get "code" = .string code := by
  have hself : UserFrontend.normalizeError e locale = some e := if_pos h
  constructor
  · rintro ⟨r, hr, -, -, hmessage, hcode⟩
    obtain rfl : e = r := Option.some.inj (hself.symm.trans hr)
    exact ⟨hmessage, hcode⟩
  · rintro ⟨hmessage, hcode⟩
    have hadmin := (frontends_agree e locale).trans hself
    exact ⟨e, hself, hadmin, ⟨e, hself, hadmin, fun _ _ => rfl⟩, hmessage, hcode⟩

/-- What an unbranded error is normalized to, and what that is normalized to. -/
theorem normalizesOnce_of_unbranded (code requestId : String) (httpStatus : Rat)
    (hfirst : UserFrontend.normalizeError e locale =
      (getErrorMessage UserFrontend.zhCN code (localeOf locale)).map fun message =>
        normalized code message requestId httpStatus)
    (hserver : ∀ c, serverCode e = some c → c = code) :
    NormalizesOnce e locale ↔ (code, requestId, httpStatus) = (NETWORK_CODE, "", 0) := by
  constructor
  · rintro ⟨r, hr, -, ⟨r', hr', -, hfields⟩, -, -⟩
    rw [hfirst] at hr
    obtain ⟨message, -, rfl⟩ := Option.map_eq_some_iff.mp hr
    obtain ⟨message', -, rfl⟩ := Option.map_eq_some_iff.mp hr'
    have hcode := hfields "code" (by simp [fields])
    have hrequest := hfields "request_id" (by simp [fields])
    have hstatus := hfields "httpStatus" (by simp [fields])
    rw [← Js.string.inj hcode, ← Js.string.inj hrequest, ← Js.number.inj hstatus]
  · intro hnetwork
    obtain ⟨rfl, hrest⟩ := Prod.mk.inj hnetwork
    obtain ⟨rfl, rfl⟩ := Prod.mk.inj hrest
    obtain ⟨message, hmessage⟩ : ∃ message,
        getErrorMessage UserFrontend.zhCN NETWORK_CODE (localeOf locale) = some message :=
      getErrorMessage_isSome _ _ (by decide) (by decide)
    have hr : UserFrontend.normalizeError e locale = some (normalized NETWORK_CODE message "" 0) := by
      rw [hfirst, hmessage]
      rfl
    have hr' : UserFrontend.normalizeError (normalized NETWORK_CODE message "" 0) locale =
        some (normalized NETWORK_CODE message "" 0) := by
      rw [UserFrontend.normalizeError, normalizeErrorOver_normalized, hmessage]
      rfl
    refine ⟨_, hr, (frontends_agree _ _).trans hr,
      ⟨_, hr', (frontends_agree _ _).trans hr', fun _ _ => rfl⟩, ⟨message, ?_⟩, ?_⟩
    · exact Js.text?_eq_some_iff.mpr ⟨rfl, getErrorMessage_ne_empty hmessage⟩
    · intro c hc
      rw [hserver c hc]
      rfl

theorem normalizesOnce_of_network (h : isNormalizedError e = false)
    (hresponse : (e.get "response").isObject = false) : NormalizesOnce e locale := by
  refine (normalizesOnce_of_unbranded NETWORK_CODE "" 0 ?_ ?_).mpr rfl
  · rw [UserFrontend.normalizeError, normalizeErrorOver, if_neg (by simp [h])]
    simp [hresponse]
  · intro c hc
    have hdata := Js.get_of_not_isObject hresponse "data"
    rw [serverCode, hdata] at hc
    cases hc

theorem normalizesOnce_of_response (h : isNormalizedError e = false)
    (hresponse : (e.get "response").isObject = true) :
    NormalizesOnce e locale ↔ readResponse (e.get "response") = (NETWORK_CODE, "", 0) := by
  rcases hread : readResponse (e.get "response") with ⟨code, requestId, httpStatus⟩
  refine normalizesOnce_of_unbranded code requestId httpStatus ?_ ?_
  · rw [UserFrontend.normalizeError, normalizeErrorOver, if_neg (by simp [h])]
    simp [hresponse, hread]
  · intro c hc
    rw [readResponse_envelope hc] at hread
    exact (Prod.mk.inj hread).1

/-- Normalizing twice is normalizing once exactly on normal errors, in every locale. -/
theorem normalizesOnce_iff (e : Js) (locale : Option String) :
    NormalizesOnce e locale ↔ Normal e := by
  unfold Normal
  cases hbrand : isNormalizedError e with
  | true =>
    rw [normalizesOnce_of_branded hbrand]
    simp
  | false =>
    cases hresponse : (e.get "response").isObject with
    | false => simpa using normalizesOnce_of_network hbrand hresponse
    | true =>
      rw [normalizesOnce_of_response hbrand hresponse, readResponse_eq_iff]
      simp

/-- The one result that is branded. -/
theorem sessionExpiredError_normal (h : UserFrontend.sessionExpiredError locale = some e) :
    Normal e := by
  obtain ⟨message, hmessage, rfl⟩ := Option.map_eq_some_iff.mp h
  refine .inl ⟨rfl, ⟨message, ?_⟩, nofun⟩
  exact Js.text?_eq_some_iff.mpr ⟨rfl, getErrorMessage_ne_empty hmessage⟩

/-- An answer of the server with an error code. -/
def usernameTaken : Js :=
  .object [("response", .object [("status", .number 409),
    ("data", .object [("error", .object [("code", .string "VALIDATION_USERNAME_TAKEN")])])])]

/-- The first result says that the name is taken, the second that the network failed. -/
theorem usernameTaken_normalized_twice :
    ∃ r r', UserFrontend.normalizeError usernameTaken none = some r ∧
      r.get "code" = .string "VALIDATION_USERNAME_TAKEN" ∧
      UserFrontend.normalizeError r none = some r' ∧ r'.get "code" = .string "__network__" ∧
      ¬ NormalizesOnce usernameTaken none := by
  refine ⟨_, _, rfl, rfl, rfl, rfl, ?_⟩
  rintro ⟨r, hr, -, ⟨r', hr', -, hfields⟩, -, -⟩
  cases hr
  cases hr'
  exact absurd (Js.string.inj (hfields "code" (by simp [fields]))) (by decide)

end AuthForge.Spa
