import AuthForge.Base.Regex
import AuthForge.Http.Validation
import AuthForge.Storage.Consents

/-!
# Consents do not leak

A client identifier of the pattern has no colon, a decimal numeral has none either, so the key of a
consent determines its user, its client and its scope. What is stored under the key is then what the
last call about exactly these three left there.
-/

namespace AuthForge.Storage.MemoryConsentRepository

open Ascii Http Regex

variable {calls : List ConsentCall} {user : UserRef} {clientId scope : Bytes}

/-- The last call about the user, the client and the scope was a save. -/
def LastSaved (calls : List ConsentCall) (user : UserRef) (clientId scope : Bytes) : Prop :=
  ∃ before currentTimestamp after,
    calls = before ++ .save user clientId scope currentTimestamp :: after ∧
      ∀ c ∈ after, c.subject ≠ (user, clientId, scope)

theorem separator_notMem_of_accepts (h : CLIENT_ID_PATTERN.accepts clientId = true) :
    separator ∉ clientId := by
  have hclasses : CLIENT_ID_PATTERN.AllClasses fun p => ∀ c, p c = true → c ≠ separator := by
    have hclass : (sat fun b => isAlnum b || oneOf "._-" b).AllClasses
        fun p => ∀ c, p c = true → c ≠ separator := by
      rintro c hc rfl
      exact absurd hc (by decide)
    exact ⟨hclass, allClasses_upTo hclass 127⟩
  intro hmem
  exact of_mem_of_mem_language hclasses (accepts_iff.mp h) _ hmem rfl

/-- The key that a call writes, and what it leaves there. -/
def ConsentCall.change (c : ConsentCall) : Bytes × Option Int :=
  (consentKey c.subject.1 c.subject.2.1 c.subject.2.2, c.consent)

theorem call_eq_write (repository : MemoryConsentRepository) (c : ConsentCall) :
    repository.call c = { userConsents := repository.userConsents.write c.change } := by
  cases c with
  | save user clientId scope currentTimestamp => rfl
  | revoke user clientId scope => rfl

theorem run_eq_writes (calls : List ConsentCall) (repository : MemoryConsentRepository) :
    calls.foldl call repository =
      { userConsents := repository.userConsents.writes (calls.map ConsentCall.change) } := by
  induction calls generalizing repository with
  | nil => rfl
  | cons c calls ih =>
    rw [List.foldl_cons, call_eq_write, ih]
    rfl

theorem change_fst_eq_iff {c : ConsentCall}
    (hc : CLIENT_ID_PATTERN.accepts c.subject.2.1 = true)
    (hclient : CLIENT_ID_PATTERN.accepts clientId = true) :
    c.change.1 = consentKey user clientId scope ↔ c.subject = (user, clientId, scope) := by
  constructor
  · intro h
    obtain ⟨huser, hid, hscope⟩ := consentKey_injective (separator_notMem_of_accepts hc)
      (separator_notMem_of_accepts hclient) h
    exact Prod.ext huser (Prod.ext hid hscope)
  · intro h
    rw [ConsentCall.change, h]

theorem change_eq_iff {c : ConsentCall} {currentTimestamp : Int}
    (hc : CLIENT_ID_PATTERN.accepts c.subject.2.1 = true)
    (hclient : CLIENT_ID_PATTERN.accepts clientId = true) :
    c.change = (consentKey user clientId scope, some currentTimestamp) ↔
      c = .save user clientId scope currentTimestamp := by
  constructor
  · intro h
    have hsubject := (change_fst_eq_iff hc hclient).mp (congrArg Prod.fst h)
    have hconsent : c.consent = some currentTimestamp := congrArg Prod.snd h
    cases c with
    | save u i s t =>
      cases hsubject
      cases hconsent
      rfl
    | revoke u i s => cases hconsent
  · rintro rfl
    rfl

/-- A consent counts exactly if the last save or revocation of the same user, client and scope was
a save; no call about another user, client or scope has any effect on it. -/
theorem hasUserConsent_iff_lastSaved (calls : List ConsentCall) (user : UserRef)
    (clientId scope : Bytes)
    (hcalls : ∀ c ∈ calls, CLIENT_ID_PATTERN.accepts c.subject.2.1 = true)
    (hclient : CLIENT_ID_PATTERN.accepts clientId = true) :
    (run calls).hasUserConsent user clientId scope = true ↔
      LastSaved calls user clientId scope := by
  unfold hasUserConsent run
  rw [run_eq_writes, Dict.isSome_lookup_writes_iff]
  constructor
  · rintro ⟨before, currentTimestamp, after, hsplit, hafter⟩
    obtain ⟨earlier, rest, rfl, -, hrest⟩ := List.map_eq_append_iff.mp hsplit
    obtain ⟨last, later, rfl, hlast, rfl⟩ := List.map_eq_cons_iff.mp hrest
    obtain rfl := (change_eq_iff (hcalls last (by simp)) hclient).mp hlast
    refine ⟨earlier, currentTimestamp, later, rfl, ?_⟩
    intro c hc hsubject
    refine hafter c.change (List.mem_map_of_mem hc) ?_
    exact (change_fst_eq_iff (hcalls c (by simp [hc])) hclient).mpr hsubject
  · rintro ⟨before, currentTimestamp, after, rfl, hafter⟩
    refine ⟨before.map ConsentCall.change, currentTimestamp, after.map ConsentCall.change, ?_, ?_⟩
    · rw [List.map_append]
      rfl
    · intro change hchange
      obtain ⟨c, hc, rfl⟩ := List.mem_map.mp hchange
      intro hkey
      exact hafter c hc ((change_fst_eq_iff (hcalls c (by simp [hc])) hclient).mp hkey)

/-- The user 1 consents to `a` and to `a:b` for one client and takes the second consent back. -/
theorem hasUserConsent_iff_lastSaved_sample :
    (run [.save ⟨1⟩ (bytes "shop") (bytes "a") 5, .save ⟨1⟩ (bytes "shop") (bytes "a:b") 6,
        .revoke ⟨1⟩ (bytes "shop") (bytes "a:b")]).hasUserConsent ⟨1⟩ (bytes "shop") (bytes "a") =
        true ↔
      LastSaved [.save ⟨1⟩ (bytes "shop") (bytes "a") 5, .save ⟨1⟩ (bytes "shop") (bytes "a:b") 6,
        .revoke ⟨1⟩ (bytes "shop") (bytes "a:b")] ⟨1⟩ (bytes "shop") (bytes "a") :=
  hasUserConsent_iff_lastSaved _ _ _ _ (by decide) (by decide)

end AuthForge.Storage.MemoryConsentRepository
