import AuthForge.Base.Dict
import AuthForge.Base.Text

/-!
# The consents in memory

`MemoryConsentRepository`: one map from a colon-separated key to the time of the consent. Every
method holds the lock of the repository from the first access to the last.
-/

namespace AuthForge.Storage

open Ascii

structure UserRef where
  internalUserId : Int
deriving DecidableEq

structure MemoryConsentRepository where
  userConsents : Dict Bytes Int := ∅

namespace MemoryConsentRepository

def separator : UInt8 := 58

def consentKey (user : UserRef) (clientId scope : Bytes) : Bytes :=
  bytes (toString user.internalUserId) ++ separator :: (clientId ++ separator :: scope)

variable (repository : MemoryConsentRepository) (user : UserRef) (clientId scope : Bytes)

def hasUserConsent : Bool :=
  (repository.userConsents.lookup (consentKey user clientId scope)).isSome

/-- The answer of the callback, and the repository. -/
def saveUserConsent (currentTimestamp : Int) : Bool × MemoryConsentRepository :=
  (true, { userConsents :=
    repository.userConsents.insert (consentKey user clientId scope) currentTimestamp })

def revokeUserConsent : MemoryConsentRepository :=
  { userConsents := repository.userConsents.erase (consentKey user clientId scope) }

/-! ### Keys -/

variable {user user' : UserRef} {clientId clientId' scope scope' : Bytes}

theorem separator_notMem_toString (n : Int) : separator ∉ bytes (toString n) := by
  have hdigit : ∀ c ∈ (toString n).toList, c.toNat < 58 := by
    intro c hc
    rcases isDigit_or_eq_minus_of_mem_intToString hc with hc | rfl
    · exact Nat.lt_succ_of_le (isDigit_iff_toNat.mp hc).2
    · decide
  intro h
  unfold bytes at h
  rw [flatMap_of_ascii fun c hc => Nat.lt_trans (hdigit c hc) (by decide)] at h
  obtain ⟨c, hc, heq⟩ := List.mem_map.mp h
  have hcode : c.toNat = 58 := by
    rw [← toNat_asciiByte (Nat.lt_trans (hdigit c hc) (by decide)), heq]
    rfl
  exact absurd (hdigit c hc) (by omega)

/-- A colon in the scope is harmless: it stands behind the two that end the other fields. -/
theorem consentKey_injective (hclient : separator ∉ clientId) (hclient' : separator ∉ clientId')
    (h : consentKey user clientId scope = consentKey user' clientId' scope') :
    user = user' ∧ clientId = clientId' ∧ scope = scope' := by
  have huser := append_cons_inj (separator_notMem_toString _) (separator_notMem_toString _) h
  have hrest := append_cons_inj hclient hclient' huser.2
  have hid : user.internalUserId = user'.internalUserId :=
    intToString_injective (bytes_injective huser.1)
  refine ⟨?_, hrest⟩
  cases user
  cases user'
  exact congrArg UserRef.mk hid

/-! ### Calls -/

inductive ConsentCall
  | save (user : UserRef) (clientId scope : Bytes) (currentTimestamp : Int)
  | revoke (user : UserRef) (clientId scope : Bytes)

namespace ConsentCall

/-- The user, the client and the scope that a call is about. -/
def subject : ConsentCall → UserRef × Bytes × Bytes
  | .save user clientId scope _ => (user, clientId, scope)
  | .revoke user clientId scope => (user, clientId, scope)

/-- The time of the consent that a call leaves. -/
def consent : ConsentCall → Option Int
  | .save _ _ _ currentTimestamp => some currentTimestamp
  | .revoke .. => none

end ConsentCall

def call (repository : MemoryConsentRepository) : ConsentCall → MemoryConsentRepository
  | .save user clientId scope currentTimestamp =>
    (repository.saveUserConsent user clientId scope currentTimestamp).2
  | .revoke user clientId scope => repository.revokeUserConsent user clientId scope

/-- The repository after a sequence of calls. -/
def run (calls : List ConsentCall) : MemoryConsentRepository :=
  calls.foldl call {}

end MemoryConsentRepository

end AuthForge.Storage
