import AuthForge.Base.Dict
import AuthForge.Base.History
import AuthForge.Identity.Totp

/-!
# The second factor of a user

`MfaService` over the calls of `PostgresMfaRepository`. A call is executed as a whole and writes
exactly its own columns: storing a secret leaves `mfa_enabled` as it is, and enabling leaves the
secret.
-/

namespace AuthForge.Identity

/-! ### Secrets and codes -/

namespace Totp

def generateOtpAuthUri (secret accountName issuer : String) : String :=
  "otpauth://totp/" ++ issuer ++ ":" ++ accountName ++ "?secret=" ++ secret ++ "&issuer=" ++ issuer ++
    "&algorithm=SHA1&digits=6&period=30"

def backupCodeChars : List Char := "ABCDEFGHJKLMNPQRSTUVWXYZ23456789".toList

def backupCode (randomBytes : List UInt8) : String :=
  String.ofList ((List.range 8).map fun j =>
    backupCodeChars.getD ((randomBytes.getD j 0).toNat % 32) 'A')

end Totp

/-! ### The repository -/

structure MfaData where
  /-- Empty if not set up. -/
  secret : String := ""
  enabled : Bool := false
  hashedBackupCodes : List String := []
  pendingClientId : String := ""
  pendingRedirectUri : String := ""
  deriving DecidableEq

inductive MfaCall
  | getMfaData (userId : Int)
  | setSecret (userId : Int) (secret : String)
  | enable (userId : Int) (hashedBackupCodes : List String)
  | secureRandomBytes (length : Nat)
  | nowSeconds
  deriving DecidableEq

@[reducible] def MfaCall.Resp : MfaCall → Type
  | .getMfaData _ => Option MfaData
  | .setSecret _ _ => Bool
  | .enable _ _ => Bool
  | .secureRandomBytes _ => List UInt8
  | .nowSeconds => Int

structure MfaEnv where
  now : Int := 0
  fails : Bool := false
  random : List UInt8 := []

/-- The columns of the second factor, for each user. -/
abbrev MfaTable := Dict Int MfaData

namespace MfaTable

/-- The update of a row, `false` without one. -/
def updateRow (env : MfaEnv) (userId : Int) (f : MfaData → MfaData) (s : MfaTable) :
    Bool × MfaTable :=
  if env.fails then (false, s)
  else
    match s.lookup userId with
    | none => (false, s)
    | some data => (true, s.insert userId (f data))

def exec (env : MfaEnv) : (op : MfaCall) → MfaTable → op.Resp × MfaTable
  | .getMfaData userId, s => (if env.fails then none else s.lookup userId, s)
  | .setSecret userId secret, s => updateRow env userId (fun data => { data with secret }) s
  | .enable userId hashedBackupCodes, s =>
    updateRow env userId (fun data => { data with enabled := true, hashedBackupCodes }) s
  | .secureRandomBytes _, s => (env.random, s)
  | .nowSeconds, s => (env.now, s)

end MfaTable

/-! ### The service -/

structure MfaSetupResult where
  secret : String
  otpAuthUri : String
  deriving DecidableEq

inductive MfaReply
  | setup (result : Option MfaSetupResult)
  /-- The backup codes, shown once. -/
  | enabled (backupCodes : Option (List String))
  | verified (ok : Bool)
  deriving DecidableEq

abbrev MfaProg := Prog MfaCall MfaCall.Resp MfaReply

def setupSecret (issuerName : String) (userId : Int) (accountLabel : String) : MfaProg :=
  .call (.secureRandomBytes 20) fun secretBytes =>
    let secret := Totp.base32Encode secretBytes
    let otpAuthUri := Totp.generateOtpAuthUri secret accountLabel issuerName
    .call (.setSecret userId secret) fun
      | false => .ret (.setup none)
      | true => .ret (.setup (some { secret, otpAuthUri }))

/-- As many more codes as the count says. -/
def generateBackupCodes : Nat → List String → (List String → MfaProg) → MfaProg
  | 0, codes, k => k codes
  | count + 1, codes, k =>
    .call (.secureRandomBytes 8) fun randomBytes =>
      generateBackupCodes count (codes ++ [Totp.backupCode randomBytes]) k

def verifyAndEnable (crypto : IdentityCrypto) (userId : Int) (code : String) : MfaProg :=
  .call (.getMfaData userId) fun
    | none => .ret (.enabled none)
    | some data =>
      if data.secret = "" then .ret (.enabled none)
      else
        .call .nowSeconds fun now =>
          if Totp.verifyCode crypto data.secret code now = false then .ret (.enabled none)
          else
            generateBackupCodes 10 [] fun backupCodes =>
              .call (.enable userId (backupCodes.map crypto.sha256Hex)) fun
                | false => .ret (.enabled none)
                | true => .ret (.enabled (some backupCodes))

def verifyLoginCode (crypto : IdentityCrypto) (userId : Int) (code : String) : MfaProg :=
  .call (.getMfaData userId) fun
    | none => .ret (.verified false)
    | some data =>
      if data.enabled = false ∨ data.secret = "" then .ret (.verified false)
      else
        .call .nowSeconds fun now =>
          .ret (.verified (Totp.verifyCode crypto data.secret code now))

inductive MfaRequest
  | setupSecret (userId : Int) (accountLabel : String)
  | verifyAndEnable (userId : Int) (code : String)
  | verifyLoginCode (userId : Int) (code : String)
  deriving DecidableEq

abbrev MfaEvent := Service.Event MfaEnv MfaCall MfaCall.Resp MfaRequest

def mfaService (crypto : IdentityCrypto) (issuerName : String) :
    Service MfaTable MfaEnv MfaCall MfaCall.Resp MfaRequest MfaReply where
  exec := MfaTable.exec
  program
    | .setupSecret userId accountLabel => setupSecret issuerName userId accountLabel
    | .verifyAndEnable userId code => verifyAndEnable crypto userId code
    | .verifyLoginCode userId code => verifyLoginCode crypto userId code

/-! ### What a call does to a row -/

namespace MfaTable

variable {env : MfaEnv} {s : MfaTable} {userId id : Int} {f : MfaData → MfaData} {data : MfaData}

/-- A row after an update is an old one, or the updated one. -/
theorem lookup_updateRow (h : (updateRow env userId f s).2.lookup id = some data) :
    s.lookup id = some data ∨
      env.fails = false ∧ id = userId ∧ ∃ old, s.lookup userId = some old ∧ data = f old := by
  unfold updateRow at h
  split at h
  · exact .inl h
  rename_i hup
  cases hrow : s.lookup userId with
  | none =>
    rw [hrow] at h
    exact .inl h
  | some old =>
    rw [hrow] at h
    by_cases hid : id = userId
    · subst hid
      rw [AList.lookup_insert] at h
      exact .inr ⟨by simpa using hup, rfl, old, rfl, (Option.some.inj h).symm⟩
    · rw [AList.lookup_insert_ne hid] at h
      exact .inl h

end MfaTable

end AuthForge.Identity
