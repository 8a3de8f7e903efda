import AuthForge.OAuth2.Dto

/-!
# Token hashing and PKCE

The digest and the encoding are ports of the domain layer, so they are fields of a provider here.
What the domain layer computes with them is embedded: the upper-case hash under which codes and
tokens are stored, and the PKCE comparison.
-/

namespace AuthForge.OAuth2

structure CryptoProvider where
  sha256 : String → List UInt8
  sha256Hex : String → String
  base64UrlEncode : List UInt8 → String

/-- Hash of a token for storage: the hexadecimal digest in upper case. -/
def hashToken (crypto : CryptoProvider) (rawToken : String) : String :=
  String.ofList ((crypto.sha256Hex rawToken).toList.map Char.toUpper)

/-- The challenge of a verifier; every method other than `S256` is the identity. -/
def computeCodeChallenge (codeVerifier method : String) (crypto : CryptoProvider) : String :=
  if method = "S256" then crypto.base64UrlEncode (crypto.sha256 codeVerifier) else codeVerifier

/-- A recorded challenge with its method. The constructor of the source throws on any other
value, so such a value does not exist. -/
structure PkceChallenge where
  challenge : String
  method : String
  challenge_nonempty : challenge ≠ ""
  method_valid : method = "S256" ∨ method = "plain"

def PkceChallenge.make (challenge method : String) : Except String PkceChallenge :=
  if hc : challenge = "" then .error "PkceChallenge: challenge must not be empty"
  else if hm : method = "S256" ∨ method = "plain" then .ok ⟨challenge, method, hc, hm⟩
  else .error ("PkceChallenge: method must be 'S256' or 'plain', got '" ++ method ++ "'")

def verifyCodeVerifier (codeVerifier : String) (challenge : PkceChallenge)
    (crypto : CryptoProvider) : Bool :=
  computeCodeChallenge codeVerifier challenge.method crypto = challenge.challenge

def validatePkceCodeVerifier (crypto : CryptoProvider)
    (codeVerifier codeChallenge codeChallengeMethod : String) : Except String Bool :=
  let method := if codeChallengeMethod = "" then "plain" else codeChallengeMethod
  (PkceChallenge.make codeChallenge method).map (verifyCodeVerifier codeVerifier · crypto)

/-- The verifier answers the recorded challenge under the recorded method (RFC 7636, section 4.6),
an absent method being `plain`. -/
def MatchesChallenge (crypto : CryptoProvider)
    (codeVerifier codeChallenge codeChallengeMethod : String) : Prop :=
  codeVerifier ≠ "" ∧
    (codeChallengeMethod = "S256" ∧
        crypto.base64UrlEncode (crypto.sha256 codeVerifier) = codeChallenge ∨
      (codeChallengeMethod = "plain" ∨ codeChallengeMethod = "") ∧ codeVerifier = codeChallenge)

instance (crypto : CryptoProvider) (v c m : String) : Decidable (MatchesChallenge crypto v c m) :=
  inferInstanceAs (Decidable (_ ∧ _))

theorem validatePkceCodeVerifier_eq_true_iff {crypto : CryptoProvider}
    {codeVerifier codeChallenge codeChallengeMethod : String}
    (hverifier : codeVerifier ≠ "") (hchallenge : codeChallenge ≠ "") :
    validatePkceCodeVerifier crypto codeVerifier codeChallenge codeChallengeMethod = .ok true ↔
      MatchesChallenge crypto codeVerifier codeChallenge codeChallengeMethod := by
  unfold MatchesChallenge validatePkceCodeVerifier PkceChallenge.make
  by_cases hs : codeChallengeMethod = "S256"
  · simp [hverifier, hchallenge, hs, Except.map, verifyCodeVerifier, computeCodeChallenge]
  by_cases hp : codeChallengeMethod = "plain"
  · simp [hverifier, hchallenge, hp, Except.map, verifyCodeVerifier, computeCodeChallenge]
  by_cases he : codeChallengeMethod = ""
  · simp [hverifier, hchallenge, he, Except.map, verifyCodeVerifier, computeCodeChallenge]
  · simp [hchallenge, hs, hp, he, Except.map]

/-! ### A provider with known values

Concrete inputs need a provider. This one agrees with SHA-256 and base64url on the listed tokens,
which are 32 equal bytes in base64url, and on the verifier of RFC 7636, appendix B. -/

def knownDigests : List (String × String) :=
  [("AQEBAQEBAQEBAQEBAQEBAQEBAQEBAQEBAQEBAQEBAQE",
    "56d5fa7333f6d747db42c239407e5da4c32f4c79f35d092b134fd35a402d9c5c"),
   ("AgICAgICAgICAgICAgICAgICAgICAgICAgICAgICAgI",
    "6c1d63bbdab437c54368cbbd8886a886a79ad977297e265eebf1f5f5f01533b9"),
   ("AwMDAwMDAwMDAwMDAwMDAwMDAwMDAwMDAwMDAwMDAwM",
    "83bee072fbd3423f7481fc163821636ad8cfb73faef0dd0581f3979ea0c731b9"),
   ("BAQEBAQEBAQEBAQEBAQEBAQEBAQEBAQEBAQEBAQEBAQ",
    "4f6a3bb5a6c72d17856be15f62e747ef88df8139f0c38411c8501164c1c1bdd8"),
   ("BQUFBQUFBQUFBQUFBQUFBQUFBQUFBQUFBQUFBQUFBQU",
    "894e352d1d8cc10c303df8fd45a59ee97b30841bdbf60b47fa317c7fa4c95859")]

def knownToken (i : Nat) : String := (knownDigests.getD i ("", "")).1

def knownFamily : String := "AQEBAQEBAQEBAQEBAQEBAQ"

def knownVerifier : String := "dBjftJeZ4CVP-mB92K27uhbUJU1p1r_wW1gFWFOEjXk"

def knownChallenge : String := "E9Melhoa2OwvFrEMTJguCHaoeK1t8URWbuGJSstw-cM"

def knownVerifierDigest : List UInt8 :=
  [19, 211, 30, 150, 26, 26, 216, 236, 47, 22, 177, 12, 76, 152, 46, 8, 118, 168, 120, 173, 109,
   241, 68, 86, 110, 225, 137, 74, 203, 112, 249, 195]

/-- A provider that is right on the known values. -/
def knownCrypto : CryptoProvider where
  sha256 s := if s = knownVerifier then knownVerifierDigest else []
  sha256Hex s := (knownDigests.lookup s).getD ""
  base64UrlEncode bytes := if bytes = knownVerifierDigest then knownChallenge else ""

end AuthForge.OAuth2
