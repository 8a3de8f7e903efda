import AuthForge.Identity.Password

/-!
# Time-based one-time codes

`totp::verifyCode`: six decimal digits of an HMAC over the current time step, one step of clock
skew allowed on either side. `TotpUtils` of the older code path is a copy of it.
-/

namespace AuthForge.Identity.Totp

def kBase32Alphabet : List Char := "ABCDEFGHIJKLMNOPQRSTUVWXYZ234567".toList

def base32Digit (n : Nat) : Char := kBase32Alphabet.getD (n % 32) 'A'

/-- The encoder loop: a 32-bit buffer and the number of bits in it not handed out yet. -/
def base32EncodeLoop : Nat → Nat → List UInt8 → List Char
  | buffer, bitsLeft, [] =>
    if bitsLeft = 0 then [] else [base32Digit (buffer * 2 ^ (5 - bitsLeft))]
  | buffer, bitsLeft, b :: bs =>
    let buffer' := (buffer * 256 + b.toNat) % 2 ^ 32
    let available := bitsLeft + 8
    let digits := (List.range (available / 5)).map fun i =>
      base32Digit (buffer' / 2 ^ (available - 5 * (i + 1)))
    digits ++ base32EncodeLoop buffer' (available % 5) bs

def base32Encode (data : List UInt8) : String := String.ofList (base32EncodeLoop 0 0 data)

def base32Value (c : UInt8) : Option Nat :=
  let n := c.toNat
  if 65 ≤ n ∧ n ≤ 90 then some (n - 65)
  else if 97 ≤ n ∧ n ≤ 122 then some (n - 97)
  else if 50 ≤ n ∧ n ≤ 55 then some (n - 50 + 26)
  else none

/-- The decoder loop: a 32-bit buffer and the number of bits in it not handed out yet. -/
def base32DecodeLoop : Nat → Nat → List UInt8 → List UInt8
  | _, _, [] => []
  | buffer, bitsLeft, c :: cs =>
    match base32Value c with
    | none => base32DecodeLoop buffer bitsLeft cs
    | some val =>
      let buffer' := (buffer * 32 + val) % 2 ^ 32
      if bitsLeft + 5 ≥ 8 then
        UInt8.ofNat (buffer' / 2 ^ (bitsLeft + 5 - 8) % 256) ::
          base32DecodeLoop buffer' (bitsLeft + 5 - 8) cs
      else base32DecodeLoop buffer' (bitsLeft + 5) cs

def base32Decode (encoded : String) : List UInt8 := base32DecodeLoop 0 0 (bytes encoded)

def counterBytes (counter : Nat) : List UInt8 :=
  (List.range 8).map fun i => UInt8.ofNat (counter / 256 ^ (7 - i) % 256)

def generateOtp (crypto : IdentityCrypto) (key : List UInt8) (counter : Nat) : Nat :=
  let hmacResult := crypto.hmacSha1 key (counterBytes counter)
  let byteAt (i : Nat) : Nat := (hmacResult.getD i 0).toNat
  let offset := byteAt 19 % 16
  (byteAt offset % 128 * 2 ^ 24 + byteAt (offset + 1) * 2 ^ 16 + byteAt (offset + 2) * 2 ^ 8 +
    byteAt (offset + 3)) % 1000000

def formatSixDigits (otp : Nat) : String :=
  String.ofList (List.replicate (6 - (toString otp).length) '0' ++ (toString otp).toList)

def timeStep (nowSeconds : Int) : Nat := (nowSeconds % 2 ^ 64).toNat / 30

def generateCode (crypto : IdentityCrypto) (secret : String) (nowSeconds : Int) : String :=
  let key := base32Decode secret
  if key = [] then "" else formatSixDigits (generateOtp crypto key (timeStep nowSeconds))

def verifyCode (crypto : IdentityCrypto) (secret code : String) (nowSeconds : Int) : Bool :=
  let key := base32Decode secret
  byteLength code = 6 && key ≠ [] &&
    [2 ^ 64 - 1, 0, 1].any fun i =>
      formatSixDigits (generateOtp crypto key ((timeStep nowSeconds + i) % 2 ^ 64)) = code

end AuthForge.Identity.Totp

/-! ### The copy of the older code path -/

namespace AuthForge.Identity.TotpUtils

def base32Encode (data : List UInt8) : String :=
  String.ofList (Totp.base32EncodeLoop 0 0 data)

def base32Decode (encoded : String) : List UInt8 := Totp.base32DecodeLoop 0 0 (bytes encoded)

def generateOtp (crypto : IdentityCrypto) (key : List UInt8) (counter : Nat) : Nat :=
  Totp.generateOtp crypto key counter

/-- `now` is the system clock in seconds. -/
def generateCode (crypto : IdentityCrypto) (secret : String) (now : Int) : String :=
  let key := base32Decode secret
  if key = [] then ""
  else
    let otp := generateOtp crypto key (Totp.timeStep now)
    String.ofList (List.replicate (6 - (toString otp).length) '0' ++ (toString otp).toList)

def verifyCode (crypto : IdentityCrypto) (secret code : String) (now : Int) : Bool :=
  let key := base32Decode secret
  byteLength code = 6 && key ≠ [] &&
    [2 ^ 64 - 1, 0, 1].any fun i =>
      let otp := generateOtp crypto key ((Totp.timeStep now + i) % 2 ^ 64)
      String.ofList (List.replicate (6 - (toString otp).length) '0' ++ (toString otp).toList) = code

end AuthForge.Identity.TotpUtils
