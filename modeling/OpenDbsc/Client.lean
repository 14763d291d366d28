/-
The client's side: the proof tokens a browser makes.
-/
import OpenDbsc.Extern

namespace OpenDbsc

/-- The base64url digit of a six-bit value. -/
def b64urlChar (n : Nat) : Char :=
  if n < 26 then Char.ofNat ('A'.toNat + n)
  else if n < 52 then Char.ofNat ('a'.toNat + (n - 26))
  else if n < 62 then Char.ofNat ('0'.toNat + (n - 52))
  else if n = 62 then '-' else '_'

/-- base64url without padding. -/
def base64urlEncode : List UInt8 → CStr
  | b0 :: b1 :: b2 :: rest =>
    b64urlChar (b0.toNat / 4) :: b64urlChar (b0.toNat % 4 * 16 + b1.toNat / 16) ::
      b64urlChar (b1.toNat % 16 * 4 + b2.toNat / 64) :: b64urlChar (b2.toNat % 64) :: base64urlEncode rest
  | [b0, b1] =>
    [b64urlChar (b0.toNat / 4), b64urlChar (b0.toNat % 4 * 16 + b1.toNat / 16), b64urlChar (b1.toNat % 16 * 4)]
  | [b0] => [b64urlChar (b0.toNat / 4), b64urlChar (b0.toNat % 4 * 16)]
  | [] => []

/-- A member that may be left out. -/
def optionalMember (name : CStr) (value : Option Json) : List (CStr × Json) :=
  match value with
  | none => []
  | some value => [(name, value)]

def proofHeader (algorithm : CStr) (jwk : Option Json) : Json :=
  .obj (("typ", .str "dbsc+jwt") :: ("alg", .str algorithm) :: optionalMember "jwk" jwk)

def proofPayload (challenge : CStr) (authorization : Option CStr) : Json :=
  .obj (("jti", .str challenge) :: optionalMember "authorization" (authorization.map .str))

/-- A token: its signature is over the bytes before the second dot. -/
def proofToken (header payload : Json) (signature : List UInt8) : CStr :=
  base64urlEncode (bytesOf header.render) ++ "." ++ base64urlEncode (bytesOf payload.render) ++ "." ++
    base64urlEncode signature

/-- A P-256 key, as a client sends it. -/
def deviceJwk : Json := .obj [("kty", .str "EC"), ("crv", .str "P-256"), ("x", .str "AQ"), ("y", .str "Ag")]

/-- A signature of the right length. -/
def deviceSignature : List UInt8 := List.replicate 64 7

def registrationToken (challenge : CStr) : CStr :=
  proofToken (proofHeader "ES256" (some deviceJwk)) (proofPayload challenge none) deviceSignature

def refreshToken (challenge : CStr) : CStr :=
  proofToken (proofHeader "ES256" none) (proofPayload challenge none) deviceSignature

/-- The libraries, for a device that answers these challenges. -/
def deviceExtern (challenges : List CStr) : Extern :=
  Extern.knowing (deviceJwk :: proofHeader "ES256" (some deviceJwk) :: proofHeader "ES256" none ::
    challenges.map fun challenge => proofPayload challenge none) fun _ _ => true

end OpenDbsc
