/-
`protocol/jwt.c`: decoding a proof token and verifying its signature.

A pointer into the token is an offset. OpenSSL's and cJSON's own allocations
are `libraryAlloc`; what they compute is `Extern`'s. An out parameter that a
failing call may leave changed is part of the result.
-/
import OpenDbsc.Extern

namespace OpenDbsc

open Effects

/-! ## base64url -/

/-- The digit's value, or `none` for the source's -1. -/
def b64urlDigit (c : Char) : Option Nat :=
  if 'A' ≤ c ∧ c ≤ 'Z' then some (c.toNat - 'A'.toNat)
  else if 'a' ≤ c ∧ c ≤ 'z' then some (c.toNat - 'a'.toNat + 26)
  else if '0' ≤ c ∧ c ≤ '9' then some (c.toNat - '0'.toNat + 52)
  else if c = '-' ∨ c = '+' then some 62
  else if c = '_' ∨ c = '/' then some 63
  else none

/-- A padding character stands for zero bits in the last two places of a group. -/
def b64urlPadDigit (c : Char) : Option Nat := if c = '=' then some 0 else b64urlDigit c

/-- One turn of the decoding loop: the bytes of a group of four characters. -/
def base64urlGroup (c0 c1 c2 c3 : Char) : Option (List UInt8) :=
  match b64urlDigit c0, b64urlDigit c1, b64urlPadDigit c2, b64urlPadDigit c3 with
  | some d0, some d1, some d2, some d3 => some (
      [UInt8.ofNat (d0 <<< 2 ||| d1 >>> 4)] ++
      (if c2 ≠ '=' then [UInt8.ofNat ((d1 &&& 0x0f) <<< 4 ||| d2 >>> 2)] else []) ++
      (if c3 ≠ '=' then [UInt8.ofNat ((d2 &&& 0x03) <<< 6 ||| d3)] else []))
  | _, _, _, _ => none

def base64urlGroups : CStr → Option (List UInt8)
  | c0 :: c1 :: c2 :: c3 :: rest => do
    let bytes ← base64urlGroup c0 c1 c2 c3
    let decoded ← base64urlGroups rest
    some (bytes ++ decoded)
  | _ => some []

def toStandardAlphabet (c : Char) : Char := if c = '-' then '+' else if c = '_' then '/' else c

def base64urlPadded (s : CStr) : CStr :=
  s.map toStandardAlphabet ++ List.replicate ((4 - s.length % 4) % 4) '='

def base64urlDecode (s : CStr) : Prog Sys (Option (List UInt8)) :=
  if s.length = 0 then pure none
  else do
    let paddedLen := s.length + (4 - s.length % 4) % 4
    if !(← malloc (paddedLen + 1)) then return none
    if !(← malloc (paddedLen / 4 * 3)) then return none
    return base64urlGroups (base64urlPadded s)

/-! ## Tokens -/

/-- `strchr` from offset `start` on, as an offset. -/
def strchr (s : CStr) (c : Char) (start : Nat) : Option Nat :=
  ((s.drop start).findIdx? (· == c)).map (start + ·)

/-- The offsets of the payload and of the signature; the header's is 0. -/
def splitJwt (token : CStr) : Option (Nat × Nat) := do
  let first ← strchr token '.' 0
  let second ← strchr token '.' (first + 1)
  if (strchr token '.' (second + 1)).isSome then none
  else some (first + 1, second + 1)

/-- The `n` bytes of `s` from offset `start` on. -/
def strndupNull (s : CStr) (start n : Nat) : Prog Sys (Option CStr) := do
  if ← malloc (n + 1) then pure (some ((s.drop start).take n)) else pure none

structure ProofJWT where
  algorithm : Option CStr
  type : Option CStr
  jwk : Option CStr
  challenge : Option CStr
  authorization : Option CStr
  signature : Option CStr
  deriving DecidableEq

def proofJwtInit : ProofJWT := ⟨none, none, none, none, none, none⟩

/-- `strdup` of a field, when there is one. -/
def dupField (field : Option CStr) : Prog Sys (Option CStr) :=
  match field with
  | none => pure none
  | some s => strdup s

def cJsonParseWithLength (L : Extern) (bytes : List UInt8) : Prog Sys (Option Json) := do
  if ← libraryAlloc then pure (L.parseWithLength bytes) else pure none

def cJsonParse (L : Extern) (s : CStr) : Prog Sys (Option Json) := do
  if ← libraryAlloc then pure (L.parse s) else pure none

@[simp] theorem assuming_cJsonParse (L : Extern) (s : CStr) :
    (cJsonParse L s).assuming allocOk = pure (L.parse s) := by
  simp [cJsonParse]

/-- `cJSON_PrintUnformatted` of a member, when there is one. -/
def printField (L : Extern) (field : Option Json) : Prog Sys (Option CStr) :=
  match field with
  | none => pure none
  | some j => do if ← libraryAlloc then pure (some (L.printUnformatted j)) else pure none

def parseProof (L : Extern) (headerJson payloadJson : List UInt8) (signatureRaw : CStr) (proof : ProofJWT) :
    Prog Sys (Int × ProofJWT) := do
  let some header ← cJsonParseWithLength L headerJson | return (-1, proof)
  let some payload ← cJsonParseWithLength L payloadJson | return (-1, proof)
  let algorithm ← dupField (Json.asString (header.getObjectItem "alg"))
  let type ← dupField (Json.asString (header.getObjectItem "typ"))
  let jwk ← printField L (Json.asObject (header.getObjectItem "jwk"))
  let challenge ← dupField (Json.asString (payload.getObjectItem "jti"))
  let authorization ← dupField (Json.asString (payload.getObjectItem "authorization"))
  let signature ← strdup signatureRaw
  if algorithm = none ∨ challenge = none then return (-1, proofJwtInit)
  return (0, { algorithm, type, jwk, challenge, authorization, signature })

def jwtDecode (L : Extern) (token : CStr) (proof : ProofJWT) : Prog Sys (Int × ProofJWT) :=
  match splitJwt token with
  | none => pure (-1, proof)
  | some (pStart, sStart) => do
    let headerB64 ← strndupNull token 0 (pStart - 1)
    let payloadB64 ← strndupNull token pStart (sStart - pStart - 1)
    let sigCopy ← strndupNull token sStart (token.length - sStart)
    match headerB64, payloadB64, sigCopy with
    | some headerB64, some payloadB64, some sigCopy =>
      let some headerJson ← base64urlDecode headerB64 | return (-1, proof)
      let some payloadJson ← base64urlDecode payloadB64 | return (-1, proof)
      parseProof L headerJson payloadJson sigCopy proof
    | _, _, _ => return (-1, proof)

/-! ## Keys -/

def jwkGetB64 (jwk : Json) (key : CStr) : Prog Sys (Option (List UInt8)) :=
  match Json.asString (jwk.getObjectItem key) with
  | none => pure none
  | some value => base64urlDecode value

/-- The two fields of a key, the objects OpenSSL builds from them, and the key. -/
def evpPkeyFromFields {Key : Type} (jwk : Json) (key₁ key₂ : CStr) (build : List UInt8 → List UInt8 → Option Key) :
    Prog Sys (Option Key) := do
  let some x ← jwkGetB64 jwk key₁ | return none
  let some y ← jwkGetB64 jwk key₂ | return none
  if !(← libraryAlloc) then return none
  let bnX ← libraryAlloc
  let bnY ← libraryAlloc
  if !bnX || !bnY then return none
  let some key := build x y | return none
  if !(← libraryAlloc) then return none
  return some key

/-- An EC key on P-256. -/
def evpPkeyFromEcJwk (L : Extern) (jwk : Json) : Prog Sys (Option L.Key) := evpPkeyFromFields jwk "x" "y" L.ecKey

def evpPkeyFromRsaJwk (L : Extern) (jwk : Json) : Prog Sys (Option L.Key) := evpPkeyFromFields jwk "n" "e" L.rsaKey

def evpPkeyFromJwk (L : Extern) (jwk : Json) : Prog Sys (Option L.Key) :=
  match Json.asString (jwk.getObjectItem "kty") with
  | none => pure none
  | some kty =>
    if kty = "EC" then
      match Json.asString (jwk.getObjectItem "crv") with
      | none => pure none
      | some crv => if crv ≠ "P-256" then pure none else evpPkeyFromEcJwk L jwk
    else if kty = "RSA" then evpPkeyFromRsaJwk L jwk
    else pure none

/-! ## Signatures -/

def es256RawToDer (L : Extern) (sig : List UInt8) : Prog Sys (Option (List UInt8)) :=
  if sig.length ≠ 64 then pure none
  else do
    if !(← libraryAlloc) then return none
    let r ← libraryAlloc
    let s ← libraryAlloc
    if !r || !s then return none
    let der := L.ecdsaDer (sig.take 32) (sig.drop 32)
    if !(← libraryAlloc) || der.length = 0 then return none
    return some der

def verifySignatureWithJwk (L : Extern) (token : CStr) (proof : ProofJWT) (jwkJson : Option CStr) : Prog Sys Int :=
  match proof.algorithm with
  | none => pure (-1)
  | some algorithm =>
    if algorithm = "none" then pure 0
    else if algorithm ≠ "ES256" ∧ algorithm ≠ "RS256" then pure (-1)
    else match jwkJson, proof.signature, splitJwt token with
      | some jwkJson, some signature, some (_, sStart) => do
        let some sig ← base64urlDecode signature | return -1
        let some sig ← (if algorithm = "ES256" then es256RawToDer L sig else pure (some sig)) | return -1
        let some jwk ← cJsonParse L jwkJson | return -1
        let some pkey ← evpPkeyFromJwk L jwk | return -1
        if !(← libraryAlloc) then return -1
        let init ← libraryAlloc
        if init && L.digestVerify pkey (bytesOf (token.take (sStart - 1))) sig then return 0 else return -1
      | _, _, _ => pure (-1)

def checkProofType (proof : ProofJWT) : Int := if proof.type = some ("dbsc+jwt" : CStr) then 0 else -1

/-- ES256 and RS256 tokens must carry a jwk header claim; "none" tokens must not. -/
def checkRegistrationJwkRules (proof : ProofJWT) : Int :=
  if proof.algorithm = some ("none" : CStr) then if proof.jwk = none then 0 else -1
  else if proof.jwk ≠ none then 0 else -1

def jwtDecodeAndVerify (L : Extern) (token : CStr) (proof : ProofJWT) : Prog Sys (Int × ProofJWT) := do
  let (rc, proof) ← jwtDecode L token proof
  if rc ≠ 0 then return (-1, proof)
  if checkProofType proof ≠ 0 then return (-1, proof)
  if checkRegistrationJwkRules proof ≠ 0 then return (-1, proof)
  if (← verifySignatureWithJwk L token proof proof.jwk) ≠ 0 then return (-1, proof)
  return (0, proof)

/-- Refresh proofs must not embed a key; the registered key is pinned. -/
def jwtVerifyWithJwk (L : Extern) (token jwkJson : CStr) (proof : ProofJWT) : Prog Sys (Int × ProofJWT) := do
  let (rc, proof) ← jwtDecode L token proof
  if rc ≠ 0 then return (-1, proof)
  if proof.jwk ≠ none then return (-1, proof)
  if checkProofType proof ≠ 0 then return (-1, proof)
  if proof.algorithm = some ("none" : CStr) then return (-1, proof)
  if (← verifySignatureWithJwk L token proof (some jwkJson)) ≠ 0 then return (-1, proof)
  return (0, proof)

end OpenDbsc
