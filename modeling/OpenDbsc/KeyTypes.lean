/-
Which keys verify which algorithms.

A token's `alg` decides how its signature is encoded, the JWK's `kty` which
key OpenSSL is given; nothing compares the two. So an ES256 token may be
verified under an RSA key and an RS256 token under an EC key, and the key is
of the algorithm's type exactly when OpenSSL rejects those (`keyTypesAgree_iff`).
-/
import OpenDbsc.JwtFacts

namespace OpenDbsc

open Effects Prog

/-! ## What a result of 0 says, whichever allocations fail -/

/-- A partial result is the decision's. -/
def ReturnsAtMost {α : Type} (p : Prog Sys (Option α)) (v : Option α) : Prop :=
  Ensures p fun out => ∀ a, out = some a → v = some a

theorem returnsAtMost_none {α : Type} {v : Option α} : ReturnsAtMost (pure none) v :=
  Ensures.pure fun _ h => nomatch h

theorem returnsAtMost_pure {α : Type} (v : Option α) : ReturnsAtMost (pure v) v := Ensures.pure fun _ h => h

theorem returnsAtMost_base64urlDecode (s : CStr) : ReturnsAtMost (base64urlDecode s) (base64urlBytes s) := by
  unfold base64urlDecode base64urlBytes
  split
  · exact returnsAtMost_pure none
  · refine Ensures.bind_any fun b₁ => ?_
    cases b₁ with
    | false => exact returnsAtMost_none
    | true =>
      refine Ensures.bind_any fun b₂ => ?_
      cases b₂ with
      | false => exact returnsAtMost_none
      | true => exact returnsAtMost_pure _

theorem returnsAtMost_jwkGetB64 (jwk : Json) (key : CStr) : ReturnsAtMost (jwkGetB64 jwk key) (jwkBytes jwk key) := by
  unfold jwkGetB64 jwkBytes
  cases Json.asString (jwk.getObjectItem key) with
  | none => exact returnsAtMost_pure none
  | some value => exact returnsAtMost_base64urlDecode value

theorem returnsAtMost_cJsonParse (L : Extern) (s : CStr) : ReturnsAtMost (cJsonParse L s) (L.parse s) := by
  refine Ensures.bind_any fun b => ?_
  cases b with
  | false => exact returnsAtMost_none
  | true => exact returnsAtMost_pure _

theorem returnsAtMost_evpPkeyFromFields {Key : Type} (jwk : Json) (key₁ key₂ : CStr)
    (build : List UInt8 → List UInt8 → Option Key) :
    ReturnsAtMost (evpPkeyFromFields jwk key₁ key₂ build) (keyFromFields jwk key₁ key₂ build) := by
  unfold evpPkeyFromFields keyFromFields
  refine Ensures.bind (returnsAtMost_jwkGetB64 jwk key₁) fun x hx => ?_
  cases x with
  | none => exact returnsAtMost_none
  | some x =>
    refine Ensures.bind (returnsAtMost_jwkGetB64 jwk key₂) fun y hy => ?_
    cases y with
    | none => exact returnsAtMost_none
    | some y =>
      rw [hx x rfl, hy y rfl]
      refine Ensures.bind_any fun b₁ => ?_
      cases b₁ with
      | false => exact returnsAtMost_none
      | true =>
        refine Ensures.bind_any fun b₂ => Ensures.bind_any fun b₃ => ?_
        cases b₂ <;> cases b₃ <;> first | exact returnsAtMost_none | skip
        simp only [Bool.not_true, Bool.or_self, Bool.false_eq_true, if_false, Option.bind_eq_bind, Option.bind_some]
        cases build x y with
        | none => exact returnsAtMost_none
        | some key =>
          refine Ensures.bind_any fun b₄ => ?_
          cases b₄ with
          | false => exact returnsAtMost_none
          | true => exact returnsAtMost_pure _

theorem returnsAtMost_evpPkeyFromJwk (L : Extern) (jwk : Json) :
    ReturnsAtMost (evpPkeyFromJwk L jwk) (keyFromJwk L jwk) := by
  unfold evpPkeyFromJwk keyFromJwk
  cases Json.asString (jwk.getObjectItem "kty") with
  | none => exact returnsAtMost_none
  | some kty =>
    simp only
    split
    · cases Json.asString (jwk.getObjectItem "crv") with
      | none => exact returnsAtMost_none
      | some crv =>
        by_cases hcrv : crv = "P-256"
        · simp only [hcrv, ne_eq, not_true_eq_false, if_false, if_true]
          exact returnsAtMost_evpPkeyFromFields jwk "x" "y" L.ecKey
        · simp only [ne_eq, hcrv, not_false_eq_true, if_true]
          exact returnsAtMost_none
    · split
      · exact returnsAtMost_evpPkeyFromFields jwk "n" "e" L.rsaKey
      · exact returnsAtMost_none

theorem returnsAtMost_es256RawToDer (L : Extern) (sig : List UInt8) :
    ReturnsAtMost (es256RawToDer L sig) (derSignature L sig) := by
  unfold es256RawToDer derSignature
  split
  · exact returnsAtMost_none
  · refine Ensures.bind_any fun b₁ => ?_
    cases b₁ with
    | false => exact returnsAtMost_none
    | true =>
      refine Ensures.bind_any fun b₂ => Ensures.bind_any fun b₃ => ?_
      cases b₂ <;> cases b₃ <;> first | exact returnsAtMost_none | skip
      refine Ensures.bind_any fun b₄ => ?_
      cases b₄ with
      | false => exact returnsAtMost_none
      | true =>
        by_cases hlen : (L.ecdsaDer (sig.take 32) (sig.drop 32)).length = 0
        · simp only [hlen, Bool.not_true, Bool.false_or, decide_true, if_true]
          exact returnsAtMost_none
        · simp only [hlen, Bool.not_true, Bool.false_or, decide_false, Bool.false_eq_true, if_false]
          exact returnsAtMost_pure _

theorem returnsAtMost_verifySignatureWithJwk (L : Extern) (token : CStr) (proof : ProofJWT) (jwkJson : Option CStr) :
    Ensures (verifySignatureWithJwk L token proof jwkJson) fun rc =>
      rc = 0 → signatureAccepted L token proof jwkJson = true := by
  have hfail : ∀ {v : Bool}, Ensures (pure (-1) : Prog Sys Int) fun rc => rc = 0 → v = true :=
    Ensures.pure fun h : (-1 : Int) = 0 => absurd h (by decide)
  unfold verifySignatureWithJwk signatureAccepted
  cases proof.algorithm with
  | none => exact hfail
  | some algorithm =>
    simp only
    split
    · exact Ensures.pure fun _ => rfl
    split
    · exact hfail
    cases jwkJson with
    | none => exact hfail
    | some jwkJson =>
      cases proof.signature with
      | none => exact hfail
      | some signature =>
        unfold signatureVerifies signatureBytes
        cases splitJwt token with
        | none => exact hfail
        | some parts =>
          refine Ensures.bind (returnsAtMost_base64urlDecode signature) fun sig hsig => ?_
          cases sig with
          | none => exact hfail
          | some sig =>
            simp only [hsig sig rfl, Option.bind_some]
            have hder : ReturnsAtMost (if algorithm = "ES256" then es256RawToDer L sig else pure (some sig))
                (if algorithm = "ES256" then derSignature L sig else some sig) := by
              split
              · exact returnsAtMost_es256RawToDer L sig
              · exact returnsAtMost_pure _
            refine Ensures.bind hder fun der hder => ?_
            cases der with
            | none => exact hfail
            | some der =>
              simp only [hder der rfl]
              refine Ensures.bind (returnsAtMost_cJsonParse L jwkJson) fun jwk hjwk => ?_
              cases jwk with
              | none => exact hfail
              | some jwk =>
                simp only [hjwk jwk rfl, Option.bind_some]
                refine Ensures.bind (returnsAtMost_evpPkeyFromJwk L jwk) fun key hkey => ?_
                cases key with
                | none => exact hfail
                | some key =>
                  simp only [hkey key rfl]
                  refine Ensures.bind_any fun b₁ => ?_
                  cases b₁ with
                  | false => exact hfail
                  | true =>
                    refine Ensures.bind_any fun b₂ => ?_
                    split
                    · rename_i hv; exact Ensures.pure fun _ => (Bool.and_eq_true_iff.mp hv).2
                    · exact hfail

/-! ## The key and the algorithm -/

/-- If the verification returns 0 for an algorithm other than none, the JWK's
type is the algorithm's, and an ES256 signature has 64 bytes. -/
def KeyTypesAgree (L : Extern) (token : CStr) (proof : ProofJWT) (jwkJson : Option CStr) : Prop :=
  ∀ tr, Trace (verifySignatureWithJwk L token proof jwkJson) tr 0 → proof.algorithm ≠ some ("none" : CStr) →
    ∃ jwk, jwkJson.bind L.parse = some jwk ∧
      (proof.algorithm = some ("ES256" : CStr) →
        Json.asString (jwk.getObjectItem "kty") = some ("EC" : CStr) ∧
        Json.asString (jwk.getObjectItem "crv") = some ("P-256" : CStr) ∧
        ∃ sig, proof.signature.bind base64urlBytes = some sig ∧ sig.length = 64) ∧
      (proof.algorithm = some ("RS256" : CStr) → Json.asString (jwk.getObjectItem "kty") = some ("RSA" : CStr))

/-- The key of a JWK whose type is not the algorithm's: RSA for ES256, EC for RS256. -/
def mismatchedKey (L : Extern) (algorithm : CStr) (jwk : Json) : Option L.Key :=
  if algorithm = "ES256" ∧ Json.asString (jwk.getObjectItem "kty") = some ("RSA" : CStr) ∨
      algorithm = "RS256" ∧ Json.asString (jwk.getObjectItem "kty") = some ("EC" : CStr) then
    keyFromJwk L jwk
  else none

theorem keyFromJwk_kty {L : Extern} {jwk : Json} {key : L.Key} (h : keyFromJwk L jwk = some key) :
    Json.asString (jwk.getObjectItem "kty") = some ("EC" : CStr) ∧
      Json.asString (jwk.getObjectItem "crv") = some ("P-256" : CStr) ∨
    Json.asString (jwk.getObjectItem "kty") = some ("RSA" : CStr) := by
  unfold keyFromJwk at h
  split at h
  · cases h
  · rename_i kty hkty
    split at h
    · rename_i hec
      split at h
      · rename_i hcrv; exact .inl ⟨hkty.trans (congrArg some hec), hcrv⟩
      · cases h
    · split at h
      · rename_i hrsa; exact .inr (hkty.trans (congrArg some hrsa))
      · cases h

theorem signatureBytes_es256 {L : Extern} {signature : CStr} {sig : List UInt8}
    (h : signatureBytes L "ES256" signature = some sig) :
    ∃ raw, base64urlBytes signature = some raw ∧ raw.length = 64 := by
  unfold signatureBytes at h
  obtain ⟨raw, hraw, hder⟩ := Option.bind_eq_some_iff.mp h
  rw [if_pos rfl] at hder
  unfold derSignature at hder
  split at hder
  · cases hder
  · rename_i hlen
    exact ⟨raw, hraw, Classical.not_not.mp hlen⟩

theorem mismatchedKey_eq_some {L : Extern} {algorithm : CStr} {jwk : Json} {key : L.Key} :
    mismatchedKey L algorithm jwk = some key ↔
      (algorithm = "ES256" ∧ Json.asString (jwk.getObjectItem "kty") = some ("RSA" : CStr) ∨
        algorithm = "RS256" ∧ Json.asString (jwk.getObjectItem "kty") = some ("EC" : CStr)) ∧
      keyFromJwk L jwk = some key := by
  unfold mismatchedKey
  split
  · rename_i h; exact ⟨fun hk => ⟨h, hk⟩, fun hk => hk.2⟩
  · rename_i h; exact ⟨fun hk => (nomatch hk), fun hk => absurd hk.1 h⟩

/-- **The key is of the algorithm's type exactly when OpenSSL rejects the
signature under a key of the other type.** -/
theorem keyTypesAgree_iff (L : Extern) (token : CStr) (proof : ProofJWT) (jwkJson : Option CStr) :
    KeyTypesAgree L token proof jwkJson ↔
      ∀ jwk algorithm signature pStart sStart key sig, jwkJson.bind L.parse = some jwk →
        proof.algorithm = some algorithm → proof.signature = some signature → splitJwt token = some (pStart, sStart) →
        mismatchedKey L algorithm jwk = some key → signatureBytes L algorithm signature = some sig →
        L.digestVerify key (bytesOf (token.take (sStart - 1))) sig = false := by
  have hes_rs : ("ES256" : CStr) ≠ "RS256" := by decide
  have hec_rsa : ("EC" : CStr) ≠ "RSA" := by decide
  constructor
  · intro hagree jwk algorithm signature pStart sStart key sig hjwk halg hs hsplit hkey hsig
    obtain ⟨hkind, hkey⟩ := mismatchedKey_eq_some.mp hkey
    by_contra hv
    rw [Bool.not_eq_false] at hv
    have hnone : proof.algorithm ≠ some ("none" : CStr) := by
      rw [halg]
      rcases hkind with ⟨rfl, -⟩ | ⟨rfl, -⟩ <;> decide
    obtain ⟨json, hjson, hjwk'⟩ := Option.bind_eq_some_iff.mp hjwk
    have hacc : signatureAccepted L token proof jwkJson = true :=
      (signatureAccepted_iff hnone).mpr ⟨algorithm, signature, json, halg, hkind.imp And.left And.left, hs, hjson,
        signatureVerifies_iff.mpr ⟨pStart, sStart, sig, jwk, key, hsplit, hsig, hjwk', hkey, hv⟩⟩
    have hret : Trace ((verifySignatureWithJwk L token proof jwkJson).assuming allocOk) [] 0 := by
      rw [assuming_verifySignatureWithJwk, hacc]
      exact .ret
    obtain ⟨tr, ht, -, -⟩ := Trace.of_assuming hret
    obtain ⟨jwk', hjwk', hes, hrs⟩ := hagree tr ht hnone
    cases hjwk.symm.trans hjwk'
    rcases hkind with ⟨rfl, hkty⟩ | ⟨rfl, hkty⟩
    · exact hec_rsa (Option.some.inj ((hes halg).1.symm.trans hkty))
    · exact hec_rsa (Option.some.inj (hkty.symm.trans (hrs halg)))
  · intro hreject tr ht hnone
    have hacc := returnsAtMost_verifySignatureWithJwk L token proof jwkJson tr 0 ht rfl
    obtain ⟨algorithm, signature, json, halg, -, hs, hjson, hv⟩ := (signatureAccepted_iff hnone).mp hacc
    obtain ⟨pStart, sStart, sig, jwk, key, hsplit, hsig, hjwk, hkey, hv⟩ := signatureVerifies_iff.mp hv
    have hparse : jwkJson.bind L.parse = some jwk := by rw [hjson, Option.bind_some, hjwk]
    have hmatch : ¬(algorithm = "ES256" ∧ Json.asString (jwk.getObjectItem "kty") = some ("RSA" : CStr) ∨
        algorithm = "RS256" ∧ Json.asString (jwk.getObjectItem "kty") = some ("EC" : CStr)) := by
      intro hkind
      have hno := hreject jwk algorithm signature pStart sStart key sig hparse halg hs hsplit
        (mismatchedKey_eq_some.mpr ⟨hkind, hkey⟩) hsig
      rw [hv] at hno
      cases hno
    refine ⟨jwk, hparse, ?_, ?_⟩
    · intro hes
      cases halg.symm.trans hes
      rcases keyFromJwk_kty hkey with ⟨hec, hcrv⟩ | hrsa
      · rw [hs]
        exact ⟨hec, hcrv, signatureBytes_es256 hsig⟩
      · exact absurd (.inl ⟨rfl, hrsa⟩) hmatch
    · intro hrs
      cases halg.symm.trans hrs
      rcases keyFromJwk_kty hkey with ⟨hec, -⟩ | hrsa
      · exact absurd (.inr ⟨rfl, hec⟩) hmatch
      · exact hrsa

/-! An ES256 token with an RSA key in its header, accepted. -/

def crossJwk : Json := .obj [("kty", .str "RSA"), ("n", .str "AQAB"), ("e", .str "AQAB")]

def crossHeader : Json := .obj [("typ", .str "dbsc+jwt"), ("alg", .str "ES256"), ("jwk", crossJwk)]

def crossPayload : Json := .obj [("jti", .str "c")]

def crossExtern : Extern := Extern.knowing [crossHeader, crossPayload, crossJwk] fun _ _ => true

/-- The header, the payload and 64 zero bytes. -/
def crossToken : CStr :=
  "eyJ0eXAiOiJkYnNjK2p3dCIsImFsZyI6IkVTMjU2IiwiandrIjp7Imt0eSI6IlJTQSIsIm4iOiJBUUFCIiwiZSI6IkFRQUIifX0" ++
    ".eyJqdGkiOiJjIn0." ++ List.replicate 86 'A'

def crossProof : ProofJWT := proofOf crossExtern crossHeader crossPayload (List.replicate 86 'A')

theorem keyTypes_disagree : decodeProof crossExtern crossToken = some crossProof ∧
    ¬KeyTypesAgree crossExtern crossToken crossProof crossProof.jwk := by
  refine ⟨by decide +kernel, ?_⟩
  intro hagree
  have hzero : (follow (fun _ => allocOk) 0 (verifySignatureWithJwk crossExtern crossToken crossProof
      crossProof.jwk)).map (·.2) = some 0 := by decide +kernel
  obtain ⟨⟨tr, rc⟩, hrun, hrc⟩ := Option.map_eq_some_iff.mp hzero
  cases hrc
  obtain ⟨jwk, hjwk, hes, -⟩ := hagree tr (trace_follow hrun) (by decide)
  have hparse : crossProof.jwk.bind crossExtern.parse = some crossJwk := rfl
  cases hjwk.symm.trans hparse
  exact absurd (hes (by decide)).1 (by decide)

end OpenDbsc
