/-
The signed bytes of a token.

A signature is over the text before the token's second dot. Decoding takes
all it acts upon from there, and verification hands OpenSSL that text and no
other (`signed_bytes_cover`): the two cut the token apart separately, and
both where its dots are.
-/
import OpenDbsc.Client
import OpenDbsc.JwtFacts

namespace OpenDbsc

open Effects Prog

/-- The text before the dot that `n` others precede. -/
def beforeDot : Nat → CStr → CStr
  | _, [] => []
  | 0, c :: s => if c = '.' then [] else c :: beforeDot 0 s
  | n + 1, c :: s => c :: beforeDot (if c = '.' then n else n + 1) s

/-- The text before the second dot. -/
def signedText (token : CStr) : CStr := beforeDot 1 token

theorem beforeDot_append (n : Nat) {xs : CStr} (h : '.' ∉ xs) (s : CStr) :
    beforeDot n (xs ++ s) = xs ++ beforeDot n s := by
  induction xs with
  | nil => rfl
  | cons c xs ih =>
    obtain ⟨hc, hxs⟩ := not_or.mp (mt List.mem_cons.mpr h)
    cases n with
    | zero => rw [List.cons_append, beforeDot, if_neg (Ne.symm hc), ih hxs, List.cons_append]
    | succ n => rw [List.cons_append, beforeDot, if_neg (Ne.symm hc), ih hxs, List.cons_append]

theorem HasParts.signedText {token header payload signature : CStr} (h : HasParts token header payload signature) :
    signedText token = header ++ '.' :: payload := by
  rw [h.eq, OpenDbsc.signedText, beforeDot_append 1 h.header, beforeDot, if_pos rfl, beforeDot_append 0 h.payload,
    beforeDot, if_pos rfl, List.append_nil]

/-- A token with exactly two dots has its three parts. -/
theorem hasParts_of_count {token : CStr} (h : token.count '.' = 2) :
    ∃ header payload signature, HasParts token header payload signature := by
  have hfirst : '.' ∈ token := List.count_pos_iff.mp (by omega)
  obtain ⟨header, rest, rfl, hheader⟩ := List.eq_append_cons_of_mem hfirst
  rw [List.count_append, List.count_cons_self, List.count_eq_zero.mpr hheader] at h
  have hsecond : '.' ∈ rest := List.count_pos_iff.mp (by omega)
  obtain ⟨payload, signature, rfl, hpayload⟩ := List.eq_append_cons_of_mem hsecond
  rw [List.count_append, List.count_cons_self, List.count_eq_zero.mpr hpayload] at h
  exact ⟨header, payload, signature, rfl, hheader, hpayload, List.count_eq_zero.mp (by omega)⟩

/-- A verification whose digests are the same over the signed text comes to
the same, whatever they are over other texts. -/
theorem HasParts.verifySignatureWithJwk_congr {L : Extern} {token header payload signature : CStr}
    (h : HasParts token header payload signature) {digestVerify : L.Key → List UInt8 → List UInt8 → Bool}
    (hsame : ∀ key sig, digestVerify key (bytesOf (header ++ '.' :: payload)) sig =
      L.digestVerify key (bytesOf (header ++ '.' :: payload)) sig) (proof : ProofJWT) (jwkJson : Option CStr) :
    verifySignatureWithJwk { L with digestVerify } token proof jwkJson =
      verifySignatureWithJwk L token proof jwkJson := by
  have hcut : token.take (header.length + payload.length + 2 - 1) = header ++ '.' :: payload := h.cut.2.2.2
  have hder : ∀ sig, es256RawToDer { L with digestVerify } sig = es256RawToDer L sig := fun _ => rfl
  have hparse : ∀ s, cJsonParse { L with digestVerify } s = cJsonParse L s := fun _ => rfl
  have hkey : ∀ jwk, evpPkeyFromJwk { L with digestVerify } jwk = evpPkeyFromJwk L jwk := fun _ => rfl
  unfold verifySignatureWithJwk
  rw [h.split]
  cases proof.algorithm with
  | none => rfl
  | some algorithm =>
    cases jwkJson with
    | none => rfl
    | some jwkJson =>
      cases proof.signature with
      | none => rfl
      | some signature =>
        simp only [hder, hparse, hkey, hcut, hsame]
        split
        · rfl
        split
        · rfl
        refine congrArg (base64urlDecode signature >>= ·) (funext fun sig => ?_)
        cases sig with
        | none => rfl
        | some sig =>
          refine congrArg (_ >>= ·) (funext fun der => ?_)
          cases der with
          | none => rfl
          | some der =>
            refine congrArg (cJsonParse L jwkJson >>= ·) (funext fun jwk => ?_)
            cases jwk with
            | none => rfl
            | some jwk =>
              refine congrArg (evpPkeyFromJwk L jwk >>= ·) (funext fun key => ?_)
              cases key <;> rfl

/-- Two tokens with the same signed text differ in their signature parts alone. -/
theorem decodeParts_signature {L : Extern} {token token' header payload signature signature' : CStr}
    (h : HasParts token header payload signature) (h' : HasParts token' header payload signature') :
    decodeParts L token' = (decodeParts L token).map fun parts => (parts.1, parts.2.1, signature') := by
  rw [h.decode, h'.decode]
  cases (base64urlBytes header).bind L.parseWithLength with
  | none => rfl
  | some headerJson =>
    cases (base64urlBytes payload).bind L.parseWithLength with
    | none => rfl
    | some payloadJson => rfl

/-- The parts before the second dot are those of the signed text. -/
theorem HasParts.of_signedText {token token' header payload signature header' payload' signature' : CStr}
    (h : HasParts token header payload signature) (h' : HasParts token' header' payload' signature')
    (hsigned : OpenDbsc.signedText token' = OpenDbsc.signedText token) : header' = header ∧ payload' = payload := by
  rw [h.signedText, h'.signedText] at hsigned
  have hheader : beforeDot 0 (header' ++ '.' :: payload') = beforeDot 0 (header ++ '.' :: payload) := by rw [hsigned]
  rw [beforeDot_append 0 h'.header, beforeDot_append 0 h.header, beforeDot, if_pos rfl, beforeDot, if_pos rfl,
    List.append_nil, List.append_nil] at hheader
  subst hheader
  exact ⟨rfl, (List.cons.inj (List.append_cancel_left hsigned)).2⟩

/-- The fields of two proofs that come from what was signed. -/
structure SameClaims (proof proof' : ProofJWT) : Prop where
  algorithm : proof'.algorithm = proof.algorithm
  type : proof'.type = proof.type
  jwk : proof'.jwk = proof.jwk
  challenge : proof'.challenge = proof.challenge
  authorization : proof'.authorization = proof.authorization

theorem SameClaims.refl (proof : ProofJWT) : SameClaims proof proof := ⟨rfl, rfl, rfl, rfl, rfl⟩

/-- Only the signature of a parsed proof is the signature part's. -/
theorem proofParsed_signature (L : Extern) (header payload : Json) (signature signature' : CStr) :
    (proofParsed L header payload signature').1 = (proofParsed L header payload signature).1 ∧
      SameClaims (proofParsed L header payload signature).2 (proofParsed L header payload signature').2 := by
  unfold proofParsed
  by_cases hfields : Json.asString (header.getObjectItem "alg") = none ∨
    Json.asString (payload.getObjectItem "jti") = none
  · have hgone : ∀ signature, (proofOf L header payload signature).algorithm = none ∨
        (proofOf L header payload signature).challenge = none := fun _ => hfields
    simp only [if_pos (hgone _)]
    exact ⟨trivial, SameClaims.refl _⟩
  · have hthere : ∀ signature, ¬ ((proofOf L header payload signature).algorithm = none ∨
        (proofOf L header payload signature).challenge = none) := fun _ => hfields
    simp only [if_neg (hthere _)]
    exact ⟨trivial, rfl, rfl, rfl, rfl, rfl⟩

/-- **The signed bytes cover what is acted upon.** Verification is a matter of
the text before the second dot: no digest over another one is looked at, and a
signature that is there to be verified verifies over this one. Any other token
with that text decodes when this one does, to a proof with the same claims. -/
theorem signed_bytes_cover (L : Extern) {token : CStr} (hdots : token.count '.' = 2) :
    (∀ digestVerify proof jwkJson, (∀ key sig, digestVerify key (bytesOf (signedText token)) sig =
        L.digestVerify key (bytesOf (signedText token)) sig) →
      verifySignatureWithJwk { L with digestVerify } token proof jwkJson =
        verifySignatureWithJwk L token proof jwkJson) ∧
    (∀ (proof : ProofJWT) (algorithm signature json : CStr), proof.algorithm = some algorithm → algorithm = "ES256" ∨ algorithm = "RS256" →
      proof.signature = some signature →
      ((verifySignatureWithJwk L token proof (some json)).assuming allocOk = pure 0 ↔
        SignedUnder L json algorithm signature (signedText token))) ∧
    ∀ token' proof, token'.count '.' = 2 → signedText token' = signedText token →
      ∃ rc out out', (jwtDecode L token proof).assuming allocOk = pure (rc, out) ∧
        (jwtDecode L token' proof).assuming allocOk = pure (rc, out') ∧ SameClaims out out' := by
  obtain ⟨header, payload, signature, hparts⟩ := hasParts_of_count hdots
  refine ⟨fun digestVerify proof jwkJson hsame => ?_, fun proof algorithm sig json halg hknown hsig => ?_,
    fun token' proof hdots' hsigned => ?_⟩
  · rw [hparts.signedText] at hsame
    exact hparts.verifySignatureWithJwk_congr hsame proof jwkJson
  · rw [assuming_verifySignatureWithJwk, hparts.signedText, ← hparts.verifies]
    have hnone : proof.algorithm ≠ some ("none" : CStr) := by
      rw [halg]
      rcases hknown with rfl | rfl <;> decide
    have hacc :
      signatureAccepted L token proof (some json) = true ↔ signatureVerifies L token algorithm sig json = true := by
      rw [signatureAccepted_iff hnone]
      constructor
      · intro h
        obtain ⟨_, _, _, halg', -, hsig', hjson, hv⟩ := h
        cases halg.symm.trans halg'
        cases hsig.symm.trans hsig'
        cases hjson
        exact hv
      · intro hv
        exact ⟨algorithm, sig, json, halg, hknown, hsig, rfl, hv⟩
    rw [← hacc, ← returnCode_eq_zero]
    constructor
    · intro h
      injection h
    · intro h
      rw [h]
  · obtain ⟨header', payload', signature', hparts'⟩ := hasParts_of_count hdots'
    obtain ⟨rfl, rfl⟩ := hparts.of_signedText hparts' hsigned
    simp only [assuming_jwtDecode_any, decodeParts_signature hparts hparts']
    cases decodeParts L token with
    | none => exact ⟨-1, proof, proof, rfl, rfl, SameClaims.refl _⟩
    | some parts =>
      obtain ⟨headerJson, payloadJson, signature₀⟩ := parts
      obtain ⟨hrc, hclaims⟩ := proofParsed_signature L headerJson payloadJson signature₀ signature'
      exact ⟨_, _, _, rfl, congrArg (fun rc => pure (rc, _)) hrc, hclaims⟩

theorem jwtDecode_of_decodeProof {L : Extern} {token : CStr} {proof out : ProofJWT} {rc : Int}
    (hproof : decodeProof L token = some proof)
    (hout : (jwtDecode L token proofJwtInit).assuming allocOk = pure (rc, out)) :
    rc = 0 ∧ out = proof := by
  rw [assuming_jwtDecode, hproof] at hout
  injection hout with hout
  injection hout with hrc hproof
  exact ⟨hrc.symm, hproof.symm⟩

/-- Another signature under the same claims. -/
theorem signed_bytes_cover_resigned : (registrationToken "c").count '.' = 2 ∧
    ∃ out out', (jwtDecode (deviceExtern ["c"]) (registrationToken "c") proofJwtInit).assuming allocOk = pure (0, out) ∧
      (jwtDecode (deviceExtern ["c"]) (signedText (registrationToken "c") ++ ".AA") proofJwtInit).assuming allocOk =
        pure (0, out') ∧ SameClaims out out' := by
  have hdots : (registrationToken "c").count '.' = 2 := by decide +kernel
  have hdecodes : (decodeProof (deviceExtern ["c"]) (registrationToken "c")).isSome = true := by decide +kernel
  obtain ⟨proof, hproof⟩ := Option.isSome_iff_exists.mp hdecodes
  obtain ⟨rc, out, out', hout, hout', hclaims⟩ := (signed_bytes_cover (deviceExtern ["c"]) hdots).2.2
    (signedText (registrationToken "c") ++ ".AA") proofJwtInit (by decide +kernel) (by decide +kernel)
  obtain ⟨rfl, -⟩ := jwtDecode_of_decodeProof hproof hout
  exact ⟨hdots, out, out', hout, hout', hclaims⟩

end OpenDbsc
