/-
What the token checks decide.

With every allocation succeeding no check asks the environment anything, so
each function is a decision about its arguments: `decodeProof`, `keyFromJwk`,
`signatureVerifies`. The `assuming_` lemmas say so, one for each function;
the manager's proofs use the decisions alone.
-/
import OpenDbsc.Jwt

namespace OpenDbsc

open Effects Prog

/-! ## Decisions -/

def base64urlBytes (s : CStr) : Option (List UInt8) :=
  if s.length = 0 then none else base64urlGroups (base64urlPadded s)

/-- The proof a decoded header and payload make, with the token's signature part. -/
def proofOf (L : Extern) (header payload : Json) (signature : CStr) : ProofJWT where
  algorithm := Json.asString (header.getObjectItem "alg")
  type := Json.asString (header.getObjectItem "typ")
  jwk := (Json.asObject (header.getObjectItem "jwk")).map L.printUnformatted
  challenge := Json.asString (payload.getObjectItem "jti")
  authorization := Json.asString (payload.getObjectItem "authorization")
  signature := some signature

/-- What parsing leaves: a proof without an algorithm or a challenge is thrown away. -/
def proofParsed (L : Extern) (header payload : Json) (signature : CStr) : Int × ProofJWT :=
  let proof := proofOf L header payload signature
  if proof.algorithm = none ∨ proof.challenge = none then (-1, proofJwtInit) else (0, proof)

/-- The header and the payload of a token, and its signature part. -/
def decodeParts (L : Extern) (token : CStr) : Option (Json × Json × CStr) := do
  let (pStart, sStart) ← splitJwt token
  let headerJson ← base64urlBytes (token.take (pStart - 1))
  let payloadJson ← base64urlBytes ((token.drop pStart).take (sStart - pStart - 1))
  let header ← L.parseWithLength headerJson
  let payload ← L.parseWithLength payloadJson
  some (header, payload, token.drop sStart)

def decodeProof (L : Extern) (token : CStr) : Option ProofJWT := do
  let (header, payload, signature) ← decodeParts L token
  let proof := proofOf L header payload signature
  if proof.algorithm = none ∨ proof.challenge = none then none else some proof

def jwkBytes (jwk : Json) (key : CStr) : Option (List UInt8) :=
  (Json.asString (jwk.getObjectItem key)).bind base64urlBytes

def keyFromFields {Key : Type} (jwk : Json) (key₁ key₂ : CStr) (build : List UInt8 → List UInt8 → Option Key) :
    Option Key := do
  let x ← jwkBytes jwk key₁
  let y ← jwkBytes jwk key₂
  build x y

/-- The key a JWK describes, by its `kty` alone. -/
def keyFromJwk (L : Extern) (jwk : Json) : Option L.Key :=
  match Json.asString (jwk.getObjectItem "kty") with
  | none => none
  | some kty =>
    if kty = "EC" then
      if Json.asString (jwk.getObjectItem "crv") = some ("P-256" : CStr) then keyFromFields jwk "x" "y" L.ecKey
      else none
    else if kty = "RSA" then keyFromFields jwk "n" "e" L.rsaKey
    else none

def derSignature (L : Extern) (sig : List UInt8) : Option (List UInt8) :=
  if sig.length ≠ 64 then none
  else if (L.ecdsaDer (sig.take 32) (sig.drop 32)).length = 0 then none
  else some (L.ecdsaDer (sig.take 32) (sig.drop 32))

/-- The bytes OpenSSL is given as the signature. -/
def signatureBytes (L : Extern) (algorithm signature : CStr) : Option (List UInt8) :=
  (base64urlBytes signature).bind fun sig => if algorithm = "ES256" then derSignature L sig else some sig

/-- The signature verifies under the key of `jwkJson`, over the bytes before the second dot. -/
def signatureVerifies (L : Extern) (token algorithm signature jwkJson : CStr) : Bool :=
  match splitJwt token, signatureBytes L algorithm signature, (L.parse jwkJson).bind (keyFromJwk L) with
  | some (_, sStart), some sig, some key => L.digestVerify key (bytesOf (token.take (sStart - 1))) sig
  | _, _, _ => false

/-- `verify_signature_with_jwk` returns 0. -/
def signatureAccepted (L : Extern) (token : CStr) (proof : ProofJWT) (jwkJson : Option CStr) : Bool :=
  match proof.algorithm with
  | none => false
  | some algorithm =>
    if algorithm = "none" then true
    else if algorithm ≠ "ES256" ∧ algorithm ≠ "RS256" then false
    else match jwkJson, proof.signature with
      | some jwkJson, some signature => signatureVerifies L token algorithm signature jwkJson
      | _, _ => false

/-- The registration flow accepts a decoded proof. -/
def registrationAccepted (L : Extern) (token : CStr) (proof : ProofJWT) : Bool :=
  decide (checkProofType proof = 0) && decide (checkRegistrationJwkRules proof = 0) &&
    signatureAccepted L token proof proof.jwk

/-- The refresh flow accepts a decoded proof. -/
def refreshAccepted (L : Extern) (token jwkJson : CStr) (proof : ProofJWT) : Bool :=
  decide (proof.jwk = none) && decide (checkProofType proof = 0) &&
    decide (proof.algorithm ≠ some ("none" : CStr)) && signatureAccepted L token proof (some jwkJson)

/-- C's return code for a decision. -/
def returnCode (ok : Bool) : Int := if ok then 0 else -1

@[simp] theorem returnCode_eq_zero (ok : Bool) : returnCode ok = 0 ↔ ok = true := by
  cases ok <;> decide

theorem signatureVerifies_iff {L : Extern} {token algorithm signature jwkJson : CStr} :
    signatureVerifies L token algorithm signature jwkJson = true ↔ ∃ pStart sStart sig jwk key,
      splitJwt token = some (pStart, sStart) ∧ signatureBytes L algorithm signature = some sig ∧
      L.parse jwkJson = some jwk ∧ keyFromJwk L jwk = some key ∧
      L.digestVerify key (bytesOf (token.take (sStart - 1))) sig = true := by
  unfold signatureVerifies
  constructor
  · intro h
    split at h
    · rename_i pStart sStart sig key hsplit hsig hkey
      obtain ⟨jwk, hjwk, hkey⟩ := Option.bind_eq_some_iff.mp hkey
      exact ⟨pStart, sStart, sig, jwk, key, hsplit, hsig, hjwk, hkey, h⟩
    · cases h
  · intro h
    obtain ⟨pStart, sStart, sig, jwk, key, hsplit, hsig, hjwk, hkey, hv⟩ := h
    simp only [hsplit, hsig, hjwk, Option.bind_some, hkey, hv]

theorem signatureAccepted_iff {L : Extern} {token : CStr} {proof : ProofJWT} {jwkJson : Option CStr}
    (hnone : proof.algorithm ≠ some ("none" : CStr)) :
    signatureAccepted L token proof jwkJson = true ↔ ∃ algorithm signature json,
      proof.algorithm = some algorithm ∧ (algorithm = "ES256" ∨ algorithm = "RS256") ∧
      proof.signature = some signature ∧ jwkJson = some json ∧
      signatureVerifies L token algorithm signature json = true := by
  unfold signatureAccepted
  cases halg : proof.algorithm with
  | none => simp
  | some algorithm =>
    have hne : algorithm ≠ "none" := fun he => hnone (halg.trans (congrArg some he))
    simp only [if_neg hne]
    by_cases hother : algorithm ≠ "ES256" ∧ algorithm ≠ "RS256"
    · rw [if_pos hother]
      constructor
      · intro h; cases h
      · intro h
        obtain ⟨_, _, _, heq, hknown, -⟩ := h
        cases heq
        exact absurd hknown (not_or.mpr hother)
    · rw [if_neg hother]
      have hknown : algorithm = "ES256" ∨ algorithm = "RS256" := by
        by_cases hes : algorithm = "ES256"
        · exact .inl hes
        · exact .inr (Classical.not_not.mp fun hrs => hother ⟨hes, hrs⟩)
      cases jwkJson with
      | none => simp
      | some json =>
        cases proof.signature with
        | none => simp
        | some signature =>
          constructor
          · intro h; exact ⟨algorithm, signature, json, rfl, hknown, rfl, rfl, h⟩
          · intro h
            obtain ⟨_, _, _, heq, -, hs, hj, hv⟩ := h
            cases heq; cases hs; cases hj
            exact hv

/-! ## The parts of a token -/

/-- Three parts with dots between them, and none inside. -/
structure HasParts (token header payload signature : CStr) : Prop where
  eq : token = header ++ '.' :: (payload ++ '.' :: signature)
  header : '.' ∉ header
  payload : '.' ∉ payload
  signature : '.' ∉ signature

theorem strchr_dot (skipped ys : CStr) {xs : CStr} (h : '.' ∉ xs) :
    strchr (skipped ++ (xs ++ '.' :: ys)) '.' skipped.length = some (skipped.length + xs.length) := by
  have hxs : xs.findIdx? (· == '.') = none :=
    List.findIdx?_eq_none_iff.mpr fun x hx => beq_false_of_ne fun he => h (he ▸ hx)
  have hdot : ('.' :: ys).findIdx? (· == '.') = some 0 := rfl
  rw [strchr, List.drop_left, List.findIdx?_append, hxs, hdot, Option.none_or, Option.map_some, Option.map_some,
    Nat.zero_add]

theorem strchr_no_dot (skipped : CStr) {xs : CStr} (h : '.' ∉ xs) :
    strchr (skipped ++ xs) '.' skipped.length = none := by
  rw [strchr, List.drop_left, Option.map_eq_none_iff, List.findIdx?_eq_none_iff]
  exact fun x hx => beq_false_of_ne fun he => h (he ▸ hx)

section

variable {token header payload signature : CStr}

/-- The text before a part, up to and with its dot. -/
theorem HasParts.assoc (h : HasParts token header payload signature) :
    token = [] ++ (header ++ '.' :: (payload ++ '.' :: signature)) ∧
      token = (header ++ ['.']) ++ (payload ++ '.' :: signature) ∧
      token = (header ++ '.' :: (payload ++ ['.'])) ++ signature := by
  rw [h.eq]
  simp

theorem HasParts.split (h : HasParts token header payload signature) :
    splitJwt token = some (header.length + 1, header.length + payload.length + 2) := by
  obtain ⟨h₁, h₂, h₃⟩ := h.assoc
  have hfirst : strchr token '.' 0 = some header.length := by
    have hs := strchr_dot [] (payload ++ '.' :: signature) h.header
    rwa [← h₁, List.length_nil, Nat.zero_add] at hs
  have hsecond : strchr token '.' (header.length + 1) = some (header.length + 1 + payload.length) := by
    have hs := strchr_dot (header ++ ['.']) signature h.payload
    rwa [← h₂, List.length_append, List.length_singleton] at hs
  have hthird : strchr token '.' (header.length + 1 + payload.length + 1) = none := by
    have hs := strchr_no_dot (header ++ '.' :: (payload ++ ['.'])) h.signature
    have hlen : (header ++ '.' :: (payload ++ ['.'])).length = header.length + 1 + payload.length + 1 := by
      simp only [List.length_append, List.length_cons, List.length_nil]
      omega
    rwa [← h₃, hlen] at hs
  have hend : header.length + 1 + payload.length + 1 = header.length + payload.length + 2 := by omega
  simp only [splitJwt, Option.bind_eq_bind, hfirst, hsecond, hthird, Option.bind_some, Option.isSome_none,
    Bool.false_eq_true, if_false]
  exact congrArg (fun sStart => some (header.length + 1, sStart)) hend

theorem splitJwt_parts {offsets : Nat × Nat} (h : splitJwt token = some offsets) :
    ∃ header payload signature, HasParts token header payload signature := by
  unfold splitJwt at h
  by_cases hfirst : '.' ∈ token
  · obtain ⟨header, rest, rfl, hheader⟩ := List.eq_append_cons_of_mem hfirst
    have hs₁ : strchr (header ++ '.' :: rest) '.' 0 = some header.length := by
      have hs := strchr_dot [] rest hheader
      rwa [List.nil_append, List.length_nil, Nat.zero_add] at hs
    have hassoc : header ++ '.' :: rest = (header ++ ['.']) ++ rest := by simp
    by_cases hsecond : '.' ∈ rest
    · obtain ⟨payload, signature, rfl, hpayload⟩ := List.eq_append_cons_of_mem hsecond
      refine ⟨header, payload, signature, rfl, hheader, hpayload, fun hthird => ?_⟩
      obtain ⟨before, after, rfl, hbefore⟩ := List.eq_append_cons_of_mem hthird
      have hs₂ := strchr_dot (header ++ ['.']) (before ++ '.' :: after) hpayload
      rw [← hassoc, List.length_append, List.length_singleton] at hs₂
      have hs₃ := strchr_dot (header ++ '.' :: (payload ++ ['.'])) after hbefore
      have hlen : (header ++ '.' :: (payload ++ ['.'])).length = header.length + 1 + payload.length + 1 := by
        simp only [List.length_append, List.length_cons, List.length_nil]
        omega
      have hassoc' : header ++ '.' :: (payload ++ ['.']) ++ (before ++ '.' :: after) =
          header ++ '.' :: (payload ++ '.' :: (before ++ '.' :: after)) := by simp
      rw [hassoc', hlen] at hs₃
      simp only [Option.bind_eq_bind, hs₁, hs₂, hs₃, Option.bind_some, Option.isSome_some, if_true] at h
      cases h
    · have hs₂ := strchr_no_dot (header ++ ['.']) hsecond
      rw [← hassoc, List.length_append, List.length_singleton] at hs₂
      simp only [Option.bind_eq_bind, hs₁, hs₂, Option.bind_some, Option.bind_none] at h
      cases h
  · have hs₁ := strchr_no_dot [] hfirst
    rw [List.nil_append, List.length_nil] at hs₁
    simp only [Option.bind_eq_bind, hs₁, Option.bind_none] at h
    cases h

/-- Where the source cuts a token, its parts are. -/
theorem HasParts.cut (h : HasParts token header payload signature) :
    token.take header.length = header ∧ (token.drop (header.length + 1)).take payload.length = payload ∧
      token.drop (header.length + payload.length + 2) = signature ∧
      token.take (header.length + payload.length + 1) = header ++ '.' :: payload := by
  have hmessage : token = (header ++ '.' :: payload) ++ '.' :: signature := by rw [h.eq]; simp
  have hlen : (header ++ '.' :: payload).length = header.length + payload.length + 1 := by
    rw [List.length_append, List.length_cons]
    omega
  refine ⟨?_, ?_, ?_, ?_⟩
  · rw [h.eq, List.take_left]
  · rw [h.assoc.2.1, show header.length + 1 = (header ++ ['.']).length by simp, List.drop_left, List.take_left]
  · have hall : header.length + payload.length + 2 = (header ++ '.' :: (payload ++ ['.'])).length := by
      simp
      omega
    rw [h.assoc.2.2, hall, List.drop_left]
  · rw [← hlen, hmessage, List.take_left]

end

/-- A token decodes part by part. -/
theorem HasParts.decode {L : Extern} {token header payload signature : CStr}
    (h : HasParts token header payload signature) :
    decodeParts L token = (do
      let headerJson ← (base64urlBytes header).bind L.parseWithLength
      let payloadJson ← (base64urlBytes payload).bind L.parseWithLength
      some (headerJson, payloadJson, signature)) := by
  obtain ⟨hheader, hpayload, hsignature, -⟩ := h.cut
  have hlen : header.length + payload.length + 2 - (header.length + 1) - 1 = payload.length := by omega
  simp only [decodeParts, h.split, Option.bind_eq_bind, Option.bind_some, Nat.add_sub_cancel, hlen, hheader, hpayload,
    hsignature]
  cases base64urlBytes header with
  | none => rfl
  | some bytes =>
    cases base64urlBytes payload with
    | none => cases hj : L.parseWithLength bytes <;> simp [hj]
    | some bytes' => rfl

theorem decodeProof_eq_some {L : Extern} {token : CStr} {proof : ProofJWT} :
    decodeProof L token = some proof ↔ ∃ header payload signature algorithm challenge,
      decodeParts L token = some (header, payload, signature) ∧ proof = proofOf L header payload signature ∧
      proof.algorithm = some algorithm ∧ proof.challenge = some challenge := by
  unfold decodeProof
  constructor
  · intro h
    obtain ⟨⟨header, payload, signature⟩, hparts, h⟩ := Option.bind_eq_some_iff.mp h
    simp only at h
    split at h
    · cases h
    · rename_i hfields
      obtain ⟨halg, hchallenge⟩ := not_or.mp hfields
      obtain ⟨algorithm, halg⟩ := Option.ne_none_iff_exists'.mp halg
      obtain ⟨challenge, hchallenge⟩ := Option.ne_none_iff_exists'.mp hchallenge
      cases h
      exact ⟨header, payload, signature, algorithm, challenge, hparts, rfl, halg, hchallenge⟩
  · intro h
    obtain ⟨header, payload, signature, algorithm, challenge, hparts, rfl, halg, hchallenge⟩ := h
    simp only [Option.bind_eq_bind, hparts, Option.bind_some]
    rw [if_neg]
    rw [halg, hchallenge]
    exact not_or.mpr ⟨Option.some_ne_none _, Option.some_ne_none _⟩

theorem decodeParts_eq_some {L : Extern} {token signature : CStr} {headerJson payloadJson : Json} :
    decodeParts L token = some (headerJson, payloadJson, signature) ↔ ∃ header payload,
      HasParts token header payload signature ∧ (base64urlBytes header).bind L.parseWithLength = some headerJson ∧
      (base64urlBytes payload).bind L.parseWithLength = some payloadJson := by
  constructor
  · intro h
    obtain ⟨offsets, hsplit, -⟩ := Option.bind_eq_some_iff.mp h
    obtain ⟨header, payload, signature', hparts⟩ := splitJwt_parts hsplit
    rw [hparts.decode] at h
    obtain ⟨headerJson', hheader, h⟩ := Option.bind_eq_some_iff.mp h
    obtain ⟨payloadJson', hpayload, h⟩ := Option.bind_eq_some_iff.mp h
    simp only [Option.some.injEq, Prod.mk.injEq] at h
    obtain ⟨rfl, rfl, rfl⟩ := h
    exact ⟨header, payload, hparts, hheader, hpayload⟩
  · intro h
    obtain ⟨header, payload, hparts, hheader, hpayload⟩ := h
    rw [hparts.decode, hheader, hpayload]
    rfl

/-- A signature over `message` under the key of `jwkJson`, encoded as `algorithm` has it. -/
def SignedUnder (L : Extern) (jwkJson algorithm signature message : CStr) : Prop :=
  ∃ jwk key sig, L.parse jwkJson = some jwk ∧ keyFromJwk L jwk = some key ∧
    signatureBytes L algorithm signature = some sig ∧ L.digestVerify key (bytesOf message) sig = true

theorem HasParts.verifies {L : Extern} {token header payload signature algorithm signature' jwkJson : CStr}
    (h : HasParts token header payload signature) :
    signatureVerifies L token algorithm signature' jwkJson = true ↔
      SignedUnder L jwkJson algorithm signature' (header ++ '.' :: payload) := by
  rw [signatureVerifies_iff]
  constructor
  · intro hv
    obtain ⟨pStart, sStart, sig, jwk, key, hsplit, hsig, hjwk, hkey, hv⟩ := hv
    cases h.split.symm.trans hsplit
    rw [Nat.add_sub_cancel (m := 1) (n := header.length + payload.length + 1), h.cut.2.2.2] at hv
    exact ⟨jwk, key, sig, hjwk, hkey, hsig, hv⟩
  · intro hv
    obtain ⟨jwk, key, sig, hjwk, hkey, hsig, hv⟩ := hv
    refine ⟨_, _, sig, jwk, key, h.split, hsig, hjwk, hkey, ?_⟩
    rwa [show header.length + payload.length + 2 - 1 = header.length + payload.length + 1 by omega, h.cut.2.2.2]

/-! ## With every allocation succeeding -/

@[simp] theorem assuming_base64urlDecode (s : CStr) :
    (base64urlDecode s).assuming allocOk = pure (base64urlBytes s) := by
  unfold base64urlDecode base64urlBytes
  split
  · rfl
  · simp

@[simp] theorem assuming_strndupNull (s : CStr) (start n : Nat) :
    (strndupNull s start n).assuming allocOk = pure (some ((s.drop start).take n)) := by
  simp [strndupNull]

@[simp] theorem assuming_dupField (field : Option CStr) : (dupField field).assuming allocOk = pure field := by
  cases field with
  | none => rfl
  | some s => simp [dupField]

@[simp] theorem assuming_cJsonParseWithLength (L : Extern) (bytes : List UInt8) :
    (cJsonParseWithLength L bytes).assuming allocOk = pure (L.parseWithLength bytes) := by
  simp [cJsonParseWithLength]

@[simp] theorem assuming_printField (L : Extern) (field : Option Json) :
    (printField L field).assuming allocOk = pure (field.map L.printUnformatted) := by
  cases field with
  | none => rfl
  | some j => simp [printField]

theorem assuming_parseProof (L : Extern) (headerJson payloadJson : List UInt8) (signatureRaw : CStr)
    (proof : ProofJWT) :
    (parseProof L headerJson payloadJson signatureRaw proof).assuming allocOk =
      pure (match L.parseWithLength headerJson, L.parseWithLength payloadJson with
        | some header, some payload => proofParsed L header payload signatureRaw
        | _, _ => (-1, proof)) := by
  simp only [parseProof, assuming_bind, assuming_cJsonParseWithLength, pure_bind]
  cases L.parseWithLength headerJson with
  | none => rfl
  | some header =>
    simp only [assuming_bind, assuming_cJsonParseWithLength, pure_bind]
    cases L.parseWithLength payloadJson with
    | none => rfl
    | some payload =>
      simp only [assuming_bind, assuming_dupField, assuming_printField, assuming_strdup, pure_bind,
        proofParsed, proofOf, assuming_ite, assuming_pure]
      exact (apply_ite pure _ _ _).symm

/-- `opendbsc_jwt_decode`, whatever was in the proof. -/
theorem assuming_jwtDecode_any (L : Extern) (token : CStr) (proof : ProofJWT) :
    (jwtDecode L token proof).assuming allocOk =
      pure (match decodeParts L token with
        | some (header, payload, signature) => proofParsed L header payload signature
        | none => (-1, proof)) := by
  unfold jwtDecode decodeParts
  cases hsplit : splitJwt token with
  | none => rfl
  | some parts =>
    obtain ⟨pStart, sStart⟩ := parts
    have htake : (token.drop sStart).take (token.length - sStart) = token.drop sStart :=
      List.take_of_length_le (by simp)
    simp only [assuming_bind, assuming_strndupNull, pure_bind, List.drop_zero, assuming_base64urlDecode, htake,
      Option.bind_eq_bind, Option.bind_some]
    cases base64urlBytes (token.take (pStart - 1)) with
    | none => rfl
    | some headerJson =>
      simp only [assuming_bind, assuming_base64urlDecode, pure_bind, Option.bind_some]
      cases base64urlBytes ((token.drop pStart).take (sStart - pStart - 1)) with
      | none => rfl
      | some payloadJson =>
        simp only [assuming_parseProof, Option.bind_some]
        cases L.parseWithLength headerJson with
        | none => rfl
        | some header =>
          cases L.parseWithLength payloadJson with
          | none => rfl
          | some payload => rfl

theorem assuming_jwtDecode (L : Extern) (token : CStr) :
    (jwtDecode L token proofJwtInit).assuming allocOk =
      pure (match decodeProof L token with
        | some proof => (0, proof)
        | none => (-1, proofJwtInit)) := by
  rw [assuming_jwtDecode_any, decodeProof]
  cases decodeParts L token with
  | none => rfl
  | some parts =>
    obtain ⟨header, payload, signature⟩ := parts
    simp only [proofParsed, Option.bind_eq_bind, Option.bind_some]
    split <;> rfl

@[simp] theorem assuming_jwkGetB64 (jwk : Json) (key : CStr) :
    (jwkGetB64 jwk key).assuming allocOk = pure (jwkBytes jwk key) := by
  unfold jwkGetB64 jwkBytes
  cases Json.asString (jwk.getObjectItem key) with
  | none => rfl
  | some value => simp

theorem assuming_evpPkeyFromFields {Key : Type} (jwk : Json) (key₁ key₂ : CStr)
    (build : List UInt8 → List UInt8 → Option Key) :
    (evpPkeyFromFields jwk key₁ key₂ build).assuming allocOk = pure (keyFromFields jwk key₁ key₂ build) := by
  simp only [evpPkeyFromFields, keyFromFields, assuming_bind, assuming_jwkGetB64, pure_bind]
  cases jwkBytes jwk key₁ with
  | none => rfl
  | some x =>
    simp only [assuming_bind, assuming_jwkGetB64, pure_bind, Option.bind_eq_bind, Option.bind_some]
    cases jwkBytes jwk key₂ with
    | none => rfl
    | some y =>
      simp only [assuming_bind, assuming_libraryAlloc, pure_bind, Bool.not_true, Bool.or_self, Bool.false_eq_true,
        if_false, Option.bind_some]
      cases build x y with
      | none => rfl
      | some key => simp

@[simp] theorem assuming_evpPkeyFromJwk (L : Extern) (jwk : Json) :
    (evpPkeyFromJwk L jwk).assuming allocOk = pure (keyFromJwk L jwk) := by
  unfold evpPkeyFromJwk keyFromJwk
  cases Json.asString (jwk.getObjectItem "kty") with
  | none => rfl
  | some kty =>
    simp only
    by_cases hec : kty = "EC"
    · rw [if_pos hec, if_pos hec]
      cases Json.asString (jwk.getObjectItem "crv") with
      | none => rfl
      | some crv =>
        by_cases hcrv : crv = "P-256"
        · simp only [hcrv, ne_eq, not_true_eq_false, if_false, if_true]
          exact assuming_evpPkeyFromFields ..
        · simp only [ne_eq, hcrv, not_false_eq_true, if_true, Option.some_inj, if_false]
          rfl
    · rw [if_neg hec, if_neg hec]
      by_cases hrsa : kty = "RSA"
      · rw [if_pos hrsa, if_pos hrsa]
        exact assuming_evpPkeyFromFields ..
      · rw [if_neg hrsa, if_neg hrsa]
        rfl

@[simp] theorem assuming_es256RawToDer (L : Extern) (sig : List UInt8) :
    (es256RawToDer L sig).assuming allocOk = pure (derSignature L sig) := by
  unfold es256RawToDer derSignature
  by_cases hlen : sig.length = 64
  · simp only [hlen, ne_eq, not_true_eq_false, if_false, assuming_bind, assuming_libraryAlloc, pure_bind,
      Bool.not_true, Bool.or_self, Bool.false_eq_true, Bool.false_or, decide_eq_true_eq, assuming_ite, assuming_pure]
    exact (apply_ite pure _ _ _).symm
  · simp [hlen]

theorem assuming_verifySignatureWithJwk (L : Extern) (token : CStr) (proof : ProofJWT) (jwkJson : Option CStr) :
    (verifySignatureWithJwk L token proof jwkJson).assuming allocOk =
      pure (returnCode (signatureAccepted L token proof jwkJson)) := by
  unfold verifySignatureWithJwk signatureAccepted
  cases proof.algorithm with
  | none => rfl
  | some algorithm =>
    simp only
    by_cases hnone : algorithm = "none"
    · simp only [if_pos hnone]
      rfl
    simp only [if_neg hnone]
    by_cases halg : algorithm ≠ "ES256" ∧ algorithm ≠ "RS256"
    · simp only [if_pos halg]
      rfl
    simp only [if_neg halg]
    cases jwkJson with
    | none => rfl
    | some jwkJson =>
      cases proof.signature with
      | none => rfl
      | some signature =>
        unfold signatureVerifies
        cases splitJwt token with
        | none => rfl
        | some parts =>
          unfold signatureBytes
          simp only [assuming_bind, assuming_base64urlDecode, pure_bind]
          cases base64urlBytes signature with
          | none => rfl
          | some sig =>
            have hder : (if algorithm = "ES256" then es256RawToDer L sig else pure (some sig)).assuming allocOk =
                pure (if algorithm = "ES256" then derSignature L sig else some sig) := by
              simp only [assuming_ite, assuming_es256RawToDer, assuming_pure]
              exact (apply_ite pure _ _ _).symm
            simp only [assuming_bind, hder, pure_bind, Option.bind_some]
            cases (if algorithm = "ES256" then derSignature L sig else some sig) with
            | none => rfl
            | some sig =>
              simp only [assuming_bind, assuming_cJsonParse, pure_bind]
              cases L.parse jwkJson with
              | none => rfl
              | some jwk =>
                simp only [assuming_bind, assuming_evpPkeyFromJwk, pure_bind, Option.bind_some]
                cases keyFromJwk L jwk with
                | none => rfl
                | some key =>
                  obtain ⟨pStart, sStart⟩ := parts
                  cases hv : L.digestVerify key (bytesOf (token.take (sStart - 1))) sig <;> simp [hv, returnCode]

theorem checkProofType_eq_zero {proof : ProofJWT} :
    checkProofType proof = 0 ↔ proof.type = some ("dbsc+jwt" : CStr) := by
  unfold checkProofType
  split
  · rename_i h; exact ⟨fun _ => h, fun _ => rfl⟩
  · rename_i h; exact ⟨fun hc => absurd hc (by decide), fun hc => absurd hc h⟩

/-- `opendbsc_jwt_decode_and_verify` on a fresh proof. -/
theorem assuming_jwtDecodeAndVerify (L : Extern) (token : CStr) :
    (jwtDecodeAndVerify L token proofJwtInit).assuming allocOk =
      pure (match decodeProof L token with
        | some proof => (returnCode (registrationAccepted L token proof), proof)
        | none => (-1, proofJwtInit)) := by
  simp only [jwtDecodeAndVerify, assuming_bind, assuming_jwtDecode, pure_bind]
  cases decodeProof L token with
  | none => rfl
  | some proof =>
    unfold registrationAccepted
    by_cases htype : checkProofType proof = 0 <;> by_cases hrules : checkRegistrationJwkRules proof = 0 <;>
      cases hsig : signatureAccepted L token proof proof.jwk <;>
      simp [htype, hrules, hsig, assuming_verifySignatureWithJwk, returnCode]

/-- `opendbsc_jwt_verify_with_jwk` on a fresh proof. -/
theorem assuming_jwtVerifyWithJwk (L : Extern) (token jwkJson : CStr) :
    (jwtVerifyWithJwk L token jwkJson proofJwtInit).assuming allocOk =
      pure (match decodeProof L token with
        | some proof => (returnCode (refreshAccepted L token jwkJson proof), proof)
        | none => (-1, proofJwtInit)) := by
  simp only [jwtVerifyWithJwk, assuming_bind, assuming_jwtDecode, pure_bind]
  cases decodeProof L token with
  | none => rfl
  | some proof =>
    unfold refreshAccepted
    generalize some ("none" : CStr) = none'
    by_cases hjwk : proof.jwk = none <;> by_cases htype : checkProofType proof = 0 <;>
      by_cases halg : proof.algorithm = none' <;>
      cases hsig : signatureAccepted L token proof (some jwkJson) <;>
      simp [hjwk, htype, halg, hsig, assuming_verifySignatureWithJwk, returnCode]

end OpenDbsc
