/-
What a rejected token leaves in the proof structure.

`opendbsc_jwt_decode` leaves a fresh structure empty when it fails. The two
functions that verify a token decode it first and then return on the first
check that fails, the decoded fields with them: so the structure is empty
after a rejection exactly when it was decoding that failed
(`rejected_empty_iff`).
-/
import OpenDbsc.Client
import OpenDbsc.Effects.Needs
import OpenDbsc.JwtFacts

namespace OpenDbsc

open Effects Prog

/-! ## When decoding fails -/

/-- The allocation for a member that is there. -/
def askedFor {α : Type} (member : Option α) (needed : Bool) : List Bool := member.toList.map fun _ => needed

/-- The allocations of `opendbsc_jwt_decode`, in order, and which of them it
needs: the three copies, two buffers for each decoding, the two parses, and
the copies of `alg` and `jti`. -/
def decodeNeeds (header payload : Json) : List Bool :=
  true :: true :: true :: true :: true :: true :: true :: true :: true ::
    (askedFor (Json.asString (header.getObjectItem "alg")) true ++
      (askedFor (Json.asString (header.getObjectItem "typ")) false ++
        (askedFor (Json.asObject (header.getObjectItem "jwk")) false ++
          (askedFor (Json.asString (payload.getObjectItem "jti")) true ++
            (askedFor (Json.asString (payload.getObjectItem "authorization")) false ++ [false])))))

/-- The token does not decode, or an allocation that decoding needs fails. -/
def DecodeFails (L : Extern) (token : CStr) (tr : List (Event Sys)) : Prop :=
  decodeProof L token = none ∨
    ∃ header payload signature, decodeParts L token = some (header, payload, signature) ∧
      Denied allocOk (decodeNeeds header payload) tr

theorem gives_malloc {α : Type} (n : Nat) (x : α) :
    Gives allocOk [true] x (do if ← malloc n then pure (some x) else pure none) :=
  gives_perform (S := Sys) (o := SysOp.malloc n) (g := id)
    (fun _ => ⟨fun h _ hy => h.trans (Option.some.inj hy), fun h => h true rfl⟩) x

theorem gives_libraryAlloc {α : Type} (x : α) :
    Gives allocOk [true] x (do if ← libraryAlloc then pure (some x) else pure none) :=
  gives_perform (S := Sys) (o := SysOp.library) (g := id)
    (fun _ => ⟨fun h _ hy => h.trans (Option.some.inj hy), fun h => h true rfl⟩) x

theorem gives_dupField {field : Option CStr} {s : CStr} (h : field = some s) :
    Gives allocOk (askedFor field true) s (dupField field) := by
  subst h
  exact gives_malloc _ s

theorem optional_dupField (field : Option CStr) :
    Needs allocOk (askedFor field false) (fun _ => True) (dupField field) := by
  cases field with
  | none => exact needs_pure trivial
  | some s =>
    refine (needs_optional (S := Sys) (SysOp.malloc (s.length + 1))).bind_silent (m := []) fun b => ?_
    cases b <;> exact needs_pure trivial

theorem optional_printField (L : Extern) (field : Option Json) :
    Needs allocOk (askedFor field false) (fun _ => True) (printField L field) := by
  cases field with
  | none => exact needs_pure trivial
  | some j =>
    refine (needs_optional (S := Sys) SysOp.library).bind_silent (m := []) fun b => ?_
    cases b <;> exact needs_pure trivial

theorem gives_strndupNull (s : CStr) (start n : Nat) :
    Gives allocOk [true] ((s.drop start).take n) (strndupNull s start n) := gives_malloc ..

theorem gives_cJsonParseWithLength {L : Extern} {bytes : List UInt8} {j : Json} (h : L.parseWithLength bytes = some j) :
    Gives allocOk [true] j (cJsonParseWithLength L bytes) := by
  rw [cJsonParseWithLength, h]
  exact gives_libraryAlloc j

theorem needs_malloc (n : Nat) : Needs allocOk [true] (fun b => b = true) (malloc n) :=
  needs_perform (S := Sys) (o := SysOp.malloc n) fun _ =>
    ⟨fun h _ hy => h.trans (Option.some.inj hy), fun h => h true rfl⟩

/-- A buffer that is tried, and what comes after it. -/
theorem needs_buffer {α : Type} {ok : α → Prop} {flags : List Bool} {n : Nat} {fail k : Prog Sys α}
    (hfail : Ensures fail fun a => ¬ ok a) (hk : Needs allocOk flags ok k) :
    Needs allocOk (true :: flags) ok (do if !(← malloc n) then fail else k) := by
  refine (needs_malloc n).bind_with (l := [true]) (P := fun _ => True) (fun _ _ _ => trivial) (fun b hb => ?_)
    fun b _ hb => ?_
  · rw [hb]
    exact hk
  · rw [Bool.eq_false_iff.mpr hb]
    exact hfail

theorem ensures_base64urlDecode (s : CStr) :
    Ensures (base64urlDecode s) fun out => out = base64urlBytes s ∨ out = none := by
  unfold base64urlDecode base64urlBytes
  split
  · exact Ensures.pure (.inr rfl)
  · refine Ensures.bind_any fun b => ?_
    split
    · exact Ensures.pure (.inr rfl)
    refine Ensures.bind_any fun b => ?_
    split
    · exact Ensures.pure (.inr rfl)
    · exact Ensures.pure (.inl rfl)

theorem gives_base64urlDecode {s : CStr} {bytes : List UInt8} (h : base64urlBytes s = some bytes) :
    Gives allocOk [true, true] bytes (base64urlDecode s) := by
  refine ⟨?_, fun tr out ht => h ▸ ensures_base64urlDecode s tr out ht⟩
  unfold base64urlBytes at h
  split at h
  · cases h
  · rename_i hlen
    have hnone : Ensures (pure none : Prog Sys (Option (List UInt8))) fun out => ¬ out = some bytes :=
      Ensures.pure (Option.some_ne_none bytes).symm
    rw [base64urlDecode, if_neg hlen, h]
    exact needs_buffer hnone (needs_buffer hnone (needs_pure rfl))

/-- A header and payload with the two members that a proof cannot be without. -/
theorem needs_parseProof {L : Extern} {headerJson payloadJson : List UInt8} {header payload : Json}
    (hheader : L.parseWithLength headerJson = some header) (hpayload : L.parseWithLength payloadJson = some payload)
    {algorithm challenge : CStr} (halg : Json.asString (header.getObjectItem "alg") = some algorithm)
    (hjti : Json.asString (payload.getObjectItem "jti") = some challenge) (signature : CStr) (proof : ProofJWT) :
    Needs allocOk
      (true :: true :: (askedFor (Json.asString (header.getObjectItem "alg")) true ++
        (askedFor (Json.asString (header.getObjectItem "typ")) false ++
          (askedFor (Json.asObject (header.getObjectItem "jwk")) false ++
            (askedFor (Json.asString (payload.getObjectItem "jti")) true ++
              (askedFor (Json.asString (payload.getObjectItem "authorization")) false ++ [false]))))))
      (fun r => r.1 = 0) (parseProof L headerJson payloadJson signature proof) := by
  have hrejected : ∀ proof : ProofJWT, Ensures (pure (-1, proof) : Prog Sys (Int × ProofJWT)) fun r => ¬ r.1 = 0 :=
    fun _ => Ensures.pure (show ¬ (-1 : Int) = 0 by decide)
  unfold parseProof
  refine (gives_cJsonParseWithLength hheader).bind (l := [true]) ?_ (hrejected proof)
  refine (gives_cJsonParseWithLength hpayload).bind (l := [true]) ?_ (hrejected proof)
  refine (gives_dupField halg).bind ?_ ?_
  · refine (optional_dupField _).bind_silent fun type => ?_
    refine (optional_printField L _).bind_silent fun jwk => ?_
    refine (gives_dupField hjti).bind ?_ ?_
    · refine (optional_dupField _).bind_silent fun authorization => ?_
      refine (optional_dupField (some signature)).bind_silent (m := []) fun sig => ?_
      rw [if_neg (by simp)]
      exact needs_pure rfl
    · refine Ensures.bind_any fun _ => Ensures.bind_any fun _ => ?_
      rw [if_pos (.inr rfl)]
      exact hrejected _
  · refine Ensures.bind_any fun _ => Ensures.bind_any fun _ => Ensures.bind_any fun _ => Ensures.bind_any fun _ =>
      Ensures.bind_any fun _ => ?_
    rw [if_pos (.inl rfl)]
    exact hrejected _

/-- What decoding needs of a token that decodes. -/
theorem needs_jwtDecode {L : Extern} {token signature : CStr} {header payload : Json}
    (hparts : decodeParts L token = some (header, payload, signature)) (hproof : decodeProof L token ≠ none)
    (proof : ProofJWT) :
    Needs allocOk (decodeNeeds header payload) (fun r => r.1 = 0) (jwtDecode L token proof) := by
  obtain ⟨_, hproof⟩ := Option.ne_none_iff_exists'.mp hproof
  obtain ⟨header', payload', signature', algorithm, challenge, hparts', rfl, halg, hjti⟩ :=
    decodeProof_eq_some.mp hproof
  cases hparts.symm.trans hparts'
  obtain ⟨headerPart, payloadPart, hsplit, hheader, hpayload⟩ := decodeParts_eq_some.mp hparts
  obtain ⟨headerJson, hheader₁, hheader₂⟩ := Option.bind_eq_some_iff.mp hheader
  obtain ⟨payloadJson, hpayload₁, hpayload₂⟩ := Option.bind_eq_some_iff.mp hpayload
  obtain ⟨hcut₁, hcut₂, -, -⟩ := hsplit.cut
  have hrejected : Ensures (pure (-1, proof) : Prog Sys (Int × ProofJWT)) fun r => ¬ r.1 = 0 :=
    Ensures.pure (show ¬ (-1 : Int) = 0 by decide)
  have hlen : headerPart.length + payloadPart.length + 2 - (headerPart.length + 1) - 1 = payloadPart.length := by omega
  rw [jwtDecode, hsplit.split]
  refine (gives_strndupNull token 0 _).bind (l := [true]) ?_ ?_
  · refine (gives_strndupNull token _ _).bind (l := [true]) ?_ ?_
    · refine (gives_strndupNull token _ _).bind (l := [true]) ?_ hrejected
      simp only [List.drop_zero, Nat.add_sub_cancel, hlen, hcut₁, hcut₂]
      refine (gives_base64urlDecode hheader₁).bind (l := [true, true]) ?_ hrejected
      refine (gives_base64urlDecode hpayload₁).bind (l := [true, true]) ?_ hrejected
      exact needs_parseProof hheader₂ hpayload₂ halg hjti _ proof
    · exact Ensures.bind_any fun _ => hrejected
  · exact Ensures.bind_any fun _ => Ensures.bind_any fun _ => hrejected

/-! ## What decoding leaves -/

theorem ensures_cJsonParseWithLength (L : Extern) (bytes : List UInt8) :
    Ensures (cJsonParseWithLength L bytes) fun out => out = L.parseWithLength bytes ∨ out = none := by
  refine Ensures.bind_any fun b => ?_
  split
  · exact Ensures.pure (.inl rfl)
  · exact Ensures.pure (.inr rfl)

theorem ensures_dupField (field : Option CStr) : Ensures (dupField field) fun out => out = field ∨ out = none := by
  cases field with
  | none => exact Ensures.pure (.inl rfl)
  | some s => exact (gives_malloc (s.length + 1) s).only

/-- A proof is thrown away when its algorithm or its challenge is not there. -/
theorem ensures_parseProof (L : Extern) (headerJson payloadJson : List UInt8) (signature : CStr) :
    Ensures (parseProof L headerJson payloadJson signature proofJwtInit) fun r => r = (-1, proofJwtInit) ∨
      r.1 = 0 ∧ r.2.algorithm ≠ none ∧ ∃ header payload, L.parseWithLength headerJson = some header ∧
        L.parseWithLength payloadJson = some payload ∧ Json.asString (header.getObjectItem "alg") ≠ none ∧
        Json.asString (payload.getObjectItem "jti") ≠ none ∧
        r.2.challenge = Json.asString (payload.getObjectItem "jti") := by
  refine Ensures.bind (ensures_cJsonParseWithLength L headerJson) fun header hheader => ?_
  cases header with
  | none => exact Ensures.pure (.inl rfl)
  | some header =>
    refine Ensures.bind (ensures_cJsonParseWithLength L payloadJson) fun payload hpayload => ?_
    cases payload with
    | none => exact Ensures.pure (.inl rfl)
    | some payload =>
      refine Ensures.bind (ensures_dupField _) fun algorithm halg => ?_
      refine Ensures.bind_any fun _ => Ensures.bind_any fun _ => ?_
      refine Ensures.bind (ensures_dupField _) fun challenge hjti => ?_
      refine Ensures.bind_any fun _ => Ensures.bind_any fun _ => ?_
      split
      · exact Ensures.pure (.inl rfl)
      · rename_i hfields
        obtain ⟨halgorithm, hchallenge⟩ := not_or.mp hfields
        exact Ensures.pure (.inr ⟨rfl, halgorithm, header, payload,
          (hheader.resolve_right (Option.some_ne_none _)).symm,
          (hpayload.resolve_right (Option.some_ne_none _)).symm, halg.resolve_right halgorithm ▸ halgorithm,
          hjti.resolve_right hchallenge ▸ hchallenge, hjti.resolve_right hchallenge⟩)

/-- Decoding leaves a fresh proof empty, or has found a token that decodes, and its challenge. -/
theorem ensures_jwtDecode (L : Extern) (token : CStr) :
    Ensures (jwtDecode L token proofJwtInit) fun r => r = (-1, proofJwtInit) ∨
      r.1 = 0 ∧ r.2.algorithm ≠ none ∧ ∃ proof, decodeProof L token = some proof ∧ r.2.challenge = proof.challenge := by
  unfold jwtDecode
  cases hsplit : splitJwt token with
  | none => exact Ensures.pure (.inl rfl)
  | some parts =>
    obtain ⟨pStart, sStart⟩ := parts
    refine Ensures.bind (gives_strndupNull token _ _).only fun headerB64 hheaderB64 => ?_
    refine Ensures.bind (gives_strndupNull token _ _).only fun payloadB64 hpayloadB64 => ?_
    refine Ensures.bind (gives_strndupNull token _ _).only fun sigCopy hsigCopy => ?_
    split
    · rename_i header payload signature
      cases hheaderB64.resolve_right (Option.some_ne_none _)
      cases hpayloadB64.resolve_right (Option.some_ne_none _)
      refine Ensures.bind (ensures_base64urlDecode _) fun headerJson hheaderJson => ?_
      cases headerJson with
      | none => exact Ensures.pure (.inl rfl)
      | some headerJson =>
        refine Ensures.bind (ensures_base64urlDecode _) fun payloadJson hpayloadJson => ?_
        cases payloadJson with
        | none => exact Ensures.pure (.inl rfl)
        | some payloadJson =>
          intro tr r ht
          obtain hempty | ⟨hrc, halg, header, payload, hheader, hpayload, hasAlg, hasJti, hjti⟩ :=
            ensures_parseProof L headerJson payloadJson signature tr r ht
          · exact .inl hempty
          refine .inr ⟨hrc, halg, ?_⟩
          have hfirst : base64urlBytes (token.take (pStart - 1)) = some headerJson :=
            (hheaderJson.resolve_right (Option.some_ne_none _)).symm
          have hsecond : base64urlBytes ((token.drop pStart).take (sStart - pStart - 1)) = some payloadJson :=
            (hpayloadJson.resolve_right (Option.some_ne_none _)).symm
          have hparts : decodeParts L token = some (header, payload, token.drop sStart) := by
            simp only [decodeParts, hsplit, Option.bind_eq_bind, Option.bind_some, hfirst, hsecond, hheader, hpayload]
          obtain ⟨algorithm, hasAlg⟩ := Option.ne_none_iff_exists'.mp hasAlg
          obtain ⟨challenge, hasJti⟩ := Option.ne_none_iff_exists'.mp hasJti
          exact ⟨_, decodeProof_eq_some.mpr
            ⟨header, payload, _, algorithm, challenge, hparts, rfl, hasAlg, hasJti⟩, hjti⟩
    · exact Ensures.pure (.inl rfl)

/-! ## Checks after decoding -/

/-- `verify` decodes the token and then checks the proof, which it leaves as it is. -/
def ChecksDecoded (L : Extern) (token : CStr) (verify : Prog Sys (Int × ProofJWT)) : Prop :=
  ∃ checks, verify = jwtDecode L token proofJwtInit >>= checks ∧ (∀ proof, checks (-1, proof) = pure (-1, proof)) ∧
    ∀ proof, Ensures (checks (0, proof)) fun r => r.2 = proof

theorem jwtDecodeAndVerify_checks (L : Extern) (token : CStr) :
    ChecksDecoded L token (jwtDecodeAndVerify L token proofJwtInit) := by
  refine ⟨_, rfl, fun _ => rfl, fun proof => ?_⟩
  simp only [ne_eq, not_true_eq_false, if_false]
  split
  · exact Ensures.pure rfl
  split
  · exact Ensures.pure rfl
  refine Ensures.bind_any fun rc => ?_
  split <;> exact Ensures.pure rfl

theorem jwtVerifyWithJwk_checks (L : Extern) (token jwkJson : CStr) :
    ChecksDecoded L token (jwtVerifyWithJwk L token jwkJson proofJwtInit) := by
  refine ⟨_, rfl, fun _ => rfl, fun proof => ?_⟩
  simp only [ne_eq, not_true_eq_false, if_false]
  split
  · exact Ensures.pure rfl
  split
  · exact Ensures.pure rfl
  split
  · exact Ensures.pure rfl
  refine Ensures.bind_any fun rc => ?_
  split <;> exact Ensures.pure rfl

/-- A proof that passes has the challenge of its token. -/
theorem ChecksDecoded.challenge {L : Extern} {token : CStr} {verify : Prog Sys (Int × ProofJWT)}
    (hverify : ChecksDecoded L token verify) {tr : List (Event Sys)} {proof : ProofJWT}
    (h : Trace verify tr (0, proof)) : (decodeProof L token).bind ProofJWT.challenge = proof.challenge := by
  obtain ⟨checks, rfl, hfailed, hchecks⟩ := hverify
  obtain ⟨tr₁, ⟨rc, decoded⟩, tr₂, rfl, h₁, h₂⟩ := trace_bind.mp h
  obtain hempty | ⟨rfl, -, decodedProof, hdecoded, hchallenge⟩ := ensures_jwtDecode L token tr₁ (rc, decoded) h₁
  · cases hempty
    rw [hfailed] at h₂
    cases (trace_pure.mp h₂).2
  · cases hchecks decoded tr₂ _ h₂
    rw [hdecoded]
    exact hchallenge.symm

/-! ## What a rejection leaves -/

/-- Of a token that is decoded and then rejected. -/
theorem ChecksDecoded.empty_iff {L : Extern} {token : CStr} {verify : Prog Sys (Int × ProofJWT)}
    (hverify : ChecksDecoded L token verify) {tr : List (Event Sys)} {out : ProofJWT}
    (h : Trace verify tr (-1, out)) : out = proofJwtInit ↔ DecodeFails L token tr := by
  obtain ⟨checks, rfl, hfailed, hchecks⟩ := hverify
  obtain ⟨tr₁, ⟨rc, proof⟩, tr₂, rfl, h₁, h₂⟩ := trace_bind.mp h
  have hneeds : decodeProof L token ≠ none → (DecodeFails L token (tr₁ ++ tr₂) ↔ ¬ rc = 0) := by
    intro hproof
    obtain ⟨_, hsome⟩ := Option.ne_none_iff_exists'.mp hproof
    obtain ⟨header, payload, signature, -, -, hparts, -⟩ := decodeProof_eq_some.mp hsome
    obtain ⟨hiff, hlen⟩ := needs_jwtDecode hparts hproof proofJwtInit tr₁ (rc, proof) h₁
    have hwhole : rc = 0 → (Denied allocOk (decodeNeeds header payload) (tr₁ ++ tr₂) ↔
        Denied allocOk (decodeNeeds header payload) tr₁) := by
      intro hrc
      have happend : Denied allocOk (decodeNeeds header payload ++ []) (tr₁ ++ tr₂) ↔ _ := denied_append (hlen hrc)
      rwa [List.append_nil, or_iff_left not_denied_nil] at happend
    constructor
    · intro hfails hrc
      obtain hnone | ⟨_, _, _, hparts', hdenied⟩ := hfails
      · exact hproof hnone
      · cases hparts.symm.trans hparts'
        exact hiff.mp hrc ((hwhole hrc).mp hdenied)
    · intro hrc
      have hdenied : Denied allocOk (decodeNeeds header payload) tr₁ := not_not.mp fun hd => hrc (hiff.mpr hd)
      have hafter : Denied allocOk (decodeNeeds header payload ++ []) (tr₁ ++ tr₂) := hdenied.append
      rw [List.append_nil] at hafter
      exact .inr ⟨header, payload, signature, hparts, hafter⟩
  obtain hempty | ⟨rfl, halg, decoded, hdecoded, -⟩ := ensures_jwtDecode L token tr₁ (rc, proof) h₁
  · cases hempty
    rw [hfailed] at h₂
    obtain ⟨rfl, hout⟩ := trace_pure.mp h₂
    cases hout
    refine iff_of_true rfl ?_
    by_cases hproof : decodeProof L token = none
    · exact .inl hproof
    · exact (hneeds hproof).mpr (by decide)
  · rw [hneeds (hdecoded ▸ Option.some_ne_none decoded)]
    cases hchecks proof tr₂ _ h₂
    exact iff_of_false (fun he => halg (he ▸ rfl)) (not_not.mpr rfl)

/-- **What a rejected token leaves.** A fresh proof comes back empty from a
rejection exactly when it was decoding that failed. -/
theorem rejected_empty_iff (L : Extern) (token jwkJson : CStr) (tr : List (Event Sys)) (out : ProofJWT) :
    (Trace (jwtDecodeAndVerify L token proofJwtInit) tr (-1, out) → (out = proofJwtInit ↔ DecodeFails L token tr)) ∧
      (Trace (jwtVerifyWithJwk L token jwkJson proofJwtInit) tr (-1, out) →
        (out = proofJwtInit ↔ DecodeFails L token tr)) :=
  ⟨(jwtDecodeAndVerify_checks L token).empty_iff, (jwtVerifyWithJwk_checks L token jwkJson).empty_iff⟩

/-- A token that decodes is rejected with what was decoded still in the proof. -/
theorem rejected_not_empty {L : Extern} {token : CStr} {verify : Prog Sys (Int × ProofJWT)} {proof : ProofJWT}
    (hverify : verify.assuming allocOk = pure (-1, proof)) (hproof : decodeProof L token = some proof) :
    ∃ tr, Trace verify tr (-1, proof) ∧ proof ≠ proofJwtInit := by
  obtain ⟨tr, htr, -, -⟩ := Trace.of_assuming (hverify ▸ Trace.ret : Trace (verify.assuming allocOk) [] (-1, proof))
  obtain ⟨_, _, _, algorithm, _, -, -, halg, -⟩ := decodeProof_eq_some.mp hproof
  exact ⟨tr, htr, fun he => Option.some_ne_none algorithm (halg.symm.trans (congrArg ProofJWT.algorithm he))⟩

/-- A proof without a key, where a registration needs one. -/
theorem keyless_registration_rejected :
    ∃ tr out, Trace (jwtDecodeAndVerify (deviceExtern ["c"]) (refreshToken "c") proofJwtInit) tr (-1, out) ∧
      out ≠ proofJwtInit := by
  have hreject : (decodeProof (deviceExtern ["c"]) (refreshToken "c")).map
      (registrationAccepted (deviceExtern ["c"]) (refreshToken "c")) = some false := by decide +kernel
  obtain ⟨proof, hproof, haccepted⟩ := Option.map_eq_some_iff.mp hreject
  have hverify := assuming_jwtDecodeAndVerify (deviceExtern ["c"]) (refreshToken "c")
  simp only [hproof, haccepted] at hverify
  obtain ⟨tr, h⟩ := rejected_not_empty hverify hproof
  exact ⟨tr, proof, h⟩

/-- A proof with a key, where a refresh has it stored. -/
theorem keyed_refresh_rejected :
    ∃ tr out, Trace (jwtVerifyWithJwk (deviceExtern ["c"]) (registrationToken "c") deviceJwk.render proofJwtInit) tr
      (-1, out) ∧ out ≠ proofJwtInit := by
  have hreject : (decodeProof (deviceExtern ["c"]) (registrationToken "c")).map
      (refreshAccepted (deviceExtern ["c"]) (registrationToken "c") deviceJwk.render) = some false := by decide +kernel
  obtain ⟨proof, hproof, haccepted⟩ := Option.map_eq_some_iff.mp hreject
  have hverify := assuming_jwtVerifyWithJwk (deviceExtern ["c"]) (registrationToken "c") deviceJwk.render
  simp only [hproof, haccepted] at hverify
  obtain ⟨tr, h⟩ := rejected_not_empty hverify hproof
  exact ⟨tr, proof, h⟩

/-- Decoding did not fail in either of these. -/
theorem rejected_empty_iff_decoded :
    (∃ tr out, Trace (jwtDecodeAndVerify (deviceExtern ["c"]) (refreshToken "c") proofJwtInit) tr (-1, out) ∧
      ¬ DecodeFails (deviceExtern ["c"]) (refreshToken "c") tr) ∧
    ∃ tr out, Trace (jwtVerifyWithJwk (deviceExtern ["c"]) (registrationToken "c") deviceJwk.render proofJwtInit) tr
      (-1, out) ∧ ¬ DecodeFails (deviceExtern ["c"]) (registrationToken "c") tr := by
  obtain ⟨tr, out, h, hout⟩ := keyless_registration_rejected
  obtain ⟨tr', out', h', hout'⟩ := keyed_refresh_rejected
  exact ⟨⟨tr, out, h, fun hf => hout (((rejected_empty_iff _ _ deviceJwk.render tr out).1 h).mpr hf)⟩,
    ⟨tr', out', h', fun hf => hout' (((rejected_empty_iff _ _ _ tr' out').2 h').mpr hf)⟩⟩

theorem rejected_keeps_fields :
    (∃ tr out, Trace (jwtDecodeAndVerify (deviceExtern ["c"]) (refreshToken "c") proofJwtInit) tr (-1, out) ∧
      out ≠ proofJwtInit) ∧
    ∃ tr out, Trace (jwtVerifyWithJwk (deviceExtern ["c"]) (registrationToken "c") deviceJwk.render proofJwtInit) tr
      (-1, out) ∧ out ≠ proofJwtInit :=
  ⟨keyless_registration_rejected, keyed_refresh_rejected⟩

end OpenDbsc
