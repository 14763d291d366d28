/-
What only allocates.

Decoding a token, verifying its signature, copying and building a response ask
nothing of the runtime but memory: they draw no entropy, read no clock and
tell the application nothing, whichever allocations fail. One lemma a
function.
-/
import OpenDbsc.Effects.Pool
import OpenDbsc.Effects.Safe
import OpenDbsc.Manager
import OpenDbsc.Store

namespace OpenDbsc

open Effects Prog

/-- Every operation is an allocation. -/
def OnlyAllocates {α : Type} (p : Prog Sys α) : Prop := AllOps (fun o => allocOk o ≠ none) p

section

variable {α β : Type}

theorem onlyAllocates_pure (a : α) : OnlyAllocates (pure a) := allOps_pure a

theorem onlyAllocates_malloc (n : Nat) : OnlyAllocates (malloc n) :=
  allOps_perform (S := Sys) (o := .malloc n) nofun

theorem onlyAllocates_libraryAlloc : OnlyAllocates libraryAlloc :=
  allOps_perform (S := Sys) (o := .library) nofun

theorem OnlyAllocates.bind {p : Prog Sys α} {f : α → Prog Sys β} (hp : OnlyAllocates p)
    (hf : ∀ a, OnlyAllocates (f a)) :
    OnlyAllocates (p >>= f) :=
  AllOps.bind hp hf

/-- An allocation does not read the clock. -/
theorem OnlyAllocates.trace {p : Prog Sys α} (h : OnlyAllocates p) {tr a} (ht : Trace p tr a) :
    ∀ e ∈ tr, readingOf e = none := by
  intro e he
  have halloc := AllOps.trace h ht e he
  obtain ⟨o, x⟩ := e
  cases o with
  | time => exact absurd rfl halloc
  | _ => rfl

theorem OnlyAllocates.readings {p : Prog Sys α} (h : OnlyAllocates p) {tr a} (ht : Trace p tr a) : readings tr = [] :=
  List.filterMap_eq_nil_iff.mpr (h.trace ht)

theorem OnlyAllocates.answerable {p : Prog Sys α} (h : OnlyAllocates p) : p.Answerable := by
  induction p with
  | ret a => trivial
  | op o k ih =>
    refine ⟨?_, fun x => ih x (h.2 x)⟩
    cases o with
    | malloc n => exact ⟨true⟩
    | library => exact ⟨true⟩
    | _ => exact absurd rfl h.1

theorem onlyAllocates_setField {put : Option CStr → Session} {field value : Option CStr} :
    OnlyAllocates (setField put field value) := by
  refine OnlyAllocates.bind ?_ fun r => onlyAllocates_pure _
  unfold setString
  cases value with
  | none => exact onlyAllocates_pure _
  | some value =>
    refine OnlyAllocates.bind ?_ fun copy => ?_
    · refine (onlyAllocates_malloc _).bind fun b => ?_
      split <;> exact onlyAllocates_pure _
    · cases copy <;> exact onlyAllocates_pure _

theorem onlyAllocates_guard {rc : Int} {a : α} {p : Prog Sys α} (h : OnlyAllocates p) :
    OnlyAllocates (if rc ≠ 0 then pure a else p) := by
  split
  · exact onlyAllocates_pure a
  · exact h

theorem onlyAllocates_strdup (s : CStr) : OnlyAllocates (strdup s) := by
  refine (onlyAllocates_malloc _).bind fun b => ?_
  split <;> exact onlyAllocates_pure _

/-! ## Tokens -/

theorem onlyAllocates_base64urlDecode (s : CStr) : OnlyAllocates (base64urlDecode s) := by
  unfold base64urlDecode
  split
  · exact onlyAllocates_pure _
  · refine (onlyAllocates_malloc _).bind fun b₁ => ?_
    split
    · exact onlyAllocates_pure _
    · refine (onlyAllocates_malloc _).bind fun b₂ => ?_
      split <;> exact onlyAllocates_pure _

theorem onlyAllocates_strndupNull (s : CStr) (start n : Nat) : OnlyAllocates (strndupNull s start n) := by
  refine (onlyAllocates_malloc _).bind fun b => ?_
  split <;> exact onlyAllocates_pure _

theorem onlyAllocates_dupField (field : Option CStr) : OnlyAllocates (dupField field) := by
  cases field with
  | none => exact onlyAllocates_pure _
  | some s => exact onlyAllocates_strdup s

theorem onlyAllocates_cJsonParseWithLength (L : Extern) (bytes : List UInt8) :
    OnlyAllocates (cJsonParseWithLength L bytes) := by
  refine onlyAllocates_libraryAlloc.bind fun b => ?_
  split <;> exact onlyAllocates_pure _

theorem onlyAllocates_cJsonParse (L : Extern) (s : CStr) : OnlyAllocates (cJsonParse L s) := by
  refine onlyAllocates_libraryAlloc.bind fun b => ?_
  split <;> exact onlyAllocates_pure _

theorem onlyAllocates_printField (L : Extern) (field : Option Json) : OnlyAllocates (printField L field) := by
  cases field with
  | none => exact onlyAllocates_pure _
  | some j =>
    refine onlyAllocates_libraryAlloc.bind fun b => ?_
    split <;> exact onlyAllocates_pure _

theorem onlyAllocates_parseProof (L : Extern) (headerJson payloadJson : List UInt8) (signatureRaw : CStr)
    (proof : ProofJWT) : OnlyAllocates (parseProof L headerJson payloadJson signatureRaw proof) := by
  refine (onlyAllocates_cJsonParseWithLength L headerJson).bind fun header => ?_
  cases header with
  | none => exact onlyAllocates_pure _
  | some header =>
    refine (onlyAllocates_cJsonParseWithLength L payloadJson).bind fun payload => ?_
    cases payload with
    | none => exact onlyAllocates_pure _
    | some payload =>
      refine (onlyAllocates_dupField _).bind fun algorithm => (onlyAllocates_dupField _).bind fun type => ?_
      refine (onlyAllocates_printField L _).bind fun jwk => ?_
      refine (onlyAllocates_dupField _).bind fun challenge => (onlyAllocates_dupField _).bind fun authorization => ?_
      refine (onlyAllocates_strdup _).bind fun signature => ?_
      split <;> exact onlyAllocates_pure _

theorem onlyAllocates_jwtDecode (L : Extern) (token : CStr) (proof : ProofJWT) :
    OnlyAllocates (jwtDecode L token proof) := by
  unfold jwtDecode
  split
  · exact onlyAllocates_pure _
  · refine (onlyAllocates_strndupNull ..).bind fun headerB64 => (onlyAllocates_strndupNull ..).bind fun payloadB64 => ?_
    refine (onlyAllocates_strndupNull ..).bind fun sigCopy => ?_
    split
    · refine (onlyAllocates_base64urlDecode _).bind fun headerJson => ?_
      cases headerJson with
      | none => exact onlyAllocates_pure _
      | some headerJson =>
        refine (onlyAllocates_base64urlDecode _).bind fun payloadJson => ?_
        cases payloadJson with
        | none => exact onlyAllocates_pure _
        | some payloadJson => exact onlyAllocates_parseProof ..
    · exact onlyAllocates_pure _

theorem onlyAllocates_jwkGetB64 (jwk : Json) (key : CStr) : OnlyAllocates (jwkGetB64 jwk key) := by
  unfold jwkGetB64
  split
  · exact onlyAllocates_pure _
  · exact onlyAllocates_base64urlDecode _

theorem onlyAllocates_evpPkeyFromFields {Key : Type} (jwk : Json) (key₁ key₂ : CStr)
    (build : List UInt8 → List UInt8 → Option Key) : OnlyAllocates (evpPkeyFromFields jwk key₁ key₂ build) := by
  refine (onlyAllocates_jwkGetB64 jwk key₁).bind fun x => ?_
  cases x with
  | none => exact onlyAllocates_pure _
  | some x =>
    refine (onlyAllocates_jwkGetB64 jwk key₂).bind fun y => ?_
    cases y with
    | none => exact onlyAllocates_pure _
    | some y =>
      refine onlyAllocates_libraryAlloc.bind fun b₁ => ?_
      split
      · exact onlyAllocates_pure _
      · refine onlyAllocates_libraryAlloc.bind fun b₂ => onlyAllocates_libraryAlloc.bind fun b₃ => ?_
        split
        · exact onlyAllocates_pure _
        · cases build x y with
          | none => exact onlyAllocates_pure _
          | some key =>
            refine onlyAllocates_libraryAlloc.bind fun b₄ => ?_
            split <;> exact onlyAllocates_pure _

theorem onlyAllocates_evpPkeyFromJwk (L : Extern) (jwk : Json) : OnlyAllocates (evpPkeyFromJwk L jwk) := by
  unfold evpPkeyFromJwk
  split
  · exact onlyAllocates_pure _
  · split
    · split
      · exact onlyAllocates_pure _
      · split
        · exact onlyAllocates_pure _
        · exact onlyAllocates_evpPkeyFromFields ..
    · split
      · exact onlyAllocates_evpPkeyFromFields ..
      · exact onlyAllocates_pure _

theorem onlyAllocates_es256RawToDer (L : Extern) (sig : List UInt8) : OnlyAllocates (es256RawToDer L sig) := by
  unfold es256RawToDer
  split
  · exact onlyAllocates_pure _
  · refine onlyAllocates_libraryAlloc.bind fun b₁ => ?_
    split
    · exact onlyAllocates_pure _
    · refine onlyAllocates_libraryAlloc.bind fun b₂ => onlyAllocates_libraryAlloc.bind fun b₃ => ?_
      split
      · exact onlyAllocates_pure _
      · refine onlyAllocates_libraryAlloc.bind fun b₄ => ?_
        split <;> exact onlyAllocates_pure _

theorem onlyAllocates_verifySignatureWithJwk (L : Extern) (token : CStr) (proof : ProofJWT) (jwkJson : Option CStr) :
    OnlyAllocates (verifySignatureWithJwk L token proof jwkJson) := by
  unfold verifySignatureWithJwk
  split
  · exact onlyAllocates_pure _
  split
  · exact onlyAllocates_pure _
  split
  · exact onlyAllocates_pure _
  split
  · refine (onlyAllocates_base64urlDecode _).bind fun sig => ?_
    cases sig with
    | none => exact onlyAllocates_pure _
    | some sig =>
      have hder : ∀ algorithm : CStr, OnlyAllocates
          (if algorithm = "ES256" then es256RawToDer L sig else pure (some sig)) := by
        intro algorithm
        split
        · exact onlyAllocates_es256RawToDer L sig
        · exact onlyAllocates_pure _
      refine (hder _).bind fun der => ?_
      cases der with
      | none => exact onlyAllocates_pure _
      | some der =>
        refine (onlyAllocates_cJsonParse L _).bind fun jwk => ?_
        cases jwk with
        | none => exact onlyAllocates_pure _
        | some jwk =>
          refine (onlyAllocates_evpPkeyFromJwk L jwk).bind fun pkey => ?_
          cases pkey with
          | none => exact onlyAllocates_pure _
          | some pkey =>
            refine onlyAllocates_libraryAlloc.bind fun b₁ => ?_
            split
            · exact onlyAllocates_pure _
            · refine onlyAllocates_libraryAlloc.bind fun b₂ => ?_
              split <;> exact onlyAllocates_pure _
  · exact onlyAllocates_pure _

theorem onlyAllocates_jwtDecodeAndVerify (L : Extern) (token : CStr) (proof : ProofJWT) :
    OnlyAllocates (jwtDecodeAndVerify L token proof) := by
  refine (onlyAllocates_jwtDecode L token proof).bind fun r => ?_
  obtain ⟨rc, proof'⟩ := r
  refine onlyAllocates_guard (onlyAllocates_guard (onlyAllocates_guard ?_))
  exact (onlyAllocates_verifySignatureWithJwk ..).bind fun rc => onlyAllocates_guard (onlyAllocates_pure _)

theorem onlyAllocates_jwtVerifyWithJwk (L : Extern) (token jwkJson : CStr) (proof : ProofJWT) :
    OnlyAllocates (jwtVerifyWithJwk L token jwkJson proof) := by
  refine (onlyAllocates_jwtDecode L token proof).bind fun r => ?_
  obtain ⟨rc, proof'⟩ := r
  refine onlyAllocates_guard ?_
  split
  · exact onlyAllocates_pure _
  refine onlyAllocates_guard ?_
  split
  · exact onlyAllocates_pure _
  exact (onlyAllocates_verifySignatureWithJwk ..).bind fun rc => onlyAllocates_guard (onlyAllocates_pure _)

/-! ## Responses -/

theorem onlyAllocates_refuse (statusCode : Int) (text : CStr) : OnlyAllocates (refuse statusCode text) :=
  (onlyAllocates_strdup text).bind fun _ => onlyAllocates_pure _

theorem onlyAllocates_challengeSerialize (value sessionId : Option CStr) :
    OnlyAllocates (challengeSerialize value sessionId) := by
  cases value with
  | none => exact onlyAllocates_pure _
  | some value =>
    refine (onlyAllocates_malloc _).bind fun b => ?_
    split <;> exact onlyAllocates_pure _

theorem onlyAllocates_challengeAgain (s : Session) : OnlyAllocates (challengeAgain s) := by
  refine OnlyAllocates.bind ?_ fun _ => onlyAllocates_pure _
  exact (onlyAllocates_challengeSerialize _ _).bind fun _ => (onlyAllocates_strdup _).bind fun _ => onlyAllocates_pure _

theorem onlyAllocates_buildSetCookieWithMaxAge (cfg : ManagerConfig) (value : Option CStr) (maxAge : Int) :
    OnlyAllocates (buildSetCookieWithMaxAge cfg value maxAge) := by
  refine (onlyAllocates_malloc _).bind fun b => ?_
  split <;> exact onlyAllocates_pure _

theorem onlyAllocates_instructionSetString (field value : Option CStr) :
    OnlyAllocates (Instruction.setString field value) := by
  cases value with
  | none => exact onlyAllocates_pure _
  | some value =>
    refine (onlyAllocates_strdup value).bind fun copy => ?_
    cases copy <;> exact onlyAllocates_pure _

theorem onlyAllocates_growArray (count capacity elemSize : Nat) :
    OnlyAllocates (growArray count capacity elemSize) := by
  unfold growArray
  split
  · exact onlyAllocates_pure _
  · refine (onlyAllocates_malloc _).bind fun b => ?_
    split <;> exact onlyAllocates_pure _

theorem onlyAllocates_credentialSet (cred : SessionCredential) (value : Option CStr) :
    OnlyAllocates (credentialSetType cred value) ∧ OnlyAllocates (credentialSetName cred value) ∧
      OnlyAllocates (credentialSetAttributes cred value) :=
  ⟨(onlyAllocates_instructionSetString _ _).bind fun _ => onlyAllocates_pure _,
    (onlyAllocates_instructionSetString _ _).bind fun _ => onlyAllocates_pure _,
    (onlyAllocates_instructionSetString _ _).bind fun _ => onlyAllocates_pure _⟩

theorem onlyAllocates_instructionAddCredential (inst : SessionInstruction) (cred : SessionCredential) :
    OnlyAllocates (instructionAddCredential inst cred) := by
  refine (onlyAllocates_growArray ..).bind fun capacity => ?_
  cases capacity with
  | none => exact onlyAllocates_pure _
  | some capacity =>
    refine (onlyAllocates_credentialSet _ _).1.bind fun (rc₁, dst₁) => onlyAllocates_guard ?_
    refine (onlyAllocates_credentialSet _ _).2.1.bind fun (rc₂, dst₂) => onlyAllocates_guard ?_
    exact (onlyAllocates_credentialSet _ _).2.2.bind fun (rc₃, dst₃) => onlyAllocates_guard (onlyAllocates_pure _)

theorem onlyAllocates_cJsonAlloc {γ : Type} (x : γ) : OnlyAllocates (cJsonAlloc x) := by
  refine onlyAllocates_libraryAlloc.bind fun b => ?_
  split <;> exact onlyAllocates_pure _

/-- A step that may give nothing, and what comes after. -/
theorem OnlyAllocates.try {γ δ : Type} {p : Prog Sys (Option γ)} {f : Option γ → Prog Sys δ} (hp : OnlyAllocates p)
    (hsome : ∀ x, OnlyAllocates (f (some x))) (hnone : OnlyAllocates (f none)) : OnlyAllocates (p >>= f) := by
  refine hp.bind fun out => ?_
  cases out with
  | none => exact hnone
  | some x => exact hsome x

theorem onlyAllocates_addStrings (fields : List (CStr × Json)) (strings : List (CStr × Option CStr)) :
    OnlyAllocates (addStrings fields strings) := by
  induction strings generalizing fields with
  | nil => exact onlyAllocates_pure _
  | cons entry rest ih =>
    obtain ⟨key, value⟩ := entry
    cases value with
    | none => exact ih fields
    | some value => exact (onlyAllocates_cJsonAlloc _).try ih (onlyAllocates_pure _)

theorem onlyAllocates_stringsToJson (strings : List (CStr × Option CStr)) : OnlyAllocates (stringsToJson strings) := by
  refine (onlyAllocates_cJsonAlloc _).try (fun fields => ?_) (onlyAllocates_pure _)
  exact (onlyAllocates_addStrings _ _).try (fun _ => onlyAllocates_pure _) (onlyAllocates_pure _)

theorem onlyAllocates_arrayToJson {γ : Type} {convert : γ → Prog Sys (Option Json)}
    (hconvert : ∀ x, OnlyAllocates (convert x)) (xs : List γ) : OnlyAllocates (arrayToJson convert xs) := by
  have hitems : OnlyAllocates (itemsToJson convert xs) := by
    induction xs with
    | nil => exact onlyAllocates_pure _
    | cons x xs ih =>
      refine (hconvert x).try (fun item => ?_) (onlyAllocates_pure _)
      exact ih.try (fun _ => onlyAllocates_pure _) (onlyAllocates_pure _)
  refine (onlyAllocates_cJsonAlloc _).try (fun _ => ?_) (onlyAllocates_pure _)
  exact hitems.try (fun _ => onlyAllocates_pure _) (onlyAllocates_pure _)

theorem onlyAllocates_scopeToJson (scope : SessionScope) : OnlyAllocates (scopeToJson scope) := by
  refine (onlyAllocates_cJsonAlloc _).try (fun fields₁ => ?_) (onlyAllocates_pure _)
  refine (onlyAllocates_addStrings _ _).try (fun fields₂ => ?_) (onlyAllocates_pure _)
  refine (onlyAllocates_cJsonAlloc _).try (fun fields₃ => ?_) (onlyAllocates_pure _)
  refine (onlyAllocates_arrayToJson (fun _ => onlyAllocates_stringsToJson _) _).try (fun spec => ?_)
    (onlyAllocates_pure _)
  exact (onlyAllocates_cJsonAlloc _).try (fun _ => onlyAllocates_pure _) (onlyAllocates_pure _)

theorem onlyAllocates_addInitiators (fields : List (CStr × Json)) (origins : List CStr) :
    OnlyAllocates (addInitiators fields origins) := by
  unfold addInitiators
  split
  · refine (onlyAllocates_arrayToJson (fun _ => onlyAllocates_cJsonAlloc _) _).try (fun initiators => ?_)
      (onlyAllocates_pure _)
    exact onlyAllocates_cJsonAlloc _
  · exact onlyAllocates_pure _

theorem onlyAllocates_instructionToJson (inst : SessionInstruction) : OnlyAllocates (instructionToJson inst) := by
  refine (onlyAllocates_cJsonAlloc _).try (fun fields₁ => ?_) (onlyAllocates_pure _)
  simp only
  split
  · exact (onlyAllocates_cJsonAlloc _).try (fun _ => onlyAllocates_pure _) (onlyAllocates_pure _)
  refine (onlyAllocates_addStrings _ _).try (fun fields₂ => ?_) (onlyAllocates_pure _)
  refine OnlyAllocates.try ?_ (fun fields₃ => ?_) (onlyAllocates_pure _)
  · split
    · exact onlyAllocates_cJsonAlloc _
    · exact onlyAllocates_pure _
  refine (onlyAllocates_addInitiators _ _).try (fun fields₄ => ?_) (onlyAllocates_pure _)
  refine (onlyAllocates_scopeToJson _).try (fun scope => ?_) (onlyAllocates_pure _)
  refine (onlyAllocates_cJsonAlloc _).try (fun fields₅ => ?_) (onlyAllocates_pure _)
  refine (onlyAllocates_arrayToJson (fun _ => onlyAllocates_stringsToJson _) _).try (fun creds => ?_)
    (onlyAllocates_pure _)
  exact (onlyAllocates_cJsonAlloc _).try (fun _ => onlyAllocates_pure _) (onlyAllocates_pure _)

theorem onlyAllocates_instructionToString (L : Extern) (inst : SessionInstruction) :
    OnlyAllocates (instructionToString L inst) :=
  (onlyAllocates_instructionToJson inst).try (fun _ => onlyAllocates_cJsonAlloc _) (onlyAllocates_pure _)

theorem onlyAllocates_buildInstructionBody (L : Extern) (cfg : ManagerConfig) (s : Session) (continueSession : Bool) :
    OnlyAllocates (buildInstructionBody L cfg s continueSession) := by
  unfold buildInstructionBody
  split
  · exact onlyAllocates_instructionToString L _
  have hid : ∀ inst value, OnlyAllocates (instructionSetSessionIdentifier inst value) := fun _ _ =>
    (onlyAllocates_instructionSetString _ _).bind fun _ => onlyAllocates_pure _
  have hurl : ∀ inst value, OnlyAllocates (instructionSetRefreshUrl inst value) := fun _ _ =>
    (onlyAllocates_instructionSetString _ _).bind fun _ => onlyAllocates_pure _
  refine (hid _ _).bind fun (_, inst₁) => (hurl _ _).bind fun (_, inst₂) => ?_
  refine (onlyAllocates_credentialSet _ _).1.bind fun (_, cred₁) => ?_
  refine (onlyAllocates_credentialSet _ _).2.1.bind fun (_, cred₂) => ?_
  refine OnlyAllocates.bind ?_ fun (_, cred₃) => ?_
  · refine (onlyAllocates_malloc _).bind fun b => ?_
    split
    · exact (onlyAllocates_credentialSet _ _).2.2
    · exact onlyAllocates_pure _
  · exact (onlyAllocates_instructionAddCredential _ _).bind fun _ => onlyAllocates_instructionToString L _

theorem onlyAllocates_acceptedResponse (L : Extern) (cfg : ManagerConfig) (s : Session) :
    OnlyAllocates (acceptedResponse L cfg s) :=
  (onlyAllocates_buildSetCookieWithMaxAge ..).bind fun _ => (onlyAllocates_challengeSerialize ..).bind fun _ =>
    (onlyAllocates_buildInstructionBody ..).bind fun _ => onlyAllocates_pure _

end

end OpenDbsc
