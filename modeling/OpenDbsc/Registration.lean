/-
An honest registration.

A client that has logged in has nothing but the registration header to build
its proof from. `readOffer` is its reading of the header, as RFC 9651 has it,
and `HonestToken` the proof it makes. Whether register then grants the call is
a matter of the configured authorization alone (`honest_registration`): the
serializer leaves an empty one out, and writes quotes and backslashes as they
are, while register demands what was configured.
-/
import OpenDbsc.Fields.Structured
import OpenDbsc.ManagerTotal
import OpenDbsc.Pinning

namespace OpenDbsc

open Effects Records Prog
open StructuredFields (BareItem Parameters Plain IsKey IsToken)

/-! ## The client -/

/-- What the registration header says. -/
structure Offer where
  algorithms : List CStr
  challenge : CStr
  authorization : Option CStr

def tokenOf : StructuredFields.Item → Option CStr
  | (.token t, _) => some t
  | _ => none

/-- The string a parameter has, if it is there; `none` when it is something else. -/
def stringParameter (ps : Parameters) (key : CStr) : Option (Option CStr) :=
  match ps.get key with
  | none => some none
  | some (.string s) => some (some s)
  | some _ => none

/-- The header is an inner list with its parameters; the challenge must be there. -/
def readOffer (text : CStr) : Option Offer := do
  let (items, ps) ← StructuredFields.innerListField text
  let challenge ← (← stringParameter ps "challenge")
  let authorization ← stringParameter ps "authorization"
  some ⟨items.filterMap tokenOf, challenge, authorization⟩

/-- A token that takes the offer up: of an offered algorithm, signed with the
key it brings, and with the offer's challenge and authorization. -/
def HonestToken (L : Extern) (offer : Offer) (jwk : Json) (token : CStr) : Prop :=
  ∃ header payload signature headerJson payloadJson algorithm key sig,
    HasParts token header payload signature ∧
    (base64urlBytes header).bind L.parseWithLength = some headerJson ∧
    (base64urlBytes payload).bind L.parseWithLength = some payloadJson ∧
    headerJson.getObjectItem "typ" = some (.str "dbsc+jwt") ∧
    headerJson.getObjectItem "alg" = some (.str algorithm) ∧ algorithm ∈ offer.algorithms ∧
    headerJson.getObjectItem "jwk" = some jwk ∧
    payloadJson.getObjectItem "jti" = some (.str offer.challenge) ∧
    payloadJson.getObjectItem "authorization" = offer.authorization.map .str ∧
    keyFromJwk L jwk = some key ∧ signatureBytes L algorithm signature = some sig ∧
    L.digestVerify key (bytesOf (header ++ '.' :: payload)) sig = true

/-- There is no authorization, or it is not empty and can stand between quotes. -/
def Presentable (cfg : ManagerConfig) : Prop :=
  ∀ authorization, cfg.authorization = some authorization →
    authorization ≠ [] ∧ '"' ∉ authorization ∧ '\\' ∉ authorization

/-! ## Reading the header -/

theorem quotedParam_append (name : CStr) {value : CStr} (h : value ≠ []) (rest : CStr) :
    quotedParam name (some value) ++ rest = ';' :: (name ++ '=' :: '"' :: (value ++ '"' :: rest)) := by
  simp only [quotedParam, if_neg h]
  simp

theorem isToken_es256 : IsToken ("ES256" : CStr) := by decide

theorem isToken_rs256 : IsToken ("RS256" : CStr) := by decide

theorem isKey_path : IsKey ("path" : CStr) := by decide

theorem isKey_challenge : IsKey ("challenge" : CStr) := by decide

theorem isKey_authorization : IsKey ("authorization" : CStr) := by decide

theorem plain_path : Plain ("/dbsc/register" : CStr) := by decide

theorem hexDigit_plain :
    ∀ n : Fin 16, StructuredFields.isPrintable (hexDigit n) = true ∧ hexDigit n ≠ '"' ∧ hexDigit n ≠ '\\' := by
  decide

theorem plain_percent02x (b : UInt8) : Plain (percent02x b) := by
  have hb := b.toNat_lt
  intro c hc
  simp only [percent02x, List.mem_cons, List.not_mem_nil, or_false] at hc
  rcases hc with rfl | rfl
  · exact hexDigit_plain ⟨b.toNat / 16, by omega⟩
  · exact hexDigit_plain ⟨b.toNat % 16, by omega⟩

theorem plain_challengeOf (bytes : Option { b : List UInt8 // b.length = 32 }) :
    Plain (challengeOf bytes) ∧ challengeOf bytes ≠ [] := by
  cases bytes with
  | none => exact ⟨by decide, by decide⟩
  | some bytes =>
    refine ⟨fun c hc => ?_, ?_⟩
    · obtain ⟨b, -, hc⟩ := List.mem_flatMap.mp hc
      exact plain_percent02x b c hc
    · obtain ⟨bytes, hlen⟩ := bytes
      cases bytes with
      | nil => cases hlen
      | cons b bytes => exact List.cons_ne_nil _ _

/-- The parameters before the authorization. -/
def fixedParameters (challenge : CStr) : Parameters :=
  [("path", .string "/dbsc/register"), ("challenge", .string challenge)]

theorem registrationText_eq (algorithms : List CStr) (path challenge authorization : Option CStr) :
    registrationText algorithms path challenge authorization none none none =
      '(' :: ([' '].intercalate algorithms ++ ')' :: (quotedParam "path" path ++
        (quotedParam "challenge" challenge ++ quotedParam "authorization" authorization))) := by
  have hopen : ("(" : CStr) = ['('] := rfl
  have hclose : (")" : CStr) = [')'] := rfl
  have hnone : ∀ name, quotedParam name none = [] := fun _ => rfl
  simp only [registrationText, hopen, hclose, hnone, List.append_nil, List.append_assoc, List.cons_append,
    List.nil_append]

/-- The items and the parameters of the registration header. -/
theorem innerListField_registrationText {challenge : CStr} (hplain : Plain challenge) (hne : challenge ≠ [])
    (authorization : Option CStr) :
    StructuredFields.innerListField
      (registrationText ["ES256", "RS256"] (some ("/dbsc/register" : CStr)) (some challenge)
      authorization none none none) =
      (StructuredFields.parameters (fixedParameters challenge)
        (quotedParam "authorization" authorization)).bind fun r =>
        if StructuredFields.discardSpaces r.2 = [] then
          some ([(.token "ES256", []), (.token "RS256", [])], r.1)
        else none := by
  have htokens : ∀ t ∈ (["ES256", "RS256"] : List CStr), IsToken t := by
    intro t ht
    rcases List.mem_cons.mp ht with rfl | ht
    · exact isToken_es256
    · rw [List.mem_singleton.mp ht]
      exact isToken_rs256
  have hpath : ("/dbsc/register" : CStr) ≠ [] := by decide
  have hset : (Parameters.set (Parameters.set [] "path" (.string "/dbsc/register")) "challenge" (.string challenge)) =
      fixedParameters challenge := rfl
  rw [registrationText_eq, StructuredFields.innerListField, StructuredFields.discardSpaces_cons (by decide),
    StructuredFields.innerList, StructuredFields.innerItems_tokens htokens (List.cons_ne_nil _ _),
    quotedParam_append "path" hpath, StructuredFields.parameters_string isKey_path plain_path,
    quotedParam_append "challenge" hne, StructuredFields.parameters_string isKey_challenge hplain, hset]
  cases StructuredFields.parameters (fixedParameters challenge) (quotedParam "authorization" authorization) <;> rfl

/-- The offer a client reads. -/
def offerOf (challenge : CStr) (authorization : Option CStr) : Offer := ⟨["ES256", "RS256"], challenge, authorization⟩

/-- The registration header `initiate` answers with. -/
def offerText (challenge : CStr) (authorization : Option CStr) : CStr :=
  registrationText ["ES256", "RS256"] (some ("/dbsc/register" : CStr)) (some challenge) authorization none none none

theorem readOffer_eq {challenge : CStr} (hplain : Plain challenge) (hne : challenge ≠ []) (authorization : Option CStr)
    {ps : Parameters} (hps : StructuredFields.parameters (fixedParameters challenge)
      (quotedParam "authorization" authorization) = some (ps, [])) :
    readOffer (offerText challenge authorization) = (do
      let challenge ← (← stringParameter ps "challenge")
      let authorization ← stringParameter ps "authorization"
      some (offerOf challenge authorization)) := by
  have hnil : StructuredFields.discardSpaces [] = [] := rfl
  simp only [readOffer, offerText, innerListField_registrationText hplain hne, hps, Option.bind_eq_bind,
    Option.bind_some, hnil, if_true]
  rfl

/-- An authorization that is empty is left out. -/
theorem readOffer_absent {challenge : CStr} (hplain : Plain challenge) (hne : challenge ≠ [])
    {authorization : Option CStr}
    (hnone : authorization = none ∨ authorization = some []) :
    readOffer (offerText challenge authorization) = some (offerOf challenge none) := by
  have hempty : quotedParam "authorization" authorization = [] := by
    rcases hnone with rfl | rfl <;> rfl
  have hps : StructuredFields.parameters (fixedParameters challenge) (quotedParam "authorization" authorization) =
      some (fixedParameters challenge, []) := by
    rw [hempty, StructuredFields.parameters_nil]
  rw [readOffer_eq hplain hne authorization hps]
  rfl

/-- A plain one is read as it was configured. -/
theorem readOffer_plain {challenge authorization : CStr} (hplain : Plain challenge) (hne : challenge ≠ [])
    (hauth : Plain authorization) (hne' : authorization ≠ []) :
    readOffer (offerText challenge (some authorization)) = some (offerOf challenge (some authorization)) := by
  have hps :
    StructuredFields.parameters (fixedParameters challenge) (quotedParam "authorization" (some authorization)) =
      some (Parameters.set (fixedParameters challenge) "authorization" (.string authorization), []) := by
    rw [← List.append_nil (quotedParam _ _), quotedParam_append _ hne',
      StructuredFields.parameters_string isKey_authorization hauth, StructuredFields.parameters_nil]
  rw [readOffer_eq hplain hne _ hps]
  rfl

/-- Any other is not read as it was configured. -/
theorem readOffer_other {challenge authorization : CStr} (hplain : Plain challenge) (hne : challenge ≠ [])
    (hauth : ¬ Plain authorization) {offer : Offer}
    (h : readOffer (offerText challenge (some authorization)) = some offer) :
    offer.authorization ≠ some authorization := by
  have hne' : authorization ≠ [] := by
    rintro rfl
    exact hauth fun c hc => absurd hc List.not_mem_nil
  intro heq
  obtain ⟨⟨items, ps⟩, hfield, h₁⟩ := Option.bind_eq_some_iff.mp h
  obtain ⟨_, hchallenge, h₂⟩ := Option.bind_eq_some_iff.mp h₁
  obtain ⟨_, -, h₃⟩ := Option.bind_eq_some_iff.mp h₂
  obtain ⟨authorization', hparam, hoffer⟩ := Option.bind_eq_some_iff.mp h₃
  cases hoffer
  rw [offerText, innerListField_registrationText hplain hne] at hfield
  obtain ⟨⟨ps', rest⟩, hps, hif⟩ := Option.bind_eq_some_iff.mp hfield
  dsimp only at hif heq
  split at hif
  · cases hif
    rw [← List.append_nil (quotedParam _ _), quotedParam_append _ hne'] at hps
    have hsize := StructuredFields.parameters_string_size isKey_authorization hauth hps
    -- the authorization read is a parameter, and too long for one
    have hmem : (("authorization" : CStr), BareItem.string authorization) ∈ ps := by
      unfold stringParameter at hparam
      split at hparam
      · cases hparam
        cases heq
      · rename_i hget
        cases hparam
        cases heq
        exact Parameters.mem_of_get hget
      · cases hparam
    rcases hsize _ hmem with hfixed | hlt
    · have hkey := List.mem_map_of_mem (f := Prod.fst) hfixed
      exact absurd hkey (show ("authorization" : CStr) ∉ (["path", "challenge"] : List CStr) by decide)
    · simp only [BareItem.size] at hlt
      omega
  · cases hif

/-! ## Registering -/

/-- The proof in an honest token. -/
theorem HonestToken.decodes {L : Extern} {offer : Offer} {jwk : Json} {token : CStr} (h : HonestToken L offer jwk token)
    (hadvertised : ∀ algorithm ∈ offer.algorithms, algorithm = "ES256" ∨ algorithm = "RS256")
    (hprint : L.parse (L.printUnformatted jwk) = some jwk) :
    ∃ proof, decodeProof L token = some proof ∧ registrationAccepted L token proof = true ∧
      proof.challenge = some offer.challenge ∧ proof.authorization = offer.authorization := by
  obtain ⟨header, payload, signature, headerJson, payloadJson, algorithm, key, sig, hparts, hheader, hpayload,
    htype, halg, hoffered, hjwk, hjti, hauth, hkey, hsig, hv⟩ := h
  have hobj : Json.asObject (some jwk) = some jwk := by
    cases jwk with
    | obj fields => rfl
    | _ => cases hkey
  have halgorithm : (proofOf L headerJson payloadJson signature).algorithm = some algorithm :=
    congrArg Json.asString halg
  have hchallenge : (proofOf L headerJson payloadJson signature).challenge = some offer.challenge :=
    congrArg Json.asString hjti
  have hproofType : (proofOf L headerJson payloadJson signature).type = some ("dbsc+jwt" : CStr) :=
    congrArg Json.asString htype
  have hproofJwk : (proofOf L headerJson payloadJson signature).jwk = some (L.printUnformatted jwk) := by
    rw [proofOf, hjwk, hobj]
    rfl
  have hauthorization : (proofOf L headerJson payloadJson signature).authorization = offer.authorization := by
    rw [proofOf, hauth]
    cases offer.authorization <;> rfl
  refine ⟨proofOf L headerJson payloadJson signature, ?_, ?_, hchallenge, hauthorization⟩
  · exact decodeProof_eq_some.mpr ⟨headerJson, payloadJson, signature, algorithm, offer.challenge,
      decodeParts_eq_some.mpr ⟨header, payload, hparts, hheader, hpayload⟩, rfl, halgorithm, hchallenge⟩
  · exact registrationAccepted_iff.mpr
      ⟨hproofType, .inr ⟨algorithm, signature, _, halgorithm, hadvertised _ hoffered, rfl,
      hproofJwk, hparts.verifies.mpr ⟨jwk, key, sig, hprint, hkey, hsig, hv⟩⟩⟩

theorem HonestToken.nonEmpty {L : Extern} {offer : Offer} {jwk : Json} {token : CStr}
    (h : HonestToken L offer jwk token) : OpenDbsc.nonEmpty (some token) = some token := by
  obtain ⟨header, payload, signature, _, _, _, _, _, hparts, -⟩ := h
  have hne : token ≠ [] := by
    rw [hparts.eq]
    simp
  simp [OpenDbsc.nonEmpty, hne]

theorem authorizationMatches_iff {cfg : ManagerConfig} {proof : ProofJWT} :
    authorizationMatches cfg proof = true ↔
      ∀ authorization, cfg.authorization = some authorization → proof.authorization = some authorization := by
  unfold authorizationMatches
  cases cfg.authorization with
  | none => simp
  | some authorization => simp

/-- What the client reads is what register demands exactly when the authorization is presentable. -/
theorem offer_matches {cfg : ManagerConfig} {challenge : CStr} (hplain : Plain challenge) (hne : challenge ≠ [])
    (hprintable : ∀ authorization, cfg.authorization = some authorization →
      ∀ c ∈ authorization, StructuredFields.isPrintable c = true) :
    (Presentable cfg → readOffer (offerText challenge cfg.authorization) = some (offerOf challenge cfg.authorization)) ∧
    ∀ offer, readOffer (offerText challenge cfg.authorization) = some offer →
      (∀ algorithm ∈ offer.algorithms, algorithm = "ES256" ∨ algorithm = "RS256") ∧
      (¬ Presentable cfg → ∃ authorization, cfg.authorization = some authorization ∧
        offer.authorization ≠ some authorization) := by
  have hadvertised : ∀ offer, readOffer (offerText challenge cfg.authorization) = some offer →
      ∀ algorithm ∈ offer.algorithms, algorithm = "ES256" ∨ algorithm = "RS256" := by
    intro offer hoffer algorithm hmem
    obtain ⟨⟨items, ps⟩, hfield, h₁⟩ := Option.bind_eq_some_iff.mp hoffer
    obtain ⟨_, -, h₂⟩ := Option.bind_eq_some_iff.mp h₁
    obtain ⟨_, -, h₃⟩ := Option.bind_eq_some_iff.mp h₂
    obtain ⟨_, -, hoffer⟩ := Option.bind_eq_some_iff.mp h₃
    rw [offerText, innerListField_registrationText hplain hne] at hfield
    obtain ⟨_, -, hif⟩ := Option.bind_eq_some_iff.mp hfield
    split at hif
    · cases hif
      cases hoffer
      have hcases : algorithm ∈ (["ES256", "RS256"] : List CStr) := hmem
      simpa using hcases
    · cases hif
  cases hauth : cfg.authorization with
  | none =>
    have hpresentable : Presentable cfg := fun authorization h => by rw [hauth] at h; cases h
    rw [hauth] at hadvertised
    refine ⟨fun _ => readOffer_absent hplain hne (.inl rfl), fun offer hoffer => ⟨hadvertised offer hoffer, ?_⟩⟩
    exact fun hno => absurd hpresentable hno
  | some authorization =>
    rw [hauth] at hadvertised
    have hchars := hprintable authorization hauth
    have hcases : Presentable cfg ↔ authorization ≠ [] ∧ Plain authorization := by
      constructor
      · intro h
        obtain ⟨hne', hquote, hback⟩ := h authorization hauth
        exact ⟨hne', fun c hc => ⟨hchars c hc, fun he => hquote (he ▸ hc), fun he => hback (he ▸ hc)⟩⟩
      · intro h other hother
        cases hauth.symm.trans hother
        exact ⟨h.1, fun hmem => (h.2 _ hmem).2.1 rfl, fun hmem => (h.2 _ hmem).2.2 rfl⟩
    refine ⟨fun h => readOffer_plain hplain hne (hcases.mp h).2 (hcases.mp h).1, fun offer hoffer =>
      ⟨hadvertised offer hoffer, fun hno => ⟨authorization, rfl, ?_⟩⟩⟩
    by_cases hempty : authorization = []
    · rw [hempty, readOffer_absent hplain hne (.inr rfl)] at hoffer
      cases hoffer
      exact fun heq => nomatch heq
    · exact readOffer_other hplain hne (fun hp => hno (hcases.mpr ⟨hempty, hp⟩)) hoffer

/-- What a granted initiate leaves: its session, and the header that offers its challenge. -/
theorem initiated_session {L : Extern} {cfg : ManagerConfig} {m m' : SessionMap} {l : Handled} {id : CStr}
    (ho : Outcome L cfg m l m') (hinit : l.Initiates cfg id) :
    ∃ s bytes, m'.lookup (some id) = some s ∧ s.state = .active ∧ s.challenge = some (challengeOf bytes) ∧
      l.reply.resp.registrationHeader = some (offerText (challengeOf bytes) cfg.authorization) := by
  cases ho.fate id with
  | kept hno => exact absurd (.inl hinit) hno
  | expired hno => exact absurd (.inl hinit) hno
  | renewed hrenews => exact absurd hrenews hinit.not_renews
  | closed hcloses => exact absurd (.inl hinit) (hcloses.not_issues cfg)
  | @initiated userId bytes createdAt now s _ _ _ hs hreply hnew =>
    obtain ⟨-, hstate, -, -, hchallenge, -⟩ :=
      Session.withTtl_keeps (freshSession id userId (challengeOf bytes) createdAt)
      cfg.sessionTtlSeconds now
    rw [← hs] at hstate hchallenge
    refine ⟨s, bytes, hnew, hstate, hchallenge, ?_⟩
    rw [hreply, initiatedResponse, hchallenge]
    rfl

/-- **An honest registration.** After a granted initiate and any calls that
leave its session alone, a client that reads the header as it is meant to be
read, and takes the offer up in time, is granted the register call exactly when
the authorization is presentable; and then it can read the header. -/
theorem honest_registration {L : Extern} {cfg : ManagerConfig} {h₁ h₂ : List (Transition MemoryStore Handled)}
    {ms₁ ms₂ ms₃ : MemoryStore} {l : Handled} {id : CStr} (hrun₁ : ManagerRun L cfg h₁ ms₁) (halloc₁ : Allocates h₁)
    (hinitiate : managerStep L cfg ms₁ l ms₂) (halloc : Obeys (onEnv allocOk) l.events) (hinit : l.Initiates cfg id)
    (hrun₂ : Run (managerStep L cfg) ms₂ h₂ ms₃) (halloc₂ : Allocates h₂)
    (hquiet : ∀ t ∈ h₂, ¬ t.label.Touches cfg id ∧ ¬ Expires t id)
    (hprintable : ∀ authorization, cfg.authorization = some authorization →
      ∀ c ∈ authorization, StructuredFields.isPrintable c = true) :
    ∃ text, l.reply.resp.registrationHeader = some text ∧ (Presentable cfg → ∃ offer, readOffer text = some offer) ∧
      ∀ offer jwk token cookie, readOffer text = some offer → HonestToken L offer jwk token →
        L.parse (L.printUnformatted jwk) = some jwk → nonEmpty cookie = some id →
        (ManagerCall.register cookie (some token)).Returns L cfg ms₃ ∧
        ∀ l' ms₄, managerStep L cfg ms₃ l' ms₄ → Obeys (onEnv allocOk) l'.events →
          l'.call = .register cookie (some token) → (∀ s ∈ ms₃.sessions, s.id = some id → l'.InTime id s) →
          (l'.reply.Ok ↔ Presentable cfg) := by
  obtain ⟨m₁, hR₁⟩ := hrun₁.represents halloc₁
  obtain ⟨m₂, hR₂, ho⟩ := managerStep_outcome hinitiate halloc hR₁
  obtain ⟨s, bytes, hl₂, hactive, hchallenge, htext⟩ := initiated_session ho hinit
  obtain ⟨m₃, hR₃, hl₃⟩ := untouched_run hrun₂ halloc₂ hR₂ hl₂ hquiet
  obtain ⟨hplain, hne⟩ := plain_challengeOf bytes
  obtain ⟨hreads, hother⟩ := offer_matches hplain hne hprintable
  refine ⟨_, htext, fun hpres => ⟨_, hreads hpres⟩, fun offer jwk token cookie hoffer hhonest hprint hcookie =>
    ⟨?_, ?_⟩⟩
  · refine ManagerCall.returns_of_challenge hR₃ fun id' s' htarget hl' => ?_
    cases hcookie.symm.trans htarget
    cases hl₃.symm.trans hl'
    rw [hchallenge]
    exact Option.some_ne_none _
  · intro l' ms₄ hregister halloc' hcall htime
    obtain ⟨hadvertised, hmismatch⟩ := hother offer hoffer
    obtain ⟨proof, hproof, hacc, hjti, hauth⟩ := hhonest.decodes hadvertised hprint
    have htarget : l'.call.target = some id := by rw [hcall]; exact hcookie
    have hverdict : l'.call.verdict L cfg = some (registerVerdict L cfg (some token)) := by rw [hcall]; rfl
    obtain ⟨hmem, hid⟩ := hR₃.mem_of_lookup hl₃
    have htoken := hhonest.nonEmpty
    rcases managerStep_verdict hregister halloc' hR₃ htarget hverdict hl₃ (htime s hmem hid) with
      ⟨resp, hreject, hreply, -⟩ | ⟨s₁, haccept, hok⟩
    · have hnot : ¬ l'.reply.Ok := by
        rw [hreply]
        rcases registerVerdict_eq_reject hreject with rfl | rfl
        · exact refusal_not_ok (by decide)
        · exact fun hok => absurd (show (403 : Int) = 200 from hok.2) (by decide)
      refine ⟨fun hok => absurd hok hnot, fun hpres => ?_⟩
      -- the client answers the session's challenge, so nothing speaks against it
      cases (hreads hpres).symm.trans hoffer
      have hmatches : authorizationMatches cfg proof = true := authorizationMatches_iff.mpr fun _ h => hauth.trans h
      have haccept := registerVerdict_eq_accept.mpr ⟨hactive, token, proof, htoken, hproof, hacc,
        ⟨challengeOf bytes, hjti, hchallenge⟩, hmatches, rfl⟩
      rw [hreject] at haccept
      cases haccept
    · refine ⟨fun _ => Classical.byContradiction fun hno => ?_, fun _ => hok⟩
      obtain ⟨authorization, hcfg, hdiffers⟩ := hmismatch hno
      obtain ⟨-, token', proof', htoken', hproof', -, -, hmatches, -⟩ := registerVerdict_eq_accept.mp haccept
      cases htoken.symm.trans htoken'
      cases hproof.symm.trans hproof'
      exact hdiffers (hauth.symm.trans (authorizationMatches_iff.mp hmatches authorization hcfg))

/-! A device that takes an offer without an authorization up. -/

def honestExtern : Extern :=
  Extern.knowing [proofHeader "ES256" (some deviceJwk), proofPayload (drawnChallenge 0) none, deviceJwk] fun _ _ => true

theorem honestToken_device :
    HonestToken honestExtern (offerOf (drawnChallenge 0) none) deviceJwk (registrationToken (drawnChallenge 0)) := by
  have hheader : (base64urlBytes (base64urlEncode (bytesOf (proofHeader "ES256" (some deviceJwk)).render))).bind
      honestExtern.parseWithLength = some (proofHeader "ES256" (some deviceJwk)) := by
    have hbytes : base64urlBytes (base64urlEncode (bytesOf (proofHeader "ES256" (some deviceJwk)).render)) =
        some (bytesOf (proofHeader "ES256" (some deviceJwk)).render) := by decide +kernel
    rw [hbytes]
    exact knowing_parseWithLength [] fun i hi => absurd hi List.not_mem_nil
  have hpayload : (base64urlBytes (base64urlEncode (bytesOf (proofPayload (drawnChallenge 0) none).render))).bind
      honestExtern.parseWithLength = some (proofPayload (drawnChallenge 0) none) := by
    have hbytes : base64urlBytes (base64urlEncode (bytesOf (proofPayload (drawnChallenge 0) none).render)) =
        some (bytesOf (proofPayload (drawnChallenge 0) none).render) := by decide +kernel
    rw [hbytes]
    exact knowing_parseWithLength [proofHeader "ES256" (some deviceJwk)] (by decide +kernel)
  have hparts : HasParts (registrationToken (drawnChallenge 0))
      (base64urlEncode (bytesOf (proofHeader "ES256" (some deviceJwk)).render))
      (base64urlEncode (bytesOf (proofPayload (drawnChallenge 0) none).render)) (base64urlEncode deviceSignature) :=
    ⟨by decide +kernel, by decide +kernel, by decide +kernel, by decide +kernel⟩
  have hkey : (keyFromJwk honestExtern deviceJwk).isSome = true := by decide +kernel
  have hsig : (signatureBytes honestExtern "ES256" (base64urlEncode deviceSignature)).isSome = true := by decide +kernel
  obtain ⟨key, hkey⟩ := Option.isSome_iff_exists.mp hkey
  obtain ⟨sig, hsig⟩ := Option.isSome_iff_exists.mp hsig
  exact ⟨_, _, _, _, _, "ES256", key, sig, hparts, hheader, hpayload, rfl, rfl, List.mem_cons_self, rfl, rfl, rfl,
    hkey, hsig, rfl⟩

theorem deviceJwk_printsBack : honestExtern.parse (honestExtern.printUnformatted deviceJwk) = some deviceJwk :=
  knowing_parse [proofHeader "ES256" (some deviceJwk), proofPayload (drawnChallenge 0) none] (by decide +kernel)

/-- No authorization, or an empty one. -/
def authorizedConfig (authorization : Option CStr) : ManagerConfig := { plainConfig 0 with authorization }

/-- The store after a login. -/
def loggedInStore : MemoryStore := ⟨[freshSession zeroId "u" (drawnChallenge 0) 0], 8⟩

theorem exists_login {authorization : Option CStr} (hnone : authorization = none ∨ authorization = some []) :
    ∃ l, managerStep honestExtern (authorizedConfig authorization) MemoryStore.empty l loggedInStore ∧
      Obeys (onEnv allocOk) l.events ∧ l.Initiates (authorizedConfig authorization) zeroId ∧
      l.reply.resp.registrationHeader = some (offerText (drawnChallenge 0) authorization) := by
  have hplay : (playCalls honestExtern (authorizedConfig authorization) [(0, some 0, .initiate "u" none)]
      MemoryStore.empty).map (fun r => r.1.map fun t =>
        (decide (t.label.Initiates (authorizedConfig authorization) zeroId),
        t.label.reply.resp.registrationHeader, t.post)) =
        some [(true, some (offerText (drawnChallenge 0) authorization), loggedInStore)] := by
    rcases hnone with rfl | rfl <;> decide +kernel
  obtain ⟨l, ms, hstep, hobeys, hl⟩ := exists_step hplay
  simp only [Prod.mk.injEq, decide_eq_true_eq] at hl
  obtain ⟨hinit, htext, rfl⟩ := hl
  exact ⟨l, hstep, hobeys, hinit, htext⟩

/-- Without an authorization the device is registered. -/
theorem honest_registration_granted : ∃ l₁ l₂ ms, managerStep honestExtern (authorizedConfig none) MemoryStore.empty l₁
      loggedInStore ∧ l₁.Initiates (authorizedConfig none) zeroId ∧
    managerStep honestExtern (authorizedConfig none) loggedInStore l₂ ms ∧
    l₂.call = .register (some zeroId) (some (registrationToken (drawnChallenge 0))) ∧ l₂.reply.Ok := by
  obtain ⟨l₁, hlogin, hobeys₁, hinit, hheader⟩ := exists_login (.inl rfl)
  have hplay : (playCalls honestExtern (authorizedConfig none)
      [(1, some 1, .register (some zeroId) (some (registrationToken (drawnChallenge 0))))] loggedInStore).map
      (fun r => r.1.map fun t => t.label.call) =
        some [.register (some zeroId) (some (registrationToken (drawnChallenge 0)))] := by
    decide +kernel
  obtain ⟨l₂, ms, hregister, hobeys₂, hcall⟩ := exists_step hplay
  have hnone : ∀ t ∈ ([] : List (Transition MemoryStore Handled)), False := fun t ht => absurd ht List.not_mem_nil
  obtain ⟨text, htext, -, hcompletes⟩ :=
    honest_registration Run.init (fun t ht => (hnone t ht).elim) hlogin hobeys₁ hinit
    Run.init (fun t ht => (hnone t ht).elim) (fun t ht => (hnone t ht).elim) fun authorization h => nomatch h
  cases hheader.symm.trans htext
  have hreads : readOffer (offerText (drawnChallenge 0) none) = some (offerOf (drawnChallenge 0) none) :=
    readOffer_absent (plain_challengeOf _).1 (plain_challengeOf _).2 (.inl rfl)
  have htime : ∀ s ∈ loggedInStore.sessions, s.id = some zeroId → l₂.InTime zeroId s := by
    intro s hs _ _ _ _ _ _ _
    rw [List.mem_singleton.mp hs]
    rfl
  have hgranted := (hcompletes _ _ _ _ hreads honestToken_device deviceJwk_printsBack rfl).2 l₂ ms hregister hobeys₂ hcall
    htime
  exact ⟨l₁, l₂, ms, hlogin, hinit, hregister, hcall, hgranted.mpr fun authorization h => nomatch h⟩

/-- With an empty one it is refused: the header does not have it, and register demands it. -/
theorem honest_registration_refused : ∃ l₁ l₂ ms text offer, managerStep honestExtern (authorizedConfig (some []))
      MemoryStore.empty l₁ loggedInStore ∧ Obeys (onEnv allocOk) l₁.events ∧
    l₁.Initiates (authorizedConfig (some [])) zeroId ∧ l₁.reply.resp.registrationHeader = some text ∧
    readOffer text = some offer ∧ HonestToken honestExtern offer deviceJwk (registrationToken (drawnChallenge 0)) ∧
    honestExtern.parse (honestExtern.printUnformatted deviceJwk) = some deviceJwk ∧
    managerStep honestExtern (authorizedConfig (some [])) loggedInStore l₂ ms ∧ Obeys (onEnv allocOk) l₂.events ∧
    l₂.call = .register (some zeroId) (some (registrationToken (drawnChallenge 0))) ∧
    (∀ s ∈ loggedInStore.sessions, s.hasExpires = false) ∧ ¬ l₂.reply.Ok := by
  obtain ⟨l₁, hlogin, hobeys₁, hinit, hheader⟩ := exists_login (.inr rfl)
  have hplay : (playCalls honestExtern (authorizedConfig (some []))
      [(1, some 1, .register (some zeroId) (some (registrationToken (drawnChallenge 0))))] loggedInStore).map
      (fun r => r.1.map fun t => (t.label.call, decide t.label.reply.Ok)) =
        some [(.register (some zeroId) (some (registrationToken (drawnChallenge 0))), false)] := by
    decide +kernel
  obtain ⟨l₂, ms, hregister, hobeys₂, hl⟩ := exists_step hplay
  simp only [Prod.mk.injEq, decide_eq_false_iff_not] at hl
  obtain ⟨hcall, hrefused⟩ := hl
  refine ⟨l₁, l₂, ms, _, _, hlogin, hobeys₁, hinit, hheader, ?_, honestToken_device, deviceJwk_printsBack, hregister,
    hobeys₂, hcall, ?_, hrefused⟩
  · exact readOffer_absent (plain_challengeOf _).1 (plain_challengeOf _).2 (.inr rfl)
  · intro s hs
    rw [List.mem_singleton.mp hs]
    rfl

end OpenDbsc
