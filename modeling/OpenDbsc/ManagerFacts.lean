/-
What the manager's requests come to, with every allocation succeeding.

Register and refresh are one request (`proofRequest`): look the session up,
reach a verdict on the proof, and if it is accepted renew the session and
write it back. They differ in the verdict (`registerVerdict`, `refreshVerdict`).
-/
import OpenDbsc.JwtFacts
import OpenDbsc.Manager

namespace OpenDbsc

open Effects Prog

/-! ## Texts -/

@[simp] theorem assuming_emitEvent (cfg : ManagerConfig) (type : CStr) (user sessionId detail : Option CStr) :
    (emitEvent cfg type user sessionId detail).assuming allocOk = emitEvent cfg type user sessionId detail := by
  unfold emitEvent
  split
  · exact assuming_onEvent ..
  · rfl

@[simp] theorem assuming_copyString (s : Option CStr) : (copyString s).assuming allocOk = pure s := by
  cases s with
  | none => rfl
  | some s => simp [copyString]

def setCookieText (cfg : ManagerConfig) (value : Option CStr) (maxAge : Int) : CStr :=
  percentS cfg.cookieName ++ "=" ++ percentS value ++ "; Path=" ++ percentS cfg.cookiePath ++
    "; Max-Age=" ++ percentD maxAge ++ "; HttpOnly" ++ (if cfg.secure then ("; Secure" : CStr) else []) ++
    optional "; Domain=" cfg.cookieDomain ++ optional "; SameSite=" cfg.sameSite

@[simp] theorem assuming_buildSetCookieWithMaxAge (cfg : ManagerConfig) (value : Option CStr) (maxAge : Int) :
    (buildSetCookieWithMaxAge cfg value maxAge).assuming allocOk = pure (some (setCookieText cfg value maxAge)) := by
  simp only [buildSetCookieWithMaxAge, setCookieText, assuming_bind, assuming_malloc, pure_bind, Bool.not_true,
    Bool.false_eq_true, if_false, assuming_pure]

@[simp] theorem assuming_buildSetCookie (cfg : ManagerConfig) (value : Option CStr) :
    (buildSetCookie cfg value).assuming allocOk = pure (some (setCookieText cfg value cfg.cookieTtlSeconds)) :=
  assuming_buildSetCookieWithMaxAge ..

/-- The instruction a session is answered with while it goes on. -/
def sessionInstruction (cfg : ManagerConfig) (session : Session) : SessionInstruction :=
  { instructionInit with
    sessionIdentifier := session.id
    refreshUrl := some ("/dbsc/refresh" : CStr)
    hasContinue := true
    credentials := [⟨some ("cookie" : CStr), cfg.cookieName, some ("Path=" ++ percentS cfg.cookiePath ++
      "; Secure; HttpOnly; SameSite=" ++ percentS cfg.sameSite)⟩]
    credentialsCapacity := 4 }

@[simp] theorem assuming_instructionAddCredential (inst : SessionInstruction) (cred : SessionCredential) :
    (instructionAddCredential inst cred).assuming allocOk = pure (0, { inst with
      credentials := inst.credentials ++ [cred]
      credentialsCapacity := if inst.credentials.length < inst.credentialsCapacity then inst.credentialsCapacity
        else if inst.credentialsCapacity = 0 then 4 else inst.credentialsCapacity * 2 }) := by
  simp [instructionAddCredential, credentialSetType, credentialSetName, credentialSetAttributes]

@[simp] theorem assuming_buildInstructionBody (L : Extern) (cfg : ManagerConfig) (session : Session) :
    (buildInstructionBody L cfg session true).assuming allocOk =
      pure (some (L.print (sessionInstruction cfg session).json)) := by
  simp [buildInstructionBody, instructionSetSessionIdentifier, instructionSetRefreshUrl, instructionSetContinue,
    credentialSetType, credentialSetName, credentialSetAttributes, sessionInstruction, instructionInit, credentialInit,
    scopeSetIncludeSite, scopeInit]

@[simp] theorem assuming_buildInstructionBody_stop (L : Extern) (cfg : ManagerConfig) (session : Session) :
    (buildInstructionBody L cfg session false).assuming allocOk =
      pure (some (L.print (instructionSetContinue instructionInit false).json)) := by
  simp [buildInstructionBody]

/-! ## Responses -/

def refusal (statusCode : Int) (text : CStr) : ManagerResponse :=
  { managerResponseInit with statusCode, body := some text }

@[simp] theorem assuming_refuse (statusCode : Int) (text : CStr) :
    (refuse statusCode text).assuming allocOk = pure (0, refusal statusCode text) := by
  simp [refuse, refusal]

/-- The 403 that carries a session's challenge. -/
def challengeResponse (session : Session) : ManagerResponse :=
  { refusal 403 "\"Secure-Session-Challenge issued\"" with
    challengeHeader := session.challenge.map fun challenge => challengeText challenge session.id }

@[simp] theorem assuming_challengeAgain (session : Session) :
    (challengeAgain session).assuming allocOk = pure (0, challengeResponse session) := by
  simp [challengeAgain, setChallengeResponse, challengeResponse, refusal]

/-- The 200 an accepted proof is answered with. -/
def renewedResponse (L : Extern) (cfg : ManagerConfig) (session : Session) : ManagerResponse where
  statusCode := 200
  setCookie := some (setCookieText cfg session.id cfg.cookieTtlSeconds)
  registrationHeader := none
  challengeHeader := session.challenge.map fun challenge => challengeText challenge session.id
  body := some (L.print (sessionInstruction cfg session).json)

@[simp] theorem assuming_acceptedResponse (L : Extern) (cfg : ManagerConfig) (session : Session) :
    (acceptedResponse L cfg session).assuming allocOk = pure (0, renewedResponse L cfg session) := by
  simp [acceptedResponse, renewedResponse, managerResponseInit]

/-! ## Challenges and expiry -/

/-- The text of a challenge: 64 hex digits, or the fixed one without entropy. -/
def challengeOf (bytes : Option { b : List UInt8 // b.length = 32 }) : CStr :=
  match bytes with
  | none => "fallback-challenge"
  | some bytes => bytes.val.flatMap percent02x

@[simp] theorem assuming_managerGenerateChallenge :
    managerGenerateChallenge.assuming allocOk = getentropy 32 >>= fun bytes => pure (some (challengeOf bytes)) := by
  simp only [managerGenerateChallenge, assuming_bind, assuming_getentropy]
  refine congrArg (getentropy 32 >>= ·) (funext fun bytes => ?_)
  cases bytes with
  | none => exact assuming_strdup _
  | some bytes =>
    unfold challengeOf
    generalize bytes.val.flatMap percent02x = hex
    simp

@[simp] theorem assuming_applySessionTtl (session : Session) (ttlSeconds : Int) :
    (applySessionTtl session ttlSeconds).assuming allocOk = applySessionTtl session ttlSeconds := by
  unfold applySessionTtl
  split
  · simp
  · rfl

/-! ## Requests on the runtime and the store -/

@[simp] theorem assuming_sys {α : Type} (p : Prog Sys α) :
    (sys p).assuming (onEnv allocOk) = sys (p.assuming allocOk) :=
  assuming_lift p

@[simp] theorem sys_pure {α : Type} (a : α) : sys (pure a) = pure a := rfl

@[simp] theorem sys_bind {α β : Type} (p : Prog Sys α) (f : α → Prog Sys β) :
    sys (p >>= f) = sys p >>= fun a => sys (f a) :=
  lift_bind p f

@[simp] theorem assuming_storeCreate (s : Session) :
    (storeCreate s).assuming (onEnv allocOk) = storeCreate s := assuming_call (T := StoreSig) (.create s)

@[simp] theorem assuming_storeGet (id : CStr) :
    (storeGet id).assuming (onEnv allocOk) = storeGet id := assuming_call (T := StoreSig) (.get (some id))

@[simp] theorem assuming_storeUpdate (s : Session) :
    (storeUpdate s).assuming (onEnv allocOk) = storeUpdate s := assuming_call (T := StoreSig) (.update s)

@[simp] theorem assuming_storeDelete (id : CStr) :
    (storeDelete id).assuming (onEnv allocOk) = storeDelete id := assuming_call (T := StoreSig) (.delete (some id))

/-! ## Verdicts -/

/-- What becomes of a request with a proof, once its session is found. -/
inductive Verdict where
  | reject (resp : ManagerResponse)
  /-- A null challenge is compared. -/
  | undefined
  /-- The session, with a new challenge and expiry yet to come. -/
  | accept (session : Session)

def challengeVerdict (session : Session) (proof : ProofJWT) (next : Verdict) : Verdict :=
  match proof.challenge, session.challenge with
  | none, _ => .reject (challengeResponse session)
  | some _, none => .undefined
  | some jti, some challenge => if jti = challenge then next else .reject (challengeResponse session)

/-- The session bound to the proof's key. -/
def bindSession (session : Session) (proof : ProofJWT) : Session :=
  { session with state := .bound, publicKey := proof.jwk, algorithm := proof.algorithm }

def registerVerdict (L : Extern) (cfg : ManagerConfig) (header : Option CStr) (session : Session) : Verdict :=
  if session.state ≠ .active then .reject (refusal 400 "\"session is not in active state for registration\"")
  else match nonEmpty header with
    | none => .reject (challengeResponse session)
    | some token => match decodeProof L token with
      | none => .reject (challengeResponse session)
      | some proof =>
        if registrationAccepted L token proof then
          challengeVerdict session proof
            (if authorizationMatches cfg proof then .accept (bindSession session proof)
              else .reject (challengeResponse session))
        else .reject (challengeResponse session)

def refreshVerdict (L : Extern) (header : Option CStr) (session : Session) : Verdict :=
  if session.state ≠ .bound then .reject (refusal 400 "\"session is not bound\"")
  else match nonEmpty header, session.publicKey with
    | some token, some publicKey => match decodeProof L token with
      | none => .reject (challengeResponse session)
      | some proof =>
        if refreshAccepted L token publicKey proof then challengeVerdict session proof (.accept session)
        else .reject (challengeResponse session)
    | _, _ => .reject (challengeResponse session)

/-- Each accepts exactly under its conditions, and rejects with another status than 200. -/
theorem challengeVerdict_eq_accept {session s₁ : Session} {proof : ProofJWT} {next : Verdict} :
    challengeVerdict session proof next = .accept s₁ ↔
      (∃ challenge, proof.challenge = some challenge ∧ session.challenge = some challenge) ∧ next = .accept s₁ := by
  unfold challengeVerdict
  cases proof.challenge with
  | none => simp
  | some jti =>
    cases session.challenge with
    | none => simp
    | some challenge =>
      by_cases h : jti = challenge
      · simp [h]
      · simp [h, Ne.symm h]

theorem challengeVerdict_eq_reject {session : Session} {proof : ProofJWT} {next : Verdict} {resp : ManagerResponse}
    (h : challengeVerdict session proof next = .reject resp) :
    resp = challengeResponse session ∨ next = .reject resp := by
  unfold challengeVerdict at h
  split at h
  · cases h
    exact .inl rfl
  · cases h
  · split at h
    · exact .inr h
    · cases h
      exact .inl rfl

theorem registerVerdict_eq_accept {L : Extern} {cfg : ManagerConfig} {header : Option CStr} {session s₁ : Session} :
    registerVerdict L cfg header session = .accept s₁ ↔ session.state = .active ∧ ∃ token proof,
      nonEmpty header = some token ∧ decodeProof L token = some proof ∧ registrationAccepted L token proof = true ∧
      (∃ challenge, proof.challenge = some challenge ∧ session.challenge = some challenge) ∧
      authorizationMatches cfg proof = true ∧ s₁ = bindSession session proof := by
  unfold registerVerdict
  by_cases hstate : session.state = .active
  · simp only [hstate, ne_eq, not_true_eq_false, if_false, true_and]
    cases nonEmpty header with
    | none => simp
    | some token =>
      simp only [Option.some.injEq, exists_eq_left', exists_and_left]
      cases decodeProof L token with
      | none => simp
      | some proof =>
        simp only [Option.some.injEq, exists_eq_left']
        cases registrationAccepted L token proof with
        | false => simp
        | true =>
          simp only [if_true, true_and, challengeVerdict_eq_accept]
          cases authorizationMatches cfg proof with
          | false => simp
          | true =>
            simp only [if_true, true_and, Verdict.accept.injEq]
            rw [eq_comm (a := s₁)]
  · simp [hstate]

theorem refreshVerdict_eq_accept {L : Extern} {header : Option CStr} {session s₁ : Session} :
    refreshVerdict L header session = .accept s₁ ↔ session.state = .bound ∧ ∃ token publicKey proof,
      nonEmpty header = some token ∧ session.publicKey = some publicKey ∧ decodeProof L token = some proof ∧
      refreshAccepted L token publicKey proof = true ∧
      (∃ challenge, proof.challenge = some challenge ∧ session.challenge = some challenge) ∧ s₁ = session := by
  unfold refreshVerdict
  by_cases hstate : session.state = .bound
  · simp only [hstate, ne_eq, not_true_eq_false, if_false, true_and]
    cases nonEmpty header with
    | none => simp
    | some token =>
      cases session.publicKey with
      | none => simp
      | some publicKey =>
        simp only [Option.some.injEq, exists_eq_left', exists_and_left]
        cases decodeProof L token with
        | none => simp
        | some proof =>
          simp only [Option.some.injEq, exists_eq_left']
          cases refreshAccepted L token publicKey proof with
          | false => simp
          | true =>
            simp only [if_true, true_and, challengeVerdict_eq_accept, Verdict.accept.injEq]
            rw [eq_comm (a := s₁)]
  · simp [hstate]

theorem registerVerdict_eq_reject {L : Extern} {cfg : ManagerConfig} {header : Option CStr} {session : Session}
    {resp : ManagerResponse} (h : registerVerdict L cfg header session = .reject resp) :
    resp = refusal 400 "\"session is not in active state for registration\"" ∨ resp = challengeResponse session := by
  unfold registerVerdict at h
  split at h
  · cases h
    exact .inl rfl
  · right
    split at h
    · cases h
      rfl
    · split at h
      · cases h
        rfl
      · split at h
        · rcases challengeVerdict_eq_reject h with rfl | h
          · rfl
          · split at h
            · cases h
            · cases h
              rfl
        · cases h
          rfl

theorem refreshVerdict_eq_reject {L : Extern} {header : Option CStr} {session : Session} {resp : ManagerResponse}
    (h : refreshVerdict L header session = .reject resp) :
    resp = refusal 400 "\"session is not bound\"" ∨ resp = challengeResponse session := by
  unfold refreshVerdict at h
  split at h
  · cases h
    exact .inl rfl
  · right
    split at h
    · split at h
      · cases h
        rfl
      · split at h
        · rcases challengeVerdict_eq_reject h with rfl | h
          · rfl
          · cases h
        · cases h
          rfl
    · cases h
      rfl

/-- A new challenge, a new expiry, and the session written back. -/
def renew (L : Extern) (cfg : ManagerConfig) (type detail : CStr) (session : Session) :
    Request (Int × ManagerResponse) := do
  let bytes ← sys (getentropy 32)
  let session ← sys (applySessionTtl { session with challenge := some (challengeOf bytes) } cfg.sessionTtlSeconds)
  if (← storeUpdate session) ≠ 0 then return (-1, managerResponseInit)
  sys (emitEvent cfg type session.userId session.id (some detail))
  return (0, renewedResponse L cfg session)

def runVerdict (L : Extern) (cfg : ManagerConfig) (type : CStr) (detail : Session → CStr) :
    Verdict → Request (Int × ManagerResponse)
  | .reject resp => pure (0, resp)
  | .undefined => sys undefinedBehavior
  | .accept session => renew L cfg type (detail session) session

/-- A request with a proof. -/
def proofRequest (L : Extern) (cfg : ManagerConfig) (id : Option CStr) (missing : ManagerResponse)
    (verdict : Session → Verdict) (type : CStr) (detail : Session → CStr) : Request (Int × ManagerResponse) :=
  match nonEmpty id with
  | none => pure (0, missing)
  | some id => storeGet id >>= fun out => match out with
    | none => pure (0, refusal 401 "\"invalid session\"")
    | some session => runVerdict L cfg type detail (verdict session)

def registerDetail (session : Session) : CStr := ("alg=" ++ percentS session.algorithm).take 255

theorem undefinedBehavior_bind {α β : Type} (f : α → Request β) :
    sys (undefinedBehavior : Prog Sys α) >>= f = sys undefinedBehavior := by
  refine congrArg (op (S := Sys.sum StoreSig) (.inl SysOp.undefined)) (funext fun x => ?_)
  nomatch x

section

variable (L : Extern) (cfg : ManagerConfig) (type : CStr) (detail : Session → CStr)

/-- Comparing challenges, as a verdict. -/
theorem challengeMatches_bind (session : Session) (proof : ProofJWT) (next : Verdict) :
    (sys (challengeMatches proof session) >>= fun b =>
      if (!b) = true then pure (0, challengeResponse session) else runVerdict L cfg type detail next) =
    runVerdict L cfg type detail (challengeVerdict session proof next) := by
  unfold challengeMatches challengeVerdict
  cases proof.challenge with
  | none => rfl
  | some jti =>
    cases session.challenge with
    | none => exact undefinedBehavior_bind _
    | some challenge =>
      by_cases h : jti = challenge
      · simp [h]
      · simp [h, runVerdict]

@[simp] theorem assuming_challengeMatches (proof : ProofJWT) (session : Session) :
    (challengeMatches proof session).assuming allocOk = challengeMatches proof session := by
  unfold challengeMatches
  split
  · rfl
  · exact assuming_undefinedBehavior
  · rfl

@[simp] theorem assuming_renewSession (session : Session) :
    (renewSession L cfg type (detail session) session).assuming (onEnv allocOk) =
      runVerdict L cfg type detail (.accept session) := by
  simp only [renewSession, assuming_bind, assuming_sys, assuming_managerGenerateChallenge, sys_bind, sys_pure,
    bind_assoc,
    pure_bind, assuming_sessionSetChallenge, assuming_applySessionTtl, assuming_storeUpdate, assuming_ite,
      assuming_pure,
    assuming_emitEvent, assuming_acceptedResponse, runVerdict, renew]

end

theorem assuming_managerRegister (L : Extern) (cfg : ManagerConfig) (id header : Option CStr) :
    (managerRegister L cfg id header).assuming (onEnv allocOk) =
      proofRequest L cfg id (refusal 401 "\"missing session cookie\"") (registerVerdict L cfg header) "REGISTER"
        registerDetail := by
  have hminus : ¬(-1 : Int) = 0 := by decide
  unfold managerRegister proofRequest
  cases nonEmpty id with
  | none => simp only [assuming_sys, assuming_refuse, sys_pure]
  | some id =>
    simp only [assuming_bind, assuming_storeGet]
    refine congrArg (storeGet id >>= ·) (funext fun out => ?_)
    cases out with
    | none => simp only [assuming_sys, assuming_refuse, sys_pure]
    | some session =>
      unfold registerVerdict
      by_cases hstate : session.state = .active
      · simp only [hstate, ne_eq, not_true_eq_false, if_false]
        cases nonEmpty header with
        | none => simp only [assuming_sys, assuming_challengeAgain, sys_pure, runVerdict]
        | some token =>
          simp only [assuming_bind, assuming_sys, assuming_jwtDecodeAndVerify, sys_pure, pure_bind]
          cases decodeProof L token with
          | none =>
            simp only [hminus, not_false_eq_true, if_true, assuming_sys, assuming_challengeAgain, sys_pure, runVerdict]
          | some proof =>
            simp only [returnCode_eq_zero]
            cases registrationAccepted L token proof with
            | false =>
              simp only [Bool.false_eq_true, not_false_eq_true, if_true, if_false, assuming_sys,
                assuming_challengeAgain, sys_pure, runVerdict]
            | true =>
              simp only [not_true_eq_false, if_true, if_false, assuming_bind, assuming_sys, assuming_challengeMatches,
                assuming_ite, assuming_challengeAgain, assuming_sessionSetPublicKey, assuming_sessionSetAlgorithm,
                sys_pure, pure_bind]
              rw [← challengeMatches_bind]
              cases authorizationMatches cfg proof with
              | false => rfl
              | true =>
                have hrenew := assuming_renewSession L cfg "REGISTER" registerDetail (bindSession session proof)
                simp only [Bool.not_true, Bool.false_eq_true, if_false, if_true, ← hrenew]
                rfl
      · simp only [hstate, ne_eq, not_false_eq_true, if_true, assuming_sys, assuming_refuse, sys_pure, runVerdict]

theorem assuming_managerRefresh (L : Extern) (cfg : ManagerConfig) (id header : Option CStr) :
    (managerRefresh L cfg id header).assuming (onEnv allocOk) =
      proofRequest L cfg id (refusal 400 "\"missing session identification\"") (refreshVerdict L header) "REFRESH"
        (fun _ => "session extended") := by
  have hminus : ¬(-1 : Int) = 0 := by decide
  unfold managerRefresh proofRequest
  cases nonEmpty id with
  | none => simp only [assuming_sys, assuming_refuse, sys_pure]
  | some id =>
    simp only [assuming_bind, assuming_storeGet]
    refine congrArg (storeGet id >>= ·) (funext fun out => ?_)
    cases out with
    | none => simp only [assuming_sys, assuming_refuse, sys_pure]
    | some session =>
      unfold refreshVerdict
      by_cases hstate : session.state = .bound
      · simp only [hstate, ne_eq, not_true_eq_false, if_false]
        cases nonEmpty header with
        | none => simp only [assuming_sys, assuming_challengeAgain, sys_pure, runVerdict]
        | some token =>
          cases hkey : session.publicKey with
          | none => simp only [assuming_sys, assuming_challengeAgain, sys_pure, runVerdict]
          | some publicKey =>
            simp only [assuming_bind, assuming_sys, assuming_jwtVerifyWithJwk, sys_pure, pure_bind]
            cases decodeProof L token with
            | none =>
              simp only [hminus, not_false_eq_true, if_true, assuming_sys, assuming_challengeAgain, sys_pure,
                runVerdict]
            | some proof =>
              simp only [returnCode_eq_zero]
              cases refreshAccepted L token publicKey proof with
              | false =>
                simp only [Bool.false_eq_true, not_false_eq_true, if_true, if_false, assuming_sys,
                  assuming_challengeAgain, sys_pure, runVerdict]
              | true =>
                simp only [not_true_eq_false, if_true, if_false, assuming_bind, assuming_sys,
                  assuming_challengeMatches, assuming_ite, assuming_challengeAgain, sys_pure]
                rw [← challengeMatches_bind, ← assuming_renewSession L cfg "REFRESH" (fun _ => "session extended")]
      · simp only [hstate, ne_eq, not_false_eq_true, if_true, assuming_sys, assuming_refuse, sys_pure, runVerdict]

/-! ## Initiating and closing -/

/-- The session `initiate` makes, its expiry yet to come. -/
def freshSession (id userId challenge : CStr) (createdAt : Int) : Session :=
  { sessionInit with id := some id, userId := some userId, challenge := some challenge, createdAt }

/-- The response to a login. -/
def initiatedResponse (cfg : ManagerConfig) (session : Session) : ManagerResponse where
  statusCode := 200
  setCookie := some (setCookieText cfg session.id cfg.cookieTtlSeconds)
  registrationHeader := some (registrationText ["ES256", "RS256"] (some ("/dbsc/register" : CStr)) session.challenge
    cfg.authorization none none none)
  challengeHeader := none
  body := none

@[simp] theorem assuming_copyOut (outSession : Option Session) (session : Session) :
    (copyOut outSession session).assuming allocOk = pure (outSession.map fun _ => session) := by
  cases outSession with
  | none => rfl
  | some _ => simp [copyOut]

theorem assuming_managerInitiate (L : Extern) (cfg : ManagerConfig) (userId : CStr) (outSession : Option Session) :
    (managerInitiate L cfg userId outSession).assuming (onEnv allocOk) = (do
      let some id ← sys (sessionNewId L) | return (-1, managerResponseInit, outSession)
      let bytes ← sys (getentropy 32)
      let now ← sys time
      let session ← sys (applySessionTtl (freshSession id userId (challengeOf bytes) now) cfg.sessionTtlSeconds)
      if (← storeCreate session) ≠ 0 then return (-1, managerResponseInit, outSession)
      sys (emitEvent cfg "LOGIN" (some userId) session.id (some ("login successful" : CStr)))
      return (0, initiatedResponse cfg session, outSession.map fun _ => session)) := by
  simp only [managerInitiate, assuming_bind, assuming_sys, assuming_sessionNewId]
  refine congrArg (sys (sessionNewId L) >>= ·) (funext fun id => ?_)
  cases id with
  | none => simp only [assuming_pure]
  | some id =>
    simp only [assuming_bind, assuming_sys, assuming_sessionSetId, assuming_sessionSetUserId,
      assuming_managerGenerateChallenge, sys_bind, sys_pure, bind_assoc, pure_bind, assuming_sessionSetChallenge,
      assuming_time, assuming_applySessionTtl, assuming_storeCreate, assuming_ite, assuming_pure,
      assuming_buildSetCookie, assuming_registrationSerialize, assuming_copyOut, assuming_emitEvent, sessionSetState,
      sessionSetCreatedAt, sessionInit, managerResponseInit, freshSession, initiatedResponse]

theorem assuming_managerGetSession (id : CStr) :
    (managerGetSession id).assuming (onEnv allocOk) = storeGet id := assuming_storeGet id

/-- The response to a logout. -/
def closedResponse (L : Extern) (cfg : ManagerConfig) (session : Session) : ManagerResponse :=
  { managerResponseInit with
    setCookie := some (setCookieText cfg session.id 0)
    body := some (L.print (instructionSetContinue instructionInit false).json)
    statusCode := 200 }

theorem assuming_managerClose (L : Extern) (cfg : ManagerConfig) (sessionId : Option CStr) :
    (managerClose L cfg sessionId).assuming (onEnv allocOk) =
      match nonEmpty sessionId with
      | none => pure (0, refusal 400 "\"missing session identification\"")
      | some id => do
        let some session ← storeGet id | return (0, refusal 401 "\"invalid session\"")
        if (← storeDelete id) ≠ 0 then return (-1, closedResponse L cfg session)
        sys (emitEvent cfg "CLOSE" session.userId sessionId (some ("session closed" : CStr)))
        return (0, closedResponse L cfg session) := by
  unfold managerClose
  cases nonEmpty sessionId with
  | none => simp only [assuming_sys, assuming_refuse, sys_pure]
  | some id =>
    simp only [assuming_bind, assuming_storeGet]
    refine congrArg (storeGet id >>= ·) (funext fun out => ?_)
    cases out with
    | none => simp only [assuming_sys, assuming_refuse, sys_pure]
    | some session =>
      have huser : ¬(session.userId ≠ none ∧ session.userId = none) := fun h => h.1 h.2
      simp only [assuming_bind, assuming_sys, assuming_copyString, sys_pure, pure_bind, if_neg huser,
        assuming_buildInstructionBody_stop, assuming_buildSetCookieWithMaxAge, assuming_storeDelete, assuming_ite,
        assuming_pure, assuming_emitEvent, closedResponse]

end OpenDbsc
