/-
`manager/manager.c`: the five requests a server hands to the library.

A request is a program over the runtime and the store: it calls the store's
`get`, works on the copy, and writes the copy back. It returns C's return code
and the response, which may be partly filled when the code is -1. A null
manager or response is refused at once and not modelled; freeing is left out.
-/
import OpenDbsc.Header
import OpenDbsc.Instruction
import OpenDbsc.Jwt
import OpenDbsc.Store

namespace OpenDbsc

open Effects Prog

structure ManagerConfig where
  cookieName : Option CStr
  cookiePath : Option CStr
  cookieDomain : Option CStr
  secure : Bool
  sameSite : Option CStr
  cookieTtlSeconds : Int
  sessionTtlSeconds : Int
  authorization : Option CStr
  /-- Whether `on_event` is set. -/
  onEvent : Bool

structure ManagerResponse where
  statusCode : Int
  setCookie : Option CStr
  registrationHeader : Option CStr
  challengeHeader : Option CStr
  body : Option CStr

def managerResponseInit : ManagerResponse := ⟨0, none, none, none, none⟩

/-- A request's program, over the runtime and the store. -/
abbrev Request := Prog (Sys.sum StoreSig)

def sys {α : Type} (p : Prog Sys α) : Request α := p.lift

def storeCreate (session : Session) : Request Int := call (T := StoreSig) (.create session)

def storeGet (id : CStr) : Request (Option Session) := call (T := StoreSig) (.get (some id))

def storeUpdate (session : Session) : Request Int := call (T := StoreSig) (.update session)

def storeDelete (id : CStr) : Request Int := call (T := StoreSig) (.delete (some id))

def emitEvent (cfg : ManagerConfig) (type : CStr) (user sessionId detail : Option CStr) : Prog Sys Unit :=
  if cfg.onEvent then onEvent type user sessionId detail else pure ()

/-- A random 32-byte hex challenge, or a fixed one when there is no entropy. -/
def managerGenerateChallenge : Prog Sys (Option CStr) := do
  match ← getentropy 32 with
  | none => strdup "fallback-challenge"
  | some bytes => do
    if ← malloc (32 * 2 + 1) then pure (some (bytes.val.flatMap percent02x)) else pure none

def copyString (s : Option CStr) : Prog Sys (Option CStr) :=
  match s with
  | none => pure none
  | some s => strdup s

/-- `opendbsc_manager_init`: the configuration copied, with its defaults. -/
def managerInit (cfg : ManagerConfig) : Prog Sys ManagerConfig := do
  let cookieName ← copyString (some (cfg.cookieName.getD "session_id"))
  let cookiePath ← copyString (some (cfg.cookiePath.getD "/"))
  let cookieDomain ← copyString cfg.cookieDomain
  let sameSite ← copyString (some (cfg.sameSite.getD "Lax"))
  let authorization ← copyString cfg.authorization
  let cookieTtlSeconds := if cfg.cookieTtlSeconds = 0 then 3600 else cfg.cookieTtlSeconds
  pure { cfg with cookieName, cookiePath, cookieDomain, sameSite, authorization, cookieTtlSeconds }

/-- A string that is there and not empty. -/
def nonEmpty (s : Option CStr) : Option CStr := s.filter (· ≠ [])

/-- `text` before a string that is there and not empty. -/
def optional (text : CStr) (s : Option CStr) : CStr :=
  match nonEmpty s with
  | none => []
  | some s => text ++ s

/-- The length is measured in parts: the `SameSite` text with the start, its value
apart. Lengths from `INT_MAX` on are in `TwoPass`. -/
def buildSetCookieWithMaxAge (cfg : ManagerConfig) (value : Option CStr) (maxAge : Int) :
    Prog Sys (Option CStr) := do
  let start := percentS cfg.cookieName ++ "=" ++ percentS value ++ "; Path=" ++ percentS cfg.cookiePath ++
    "; Max-Age=" ++ percentD maxAge ++ "; HttpOnly" ++ (if cfg.secure then ("; Secure" : CStr) else [])
  let n := match nonEmpty cfg.sameSite with
    | none => start.length
    | some sameSite => (start ++ "; SameSite=").length + sameSite.length
  let n := n + (optional "; Domain=" cfg.cookieDomain).length
  if !(← malloc (n + 1)) then return none
  return some (start ++ optional "; Domain=" cfg.cookieDomain ++ optional "; SameSite=" cfg.sameSite)

def buildSetCookie (cfg : ManagerConfig) (value : Option CStr) : Prog Sys (Option CStr) :=
  buildSetCookieWithMaxAge cfg value cfg.cookieTtlSeconds

/-- The credential's attributes stay null when their buffer cannot be allocated. -/
def buildInstructionBody (L : Extern) (cfg : ManagerConfig) (session : Session) (continueSession : Bool) :
    Prog Sys (Option CStr) := do
  if !continueSession then
    return ← instructionToString L (instructionSetContinue instructionInit false)
  let inst := instructionSetContinue instructionInit true
  let (_, inst) ← instructionSetSessionIdentifier inst session.id
  let (_, inst) ← instructionSetRefreshUrl inst (some ("/dbsc/refresh" : CStr))
  let inst := { inst with scope := scopeSetIncludeSite inst.scope false }
  let (_, cred) ← credentialSetType credentialInit (some ("cookie" : CStr))
  let (_, cred) ← credentialSetName cred cfg.cookieName
  let attrs := "Path=" ++ percentS cfg.cookiePath ++ "; Secure; HttpOnly; SameSite=" ++ percentS cfg.sameSite
  let (_, cred) ← (do if ← malloc (attrs.length + 1) then credentialSetAttributes cred (some attrs) else pure (0, cred))
  let (_, inst) ← instructionAddCredential inst cred
  instructionToString L inst

def applySessionTtl (session : Session) (ttlSeconds : Int) : Prog Sys Session :=
  if ttlSeconds > 0 then do
    let now ← time
    pure (sessionSetExpiresAt session (now + ttlSeconds))
  else pure { session with expiresAt := 0, hasExpires := false }

/-- A refusal: a status and a quoted text. -/
def refuse (statusCode : Int) (text : CStr) : Prog Sys (Int × ManagerResponse) := do
  let body ← strdup text
  pure (0, { managerResponseInit with statusCode, body })

def setChallengeResponse (resp : ManagerResponse) (challenge sessionId : Option CStr) (status : Int) :
    Prog Sys ManagerResponse := do
  let challengeHeader ← challengeSerialize challenge sessionId
  let body ← strdup "\"Secure-Session-Challenge issued\""
  pure { resp with statusCode := status, challengeHeader, body }

/-- The 403 that carries a session's challenge. -/
def challengeAgain (session : Session) : Prog Sys (Int × ManagerResponse) := do
  let resp ← setChallengeResponse managerResponseInit session.challenge session.id 403
  pure (0, resp)

/-- The copy for the caller, if it wants one. -/
def copyOut (outSession : Option Session) (session : Session) : Prog Sys (Option Session) :=
  match outSession with
  | none => pure none
  | some _ => do
    let (_, copy) ← sessionCopy session
    pure (some copy)

/-- `outSession` is the session the caller wants a copy in, if any. -/
def managerInitiate (L : Extern) (cfg : ManagerConfig) (userId : CStr) (outSession : Option Session) :
    Request (Int × ManagerResponse × Option Session) := do
  let resp := managerResponseInit
  let some id ← sys (sessionNewId L) | return (-1, resp, outSession)
  let (_, session) ← sys (sessionSetId sessionInit (some id))
  let (_, session) ← sys (sessionSetUserId session (some userId))
  let session := sessionSetState session .active
  let some challenge ← sys managerGenerateChallenge | return (-1, resp, outSession)
  let (_, session) ← sys (sessionSetChallenge session (some challenge))
  let now ← sys time
  let session := sessionSetCreatedAt session now
  let session ← sys (applySessionTtl session cfg.sessionTtlSeconds)
  if (← storeCreate session) ≠ 0 then return (-1, resp, outSession)
  let setCookie ← sys (buildSetCookie cfg session.id)
  let registrationHeader ← sys (registrationSerialize ["ES256", "RS256"] (some ("/dbsc/register" : CStr))
    session.challenge cfg.authorization none none none)
  let resp := { resp with setCookie, registrationHeader, statusCode := 200 }
  let outSession ← sys (copyOut outSession session)
  sys (emitEvent cfg "LOGIN" (some userId) session.id (some ("login successful" : CStr)))
  return (0, resp, outSession)

def managerGetSession (cookieSessionId : CStr) : Request (Option Session) := storeGet cookieSessionId

/-- `strcmp` of the proof's challenge with the session's, which may be null. -/
def challengeMatches (proof : ProofJWT) (session : Session) : Prog Sys Bool :=
  match proof.challenge, session.challenge with
  | none, _ => pure false
  | some _, none => undefinedBehavior
  | some jti, some challenge => pure (jti == challenge)

/-- The authorization value must round-trip unchanged (spec 9.10). -/
def authorizationMatches (cfg : ManagerConfig) (proof : ProofJWT) : Bool :=
  match cfg.authorization with
  | none => true
  | some authorization => proof.authorization == some authorization

/-- The response to an accepted proof. -/
def acceptedResponse (L : Extern) (cfg : ManagerConfig) (session : Session) : Prog Sys (Int × ManagerResponse) := do
  let setCookie ← buildSetCookie cfg session.id
  let challengeHeader ← challengeSerialize session.challenge session.id
  let body ← buildInstructionBody L cfg session true
  pure (0, { managerResponseInit with setCookie, challengeHeader, body, statusCode := 200 })

/-- How register and refresh end once the proof is accepted: a new challenge
and expiry, the session written back, the event and the response. -/
def renewSession (L : Extern) (cfg : ManagerConfig) (type detail : CStr) (session : Session) :
    Request (Int × ManagerResponse) := do
  let some newChallenge ← sys managerGenerateChallenge | return (-1, managerResponseInit)
  let (_, session) ← sys (sessionSetChallenge session (some newChallenge))
  let session ← sys (applySessionTtl session cfg.sessionTtlSeconds)
  if (← storeUpdate session) ≠ 0 then return (-1, managerResponseInit)
  sys (emitEvent cfg type session.userId session.id (some detail))
  sys (acceptedResponse L cfg session)

def managerRegister (L : Extern) (cfg : ManagerConfig) (cookieSessionId sessionResponseHeader : Option CStr) :
    Request (Int × ManagerResponse) := do
  let some id := nonEmpty cookieSessionId | sys (refuse 401 "\"missing session cookie\"")
  let some session ← storeGet id | sys (refuse 401 "\"invalid session\"")
  if session.state ≠ .active then
    return ← sys (refuse 400 "\"session is not in active state for registration\"")
  let some token := nonEmpty sessionResponseHeader | sys (challengeAgain session)
  let (rc, proof) ← sys (jwtDecodeAndVerify L token proofJwtInit)
  if rc ≠ 0 then return ← sys (challengeAgain session)
  if !(← sys (challengeMatches proof session)) then return ← sys (challengeAgain session)
  if !authorizationMatches cfg proof then return ← sys (challengeAgain session)
  let session := sessionSetState session .bound
  let (_, session) ← sys (sessionSetPublicKey session proof.jwk)
  let (_, session) ← sys (sessionSetAlgorithm session proof.algorithm)
  let detail := ("alg=" ++ percentS proof.algorithm).take 255
  renewSession L cfg "REGISTER" detail session

def managerRefresh (L : Extern) (cfg : ManagerConfig) (sessionId sessionResponseHeader : Option CStr) :
    Request (Int × ManagerResponse) := do
  let some id := nonEmpty sessionId | sys (refuse 400 "\"missing session identification\"")
  let some session ← storeGet id | sys (refuse 401 "\"invalid session\"")
  if session.state ≠ .bound then return ← sys (refuse 400 "\"session is not bound\"")
  let some token := nonEmpty sessionResponseHeader | sys (challengeAgain session)
  let some publicKey := session.publicKey | sys (challengeAgain session)
  let (rc, proof) ← sys (jwtVerifyWithJwk L token publicKey proofJwtInit)
  if rc ≠ 0 then return ← sys (challengeAgain session)
  if !(← sys (challengeMatches proof session)) then return ← sys (challengeAgain session)
  renewSession L cfg "REFRESH" "session extended" session

/-- The response is built before deleting so a failure keeps the session. -/
def managerClose (L : Extern) (cfg : ManagerConfig) (sessionId : Option CStr) : Request (Int × ManagerResponse) := do
  let some id := nonEmpty sessionId | sys (refuse 400 "\"missing session identification\"")
  let some session ← storeGet id | sys (refuse 401 "\"invalid session\"")
  let userId ← sys (copyString session.userId)
  if session.userId ≠ none ∧ userId = none then return (-1, managerResponseInit)
  let some body ← sys (buildInstructionBody L cfg session false) | return (-1, managerResponseInit)
  let setCookie ← sys (buildSetCookieWithMaxAge cfg session.id 0)
  let resp := { managerResponseInit with setCookie, body := some body, statusCode := 200 }
  if (← storeDelete id) ≠ 0 then return (-1, resp)
  sys (emitEvent cfg "CLOSE" userId sessionId (some ("session closed" : CStr)))
  return (0, resp)

end OpenDbsc
