/-
`wrapper/http.c`: the event handler for a complete HTTP request.

Over the manager's runtime and store the handler has three operations of its
own: the application's route callback, mongoose's `mg_http_reply`, and
`mg_http_serve_dir`. A header is found by mongoose (`getHeader`); its value is
bytes, of which a C string keeps those before the first NUL. TLS is set up by
another event and not modelled; freeing is left out.
-/
import OpenDbsc.Manager
import OpenDbsc.SkippedHeader

namespace OpenDbsc

open Effects Prog

structure HttpMessage where
  method : List Char
  uri : List Char
  body : List Char
  /-- `mg_http_get_header`. -/
  getHeader : CStr → Option (List Char)

/-- What the handler reads of the server. -/
structure HttpServer where
  cfg : ManagerConfig
  /-- Whether `route` is set. -/
  route : Bool
  staticRoot : Option CStr

inductive HttpOp where
  /-- The application's route, with the method, URI, body and body length. -/
  | route (method uri : CStr) (body : Option CStr) (bodyLen : Nat)
  /-- `mg_http_reply`. -/
  | reply (statusCode : Int) (headers body : CStr)
  /-- `mg_http_serve_dir`. -/
  | serveDir (root : CStr)

/-- A route returns a code and leaves a response. -/
@[reducible] def HttpOp.Ans : HttpOp → Type
  | .route .. => Int × ManagerResponse
  | .reply .. => Unit
  | .serveDir _ => Unit

abbrev HttpSig : Sig := ⟨HttpOp, HttpOp.Ans⟩

abbrev HttpProg := Prog ((Sys.sum StoreSig).sum HttpSig)

def runtime {α : Type} (p : Prog Sys α) : HttpProg α := (sys p).lift

def mgHttpReply (statusCode : Int) (headers body : CStr) : HttpProg Unit :=
  call (T := HttpSig) (.reply statusCode headers body)

def mgStrDup (str : Option (List Char)) : Prog Sys (Option CStr) :=
  match str with
  | none => pure none
  | some [] => pure none
  | some bytes => do if ← malloc (bytes.length + 1) then pure (some (untilNul bytes)) else pure none

/-- A pair of quotes around the string is left out. -/
def stripQuotes (s : Option CStr) : Prog Sys (Option CStr) :=
  match s with
  | none => pure none
  | some s =>
    if s.length ≥ 2 ∧ s.head? = some '"' ∧ s.getLast? = some '"' then do
      if ← malloc (s.length - 1) then pure (some ((s.drop 1).take (s.length - 2))) else pure none
    else strdup s

/-! ## Cookies -/

def isBlank (c : Char) : Bool := c = ' ' || c = '\t'

/-- The value of the cookie `name`. Each turn takes a pair with its `=`, so as
many turns as there are characters are enough. -/
def cookieValue (name : CStr) : Nat → List Char → Option (List Char)
  | 0, _ => none
  | turns + 1, p =>
    match p.dropWhile isBlank with
    | [] => none
    | p =>
      match p.dropWhile fun c => c ≠ '=' && c ≠ ';' with
      | '=' :: rest =>
        if p.takeWhile (fun c => c ≠ '=' && c ≠ ';') = name then some (rest.takeWhile (· ≠ ';'))
        else cookieValue name turns ((rest.dropWhile (· ≠ ';')).drop 1)
      | _ => none

def httpGetCookie (msg : HttpMessage) (name : Option CStr) : Prog Sys (Option CStr) :=
  match msg.getHeader "Cookie", name with
  | some cookie, some name =>
    match cookieValue name cookie.length cookie with
    | none => pure none
    | some value => do if ← malloc (value.length + 1) then pure (some (untilNul value)) else pure none
  | _, _ => pure none

/-! ## Replies -/

def plainText : CStr := "Content-Type: text/plain\r\n"

def internalServerError : HttpProg Unit := mgHttpReply 500 plainText "Internal Server Error"

/-- One header more, in a buffer of `size` bytes that is grown when it is too small. -/
def appendHeader (name : CStr) (value : Option CStr) (headers : CStr) (size : Nat) : Prog Sys (Option (CStr × Nat)) :=
  match value with
  | none => pure (some (headers, size))
  | some value => do
    let need := headers.length + value.length + 64
    let size' := if need > size then need * 2 else size
    if need > size then
      if !(← malloc size') then return none
    return some (headers ++ name ++ ": " ++ value ++ "\r\n", size')

def responseHeaders (resp : ManagerResponse) : Prog Sys (Option CStr) := do
  if !(← malloc 256) then return none
  let some (headers, size) ← appendHeader "Set-Cookie" resp.setCookie [] 256 | return none
  let some (headers, size) ← appendHeader "Secure-Session-Registration" resp.registrationHeader headers size
    | return none
  let some (headers, _) ← appendHeader "Secure-Session-Challenge" resp.challengeHeader headers size | return none
  let contentType : CStr := "Content-Type: application/json\r\n"
  if !(← malloc (headers.length + contentType.length + 1)) then return none
  return some (headers ++ contentType)

def sendResponse (resp : ManagerResponse) : HttpProg Unit := do
  let some headers ← runtime (responseHeaders resp) | internalServerError
  mgHttpReply resp.statusCode headers (resp.body.getD [])

/-! ## Requests -/

def emitSkipped (cfg : ManagerConfig) : List SkippedEntry → Prog Sys Unit
  | [] => pure ()
  | entry :: rest => do
    emitEvent cfg "SESSION_SKIPPED" none (some entry.sessionId) (some entry.reason)
    emitSkipped cfg rest

def handleSessionSkipped (cfg : ManagerConfig) (hm : HttpMessage) : Prog Sys Unit := do
  let some value ← mgStrDup (hm.getHeader "Secure-Session-Skipped") | return
  let some entries ← parseSessionSkipped value | return
  emitSkipped cfg entries

/-- A header, without the quotes it may stand in. -/
def unquotedHeader (hm : HttpMessage) (name : CStr) : Prog Sys (Option CStr) := do
  let raw ← mgStrDup (hm.getHeader name)
  stripQuotes raw

def handleRegister (L : Extern) (cfg : ManagerConfig) (hm : HttpMessage) : HttpProg Unit := do
  let cookie ← runtime (httpGetCookie hm cfg.cookieName)
  let proof ← runtime (unquotedHeader hm "Secure-Session-Response")
  let (_, resp) ← (managerRegister L cfg cookie proof).lift
  sendResponse resp

/-- The session is named by its own header or, without that, by the cookie. -/
def sessionIdOf (cfg : ManagerConfig) (hm : HttpMessage) : Prog Sys (Option CStr) := do
  match ← unquotedHeader hm "Sec-Secure-Session-Id" with
  | some sessionId => pure (some sessionId)
  | none => httpGetCookie hm cfg.cookieName

def handleRefresh (L : Extern) (cfg : ManagerConfig) (hm : HttpMessage) : HttpProg Unit := do
  let sessionId ← runtime (sessionIdOf cfg hm)
  let proof ← runtime (unquotedHeader hm "Secure-Session-Response")
  let (_, resp) ← (managerRefresh L cfg sessionId proof).lift
  sendResponse resp

/-- The session's user and the time, in a buffer of 512 bytes. -/
def meText (session : Session) (now : Int) : CStr :=
  ("\x7b\"user\":\"" ++ percentS session.userId ++ "\",\"time\":\"" ++ percentD now ++ "\"\x7d" : CStr).take 511

/-- What is not filled here is as the route left it. -/
def handleMe (cfg : ManagerConfig) (hm : HttpMessage) (resp : ManagerResponse) : HttpProg Unit := do
  let cookie ← runtime (httpGetCookie hm cfg.cookieName)
  let session ← (match cookie with
    | none => pure none
    | some id => (managerGetSession id).lift)
  match session with
  | some session =>
    let now ← runtime time
    let body ← runtime (strdup (meText session now))
    sendResponse { resp with statusCode := 200, body }
  | none =>
    let body ← runtime (strdup "\x7b\"error\":\"unauthorized\"\x7d")
    sendResponse { resp with statusCode := 401, body }

/-- The endpoints for what no route has handled, given the response it left. -/
def defaultEndpoint (L : Extern) (server : HttpServer) (hm : HttpMessage) (method uri : CStr) (resp : ManagerResponse) :
    HttpProg Unit :=
  if method = "POST" ∧ uri = "/dbsc/register" then handleRegister L server.cfg hm
  else if method = "POST" ∧ uri = "/dbsc/refresh" then handleRefresh L server.cfg hm
  else if method = "GET" ∧ uri = "/api/me" then handleMe server.cfg hm resp
  else match server.staticRoot with
    | some root => call (T := HttpSig) (.serveDir root)
    | none => mgHttpReply 404 plainText "Not Found"

def dbscEventHandler (L : Extern) (server : HttpServer) (hm : HttpMessage) : HttpProg Unit := do
  runtime (handleSessionSkipped server.cfg hm)
  let uri ← runtime (mgStrDup (some hm.uri))
  let method ← runtime (mgStrDup (some hm.method))
  let body ← runtime (mgStrDup (some hm.body))
  match uri, method with
  | some uri, some method => do
    let (rc, resp) ← (if server.route then call (T := HttpSig) (.route method uri body hm.body.length)
      else pure (-1, managerResponseInit))
    if rc = 0 then sendResponse resp else defaultEndpoint L server hm method uri resp
  | _, _ => internalServerError

end OpenDbsc
