/-
`store/odbc.c`: the sessions in a table of any database with an ODBC driver.

A call is a program over the runtime and the ODBC API. The mutex makes each
call of the store atomic. The table's name is written into each statement's
text, and the text into a buffer of a fixed size (`snprintf`). Freeing handles
and memory is left out, and so is disconnecting.
-/
import OpenDbsc.Sqlite

namespace OpenDbsc

open Effects Prog

/-! ## The ODBC API -/

inductive SqlReturn where
  | success
  | successWithInfo
  | noData
  | error
  deriving DecidableEq

inductive OdbcHandle where
  | env
  | dbc
  | stmt

inductive OdbcOp where
  | allocHandle (type : OdbcHandle)
  /-- `SQLSetEnvAttr` of the ODBC version. -/
  | setEnvAttr
  /-- `SQLSetConnectAttr` of the login timeout. -/
  | setConnectAttr (loginTimeoutSeconds : Int)
  | driverConnect (connectionString : CStr)
  | execDirect (sql : CStr)
  | prepare (sql : CStr)
  | bindParameter (idx : Nat) (text : Option CStr)
  | execute
  | rowCount
  | fetch
  | getData (col : Nat)

/-- Whether it succeeds; the rows affected, if it succeeds; the return code;
and of a column the return code, the indicator and the buffer of 512 bytes. -/
@[reducible] def OdbcOp.Ans : OdbcOp → Type
  | .allocHandle _ => Bool
  | .setEnvAttr => Bool
  | .setConnectAttr _ => Unit
  | .driverConnect _ => Bool
  | .execDirect _ => Unit
  | .prepare _ => Bool
  | .bindParameter .. => Bool
  | .execute => Bool
  | .rowCount => Option Int
  | .fetch => SqlReturn
  | .getData _ => SqlReturn × Int × { chunk : List Char // chunk.length = 512 }

abbrev OdbcSig : Sig := ⟨OdbcOp, OdbcOp.Ans⟩

abbrev OdbcProg := Prog (Sys.sum OdbcSig)

def odbcCall (o : OdbcOp) : OdbcProg o.Ans := call (T := OdbcSig) o

/-- What `snprintf` leaves in a buffer of `size` bytes, terminator apart. -/
def snprintf (size : Nat) (text : CStr) : CStr := text.take (size - 1)

/-! ## Statements -/

structure OdbcConfig where
  connectionString : Option CStr
  tableName : Option CStr
  autoCreateTable : Bool
  loginTimeoutSeconds : Int

structure OdbcCtx where
  tableName : CStr

def isIdentifierChar (c : Char) : Bool :=
  ('a' ≤ c && c ≤ 'z') || ('A' ≤ c && c ≤ 'Z') || ('0' ≤ c && c ≤ '9') || c = '_'

def isValidIdentifier (name : CStr) : Bool := name ≠ [] && name.all isIdentifierChar

def odbcPrepare (sql : CStr) : OdbcProg Bool := do
  if !(← odbcCall (.allocHandle .stmt)) then return false
  odbcCall (.prepare sql)

def odbcMaxParams : Nat := 8

/-- The texts bound in turn, to the parameters after the first `nparams`. -/
def odbcBindTexts : Nat → List (Option CStr) → OdbcProg Bool
  | _, [] => pure true
  | nparams, text :: rest =>
    if nparams ≥ odbcMaxParams then pure false
    else do
      if !(← odbcCall (.bindParameter (nparams + 1) text)) then return false
      odbcBindTexts (nparams + 1) rest

/-- A statement prepared, its texts bound, and executed. -/
def odbcRun (sql : CStr) (texts : List (Option CStr)) : OdbcProg Bool := do
  if !(← odbcPrepare sql) then return false
  if !(← odbcBindTexts 0 texts) then return false
  odbcCall .execute

/-! ## Rows -/

/-- `SQL_NULL_DATA`. -/
def sqlNullData : Int := -1

/-- The bytes `odbc_get_text` takes of a buffer of 512, given the indicator. -/
def odbcChunkLength (ind : Int) : Nat := if ind < 0 ∨ ind > 511 then 511 else ind.toNat

/-- The return code and the text, read in at most `turns` chunks after `buf`. -/
def odbcGetText (col : Nat) : Nat → List Char → OdbcProg (Int × Option (List Char))
  | 0, _ => undefinedBehavior.lift
  | turns + 1, buf => do
    let (rc, ind, chunk) ← odbcCall (.getData col)
    if rc = .error then return (-1, none)
    if ind = sqlNullData then return (0, none)
    let got := odbcChunkLength ind
    if !(← (malloc (buf.length + got + 1)).lift) then return (-1, none)
    let buf := buf ++ chunk.val.take got
    if rc ≠ .successWithInfo then return (0, some buf)
    odbcGetText col turns buf

/-- The columns read in turn, up to one that fails. -/
def odbcGetTexts (turns : Nat) : List Nat → OdbcProg (Option (List (Option CStr)))
  | [] => pure (some [])
  | col :: rest => do
    let (rc, text) ← odbcGetText col turns []
    if rc ≠ 0 then return none
    let some texts ← odbcGetTexts turns rest | return none
    return some (text.map untilNul :: texts)

def sessionFromRow (turns : Nat) : OdbcProg (Option Session) := do
  match ← odbcGetTexts turns [1, 2, 3, 4, 5, 6, 7, 8] with
  | some [some id, some userId, some state, publicKey, algorithm, challenge, expiresAt, some createdAt] =>
    (sessionFromStmt { id, userId, state, publicKey, algorithm, challenge, expiresAt, createdAt }).lift
  | _ => return none

/-! ## The store's functions -/

/-- The texts bound for `expires_at`; nothing when it cannot be printed. -/
def odbcExpires (session : Session) : Option (Option CStr) :=
  if session.hasExpires then (formatRfc3339Utc session.expiresAt sqlTimeBuf).map some else some none

def odbcDeleteUnlocked (ctx : OdbcCtx) (id : CStr) : OdbcProg Int := do
  let sql := snprintf 256 ("DELETE FROM " ++ ctx.tableName ++ " WHERE id = ?")
  if ← odbcRun sql [some id] then return 0
  return -1

def buildSelectSql (ctx : OdbcCtx) (condition : CStr) (bufSize : Nat) : CStr :=
  snprintf bufSize ("SELECT id, user_id, state, public_key, algorithm, challenge, expires_at, created_at FROM " ++
    ctx.tableName ++ " WHERE " ++ condition)

def odbcCreate (ctx : OdbcCtx) (session : Session) : OdbcProg Int :=
  match session.id with
  | none => pure (-1)
  | some id => do
    let some expires := odbcExpires session | return -1
    let some created := formatRfc3339Utc session.createdAt sqlTimeBuf | return -1
    let sql := snprintf 512 ("INSERT INTO " ++ ctx.tableName ++
      " (id, user_id, state, public_key, algorithm, challenge, expires_at, created_at) VALUES (?, ?, ?, ?, ?, ?, ?, ?)")
    if ← odbcRun sql [some id, session.userId, some (sessionStateStr session), session.publicKey, session.algorithm,
        session.challenge, expires, some created] then return 0
    return -1

/-- An expired session is cleaned up. -/
def odbcGet (turns : Nat) (ctx : OdbcCtx) (id : CStr) : OdbcProg (Option Session) := do
  let sql := buildSelectSql ctx "id = ?" 512
  if !(← odbcRun sql [some id]) then return none
  if (← odbcCall .fetch) ≠ .success then return none
  if !(← (malloc sizeofSession).lift) then return none
  let some session ← sessionFromRow turns | return none
  let now ← time.lift
  if sqlExpired session now then
    let _ ← odbcDeleteUnlocked ctx id
    return none
  return some session

def odbcUpdate (ctx : OdbcCtx) (session : Session) : OdbcProg Int :=
  match session.id with
  | none => pure (-1)
  | some id => do
    let some expires := odbcExpires session | return -1
    let sql := snprintf 512 ("UPDATE " ++ ctx.tableName ++
      " SET user_id = ?, state = ?, public_key = ?, algorithm = ?, challenge = ?, expires_at = ? WHERE id = ?")
    if !(← odbcRun sql [session.userId, some (sessionStateStr session), session.publicKey, session.algorithm,
        session.challenge, expires, some id]) then return -1
    match ← odbcCall .rowCount with
    | some affected => return if affected ≤ 0 then -1 else 0
    | none => return -1

def odbcDelete (ctx : OdbcCtx) (id : CStr) : OdbcProg Int := odbcDeleteUnlocked ctx id

/-- The rows fetched, at most `rows` of them: the sessions, and the ids of those that have expired. -/
def odbcCollect (turns : Nat) (now : Int) :
    Nat → List Session → List CStr → OdbcProg (Option (List Session × List CStr))
  | 0, _, _ => undefinedBehavior.lift
  | rows + 1, sessions, expired => do
    match ← odbcCall .fetch with
    | .success =>
      let some tmp ← sessionFromRow turns | return none
      if sqlExpired tmp now then
        let some copy ← (sqlCopyId tmp).lift | return none
        if !(← (malloc ((expired.length + 1) * 8)).lift) then return none
        odbcCollect turns now rows sessions (expired ++ [copy])
      else
        if !(← (malloc ((sessions.length + 1) * sizeofSession)).lift) then return none
        odbcCollect turns now rows (sessions ++ [tmp]) expired
    | .noData => return some (sessions, expired)
    | _ => return none

def odbcDeleteEach (ctx : OdbcCtx) : List CStr → OdbcProg Unit
  | [] => pure ()
  | id :: rest => do
    let _ ← odbcDeleteUnlocked ctx id
    odbcDeleteEach ctx rest

def odbcGetByUserId (turns rows : Nat) (ctx : OdbcCtx) (userId : CStr) : OdbcProg (Option (List Session)) := do
  let sql := buildSelectSql ctx "user_id = ?" 512
  let now ← time.lift
  if !(← odbcRun sql [some userId]) then return none
  let some (sessions, expired) ← odbcCollect turns now rows [] [] | return none
  odbcDeleteEach ctx expired
  return some sessions

def odbcDeleteByUserId (ctx : OdbcCtx) (userId : CStr) : OdbcProg Int := do
  let sql := snprintf 256 ("DELETE FROM " ++ ctx.tableName ++ " WHERE user_id = ?")
  if ← odbcRun sql [some userId] then return 0
  return -1

/-- The ODBC store behind the store interface. -/
def odbcStore (turns rows : Nat) (ctx : OdbcCtx) : (o : StoreOp) → OdbcProg (StoreOp.Ans o)
  | .create session => odbcCreate ctx session
  | .get none => pure none
  | .get (some id) => odbcGet turns ctx id
  | .update session => odbcUpdate ctx session
  | .delete none => pure (-1)
  | .delete (some id) => odbcDelete ctx id
  | .getByUserId none => pure none
  | .getByUserId (some userId) => odbcGetByUserId turns rows ctx userId
  | .deleteByUserId none => pure (-1)
  | .deleteByUserId (some userId) => odbcDeleteByUserId ctx userId

/-! ## Creating the store -/

def odbcExecIgnore (sql : CStr) : OdbcProg Unit := do
  if !(← odbcCall (.allocHandle .stmt)) then return
  odbcCall (.execDirect sql)

def odbcCreateSchema (table : CStr) : OdbcProg Unit := do
  odbcExecIgnore (snprintf 1024
    ("CREATE TABLE " ++ table ++ " (  id         VARCHAR(64) PRIMARY KEY,  user_id    VARCHAR(255) NOT NULL," ++
    "  state      VARCHAR(16) NOT NULL DEFAULT 'active',  public_key TEXT,  algorithm  VARCHAR(64),  challenge  TEXT," ++
    "  expires_at VARCHAR(32),  created_at VARCHAR(32) NOT NULL)"))
  odbcExecIgnore (snprintf 1024 ("CREATE INDEX idx_" ++ table ++ "_user_id ON " ++ table ++ "(user_id)"))
  odbcExecIgnore (snprintf 1024 ("CREATE INDEX idx_" ++ table ++ "_expires_at ON " ++ table ++ "(expires_at)"))

/-- `opendbsc_odbc_store_create`: the context of the store it returns. -/
def odbcStoreCreate (config : OdbcConfig) : OdbcProg (Option OdbcCtx) := do
  let some connectionString := config.connectionString | return none
  let table := config.tableName.getD "sessions"
  if !isValidIdentifier table then return none
  -- the context, the copy of the name and the mutex
  if !(← libraryAlloc.lift) then return none
  let some tableName ← (strdup table).lift | return none
  if !(← libraryAlloc.lift) then return none
  if !(← odbcCall (.allocHandle .env)) then return none
  if !(← odbcCall .setEnvAttr) then return none
  if !(← odbcCall (.allocHandle .dbc)) then return none
  if config.loginTimeoutSeconds > 0 then odbcCall (.setConnectAttr config.loginTimeoutSeconds)
  if !(← odbcCall (.driverConnect connectionString)) then return none
  if config.autoCreateTable then odbcCreateSchema tableName
  if !(← libraryAlloc.lift) then return none
  return some { tableName }

end OpenDbsc
