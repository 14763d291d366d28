/-
`store/sqlite.c`: a session is a row of the table `sessions`, its times as
RFC 3339 texts.

A call is a program over the runtime and the database, which sees one
statement at a time. Preparing a statement and binding its values only take
memory, so they fail as other library allocations do. Opening and closing the
database is left out.
-/
import OpenDbsc.Rfc3339
import OpenDbsc.Store

namespace OpenDbsc

open Effects Prog

/-! ## The database's interface -/

/-- A row; the columns that are `NOT NULL`, and the key, are texts. -/
structure SqlRow where
  id : CStr
  userId : CStr
  state : CStr
  publicKey : Option CStr
  algorithm : Option CStr
  challenge : Option CStr
  expiresAt : Option CStr
  createdAt : CStr
  deriving DecidableEq

/-- The values that both `INSERT` and `UPDATE` set. -/
structure SqlValues where
  userId : Option CStr
  state : CStr
  publicKey : Option CStr
  algorithm : Option CStr
  challenge : Option CStr
  expiresAt : Option CStr

inductive SqlOp where
  /-- `INSERT INTO sessions (..) VALUES (..)`. -/
  | insert (id : CStr) (values : SqlValues) (createdAt : CStr)
  /-- `SELECT .. WHERE id = ?`. -/
  | selectById (id : CStr)
  /-- `UPDATE sessions SET .. WHERE id = ?`. -/
  | update (values : SqlValues) (id : CStr)
  /-- `DELETE FROM sessions WHERE id = ?`. -/
  | deleteById (id : CStr)
  /-- `SELECT .. WHERE user_id = ?`. -/
  | selectByUserId (userId : CStr)
  /-- `DELETE FROM sessions WHERE user_id = ?`. -/
  | deleteByUserId (userId : CStr)

/-- Whether the statement is done; the row, if there is one; the rows changed;
the rows, and whether all were read. -/
@[reducible] def SqlOp.Ans : SqlOp → Type
  | .insert .. => Bool
  | .selectById _ => Option SqlRow
  | .update .. => Option Nat
  | .deleteById _ => Bool
  | .selectByUserId _ => List SqlRow × Bool
  | .deleteByUserId _ => Bool

abbrev SqlSig : Sig := ⟨SqlOp, SqlOp.Ans⟩

abbrev SqlProg := Prog (Sys.sum SqlSig)

def sqlStep (o : SqlOp) : SqlProg (SqlOp.Ans o) := call (T := SqlSig) o

def sqlPrepare : Prog Sys Bool := libraryAlloc

/-- `n` values bound in turn, up to one that fails. -/
def sqlBind : Nat → Prog Sys Bool
  | 0 => pure true
  | n + 1 => do
    if !(← libraryAlloc) then return false
    sqlBind n

/-- A statement is prepared and its first `n` values are bound. -/
def sqlPrepared (n : Nat) : Prog Sys Bool := do
  if !(← sqlPrepare) then return false
  sqlBind n

/-! ## The store's functions -/

/-- `sizeof(expires_buf)` and `sizeof(created_buf)`. -/
def sqlTimeBuf : Nat := 32

/-- The text bound for `expires_at`, null without an expiry; nothing when it fails. -/
def sqlBindExpires (session : Session) : Prog Sys (Option (Option CStr)) :=
  if session.hasExpires then
    match formatRfc3339Utc session.expiresAt sqlTimeBuf with
    | none => pure none
    | some text => do
      if !(← sqlBind 1) then return none
      return some (some text)
  else do
    if !(← sqlBind 1) then return none
    return some none

def sqlValues (session : Session) (expiresAt : Option CStr) : SqlValues where
  userId := session.userId
  state := sessionStateStr session
  publicKey := session.publicKey
  algorithm := session.algorithm
  challenge := session.challenge
  expiresAt := expiresAt

/-- The setters of `session_from_stmt`, each of which must succeed. -/
def sessionSetColumns (row : SqlRow) : Prog Sys (Option Session) := do
  let (rc, session) ← sessionSetId sessionInit (some row.id)
  if rc ≠ 0 then return none
  let (rc, session) ← sessionSetUserId session (some row.userId)
  if rc ≠ 0 then return none
  let (rc, session) := sessionSetStateStr session row.state
  if rc ≠ 0 then return none
  let (rc, session) ← sessionSetPublicKey session row.publicKey
  if rc ≠ 0 then return none
  let (rc, session) ← sessionSetAlgorithm session row.algorithm
  if rc ≠ 0 then return none
  let (rc, session) ← sessionSetChallenge session row.challenge
  if rc ≠ 0 then return none
  return some session

/-- The column `expires_at`, in `session_from_stmt`. -/
def sessionSetExpires (session : Session) : Option CStr → Option Session
  | none => some session
  | some text => (parseRfc3339Utc text).map (sessionSetExpiresAt session)

/-- The times of `session_from_stmt`. -/
def sessionSetTimes (row : SqlRow) (session : Session) : Option Session := do
  let session ← sessionSetExpires session row.expiresAt
  let created ← parseRfc3339Utc row.createdAt
  some (sessionSetCreatedAt session created)

def sessionFromStmt (row : SqlRow) : Prog Sys (Option Session) := do
  let some session ← sessionSetColumns row | return none
  return sessionSetTimes row session

def sqliteCreate (session : Session) : SqlProg Int :=
  match session.id with
  | none => pure (-1)
  | some id => do
    if !(← (sqlPrepared 6).lift) then return -1
    let some expiresAt ← (sqlBindExpires session).lift | return -1
    let some createdAt := formatRfc3339Utc session.createdAt sqlTimeBuf | return -1
    if !(← (sqlBind 1).lift) then return -1
    if ← sqlStep (.insert id (sqlValues session expiresAt) createdAt) then return 0
    return -1

def sqliteDelete (id : CStr) : SqlProg Int := do
  if !(← (sqlPrepared 1).lift) then return -1
  if ← sqlStep (.deleteById id) then return 0
  return -1

/-- `session->has_expires && session->expires_at < now`. -/
def sqlExpired (session : Session) (now : Int) : Bool := session.hasExpires && decide (session.expiresAt < now)

/-- An expired session is cleaned up. -/
def sqliteGet (id : CStr) : SqlProg (Option Session) := do
  if !(← (sqlPrepared 1).lift) then return none
  let some row ← sqlStep (.selectById id) | return none
  if !(← (malloc sizeofSession).lift) then return none
  let some session ← (sessionFromStmt row).lift | return none
  let now ← time.lift
  if sqlExpired session now then
    let _ ← sqliteDelete id
    return none
  return some session

def sqliteUpdate (session : Session) : SqlProg Int :=
  match session.id with
  | none => pure (-1)
  | some id => do
    if !(← (sqlPrepared 5).lift) then return -1
    let some expiresAt ← (sqlBindExpires session).lift | return -1
    if !(← (sqlBind 1).lift) then return -1
    let some changes ← sqlStep (.update (sqlValues session expiresAt) id) | return -1
    return if changes > 0 then 0 else -1

/-- A copy of the id of a session that has one. -/
def sqlCopyId (session : Session) : Prog Sys (Option CStr) :=
  match session.id with
  | none => undefinedBehavior
  | some id => strdup id

/-- The rows of a user: the sessions, and the ids of those that have expired. -/
def sqliteCollect (now : Int) : List SqlRow → List Session → List CStr → Prog Sys (Option (List Session × List CStr))
  | [], sessions, expired => pure (some (sessions, expired))
  | row :: rest, sessions, expired => do
    let some tmp ← sessionFromStmt row | return none
    if sqlExpired tmp now then
      let some copy ← sqlCopyId tmp | return none
      if !(← malloc ((expired.length + 1) * 8)) then return none
      sqliteCollect now rest sessions (expired ++ [copy])
    else
      if !(← malloc ((sessions.length + 1) * sizeofSession)) then return none
      sqliteCollect now rest (sessions ++ [tmp]) expired

/-- The expired sessions deleted, each by its id. -/
def sqliteDeleteEach : List CStr → SqlProg Unit
  | [] => pure ()
  | id :: rest => do
    let _ ← sqliteDelete id
    sqliteDeleteEach rest

/-- Without its value bound it goes to its cleanup, which reads the list of
expired ids before that is set up. -/
def sqliteGetByUserId (userId : CStr) : SqlProg (Option (List Session)) := do
  if !(← sqlPrepare.lift) then return none
  if !(← (sqlBind 1).lift) then return ← undefinedBehavior.lift
  let now ← time.lift
  let (rows, done) ← sqlStep (.selectByUserId userId)
  let some (sessions, expired) ← (sqliteCollect now rows [] []).lift | return none
  if !done then return none
  sqliteDeleteEach expired
  return some sessions

def sqliteDeleteByUserId (userId : CStr) : SqlProg Int := do
  if !(← (sqlPrepared 1).lift) then return -1
  if ← sqlStep (.deleteByUserId userId) then return 0
  return -1

/-- The SQLite store behind the store interface. -/
def sqliteStore : (o : StoreOp) → SqlProg (StoreOp.Ans o)
  | .create session => sqliteCreate session
  | .get none => pure none
  | .get (some id) => sqliteGet id
  | .update session => sqliteUpdate session
  | .delete none => pure (-1)
  | .delete (some id) => sqliteDelete id
  | .getByUserId none => pure none
  | .getByUserId (some userId) => sqliteGetByUserId userId
  | .deleteByUserId none => pure (-1)
  | .deleteByUserId (some userId) => sqliteDeleteByUserId userId

/-! ## The database -/

/-- The rows of `sessions`, no two with one id. -/
@[ext] structure SqlDb where
  rows : List SqlRow
  nodup : (rows.map SqlRow.id).Nodup

namespace SqlDb

def empty : SqlDb := ⟨[], List.nodup_nil⟩

def find (db : SqlDb) (id : CStr) : Option SqlRow := db.rows.find? fun row => row.id == id

/-- The row `INSERT` adds, unless `user_id` is null. -/
def newRow (id : CStr) (values : SqlValues) (createdAt : CStr) : Option SqlRow :=
  values.userId.map fun userId =>
    { id, userId, state := values.state, publicKey := values.publicKey, algorithm := values.algorithm,
      challenge := values.challenge, expiresAt := values.expiresAt, createdAt }

/-- A row as `UPDATE` leaves it. -/
def setRow (userId : CStr) (values : SqlValues) (row : SqlRow) : SqlRow :=
  { row with
    userId, state := values.state, publicKey := values.publicKey, algorithm := values.algorithm,
    challenge := values.challenge, expiresAt := values.expiresAt }

theorem find_eq_none {db : SqlDb} {id : CStr} : db.find id = none ↔ ∀ row ∈ db.rows, row.id ≠ id := by
  unfold find
  rw [List.find?_eq_none]
  simp

def insertRow (db : SqlDb) (row : SqlRow) (h : db.find row.id = none) : SqlDb where
  rows := db.rows ++ [row]
  nodup := by
    rw [List.map_append, List.nodup_append]
    refine ⟨db.nodup, List.nodup_singleton _, ?_⟩
    intro a ha b hb hab
    obtain ⟨r, hr, rfl⟩ := List.mem_map.mp ha
    rw [List.map_singleton, List.mem_singleton] at hb
    exact find_eq_none.mp h r hr (hab.trans hb)

def updateRow (db : SqlDb) (id userId : CStr) (values : SqlValues) : SqlDb where
  rows := db.rows.map fun row => if row.id = id then setRow userId values row else row
  nodup := by
    have hids : ((db.rows.map fun row => if row.id = id then setRow userId values row else row).map SqlRow.id) =
        db.rows.map SqlRow.id := by
      rw [List.map_map]
      refine List.map_congr_left fun row _ => ?_
      simp only [Function.comp_apply]
      split <;> rfl
    rw [hids]
    exact db.nodup

def deleteWhere (db : SqlDb) (p : SqlRow → Bool) : SqlDb where
  rows := db.rows.filter fun row => !p row
  nodup := (db.nodup).sublist (List.filter_sublist.map _)

/-- What a statement answers, a query's rows in the table's order, and what it leaves. -/
def answer (db : SqlDb) : (o : SqlOp) → SqlOp.Ans o × SqlDb
  | .insert id values createdAt =>
    match newRow id values createdAt with
    | none => (false, db)
    | some row => if h : db.find row.id = none then (true, db.insertRow row h) else (false, db)
  | .selectById id => (db.find id, db)
  | .update values id =>
    match db.find id, values.userId with
    | none, _ => (some 0, db)
    | some _, none => (none, db)
    | some _, some userId => (some 1, db.updateRow id userId values)
  | .deleteById id => (true, db.deleteWhere fun row => row.id == id)
  | .selectByUserId userId => ((db.rows.filter fun row => row.userId == userId, true), db)
  | .deleteByUserId userId => (true, db.deleteWhere fun row => row.userId == userId)

end SqlDb

/-- The same answer, a query's rows in any order. -/
inductive SqlOp.Reorders : (o : SqlOp) → o.Ans → o.Ans → Prop
  | refl {o : SqlOp} (x : o.Ans) : Reorders o x x
  | rows {userId : CStr} {xs ys : List SqlRow} (h : xs.Perm ys) :
      Reorders (.selectByUserId userId) (xs, true) (ys, true)

/-- The answer to a statement that fails; a query may have read some rows first. -/
inductive SqlOp.Fails : (o : SqlOp) → o.Ans → Prop
  | insert {id values createdAt} : Fails (.insert id values createdAt) false
  | selectById {id} : Fails (.selectById id) none
  | update {values id} : Fails (.update values id) none
  | deleteById {id} : Fails (.deleteById id) false
  | selectByUserId {userId} (rows : List SqlRow) : Fails (.selectByUserId userId) (rows, false)
  | deleteByUserId {userId} : Fails (.deleteByUserId userId) false

/-- The database, with no statement failing. -/
def sqlServer : Comp Sys SqlSig SqlDb := fun o db tr x db' =>
  tr = [] ∧ db' = (db.answer o).2 ∧ SqlOp.Reorders o (db.answer o).1 x

/-- The database, where a statement may also fail and leave it as it is. -/
def sqlConnection : Comp Sys SqlSig SqlDb := fun o db tr x db' =>
  sqlServer o db tr x db' ∨ tr = [] ∧ db' = db ∧ SqlOp.Fails o x

end OpenDbsc
