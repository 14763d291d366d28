/-
A database behind an ODBC driver, as `store/odbc.c` sees it.

`OdbcConn` is a connection: the table, and the statement at hand, which is
prepared from a text, given its parameters, executed, and asked for its rows
or for how many it changed. The table is the one of `SqlDb`, so the two
SQL stores differ only in how they come to it. What a driver may choose is left
open: the order of a query's rows, how a column is cut into pieces, and whether
a statement that changes nothing succeeds or is `SQL_NO_DATA`. With faults any
call may fail; a statement that fails changes nothing.
-/
import OpenDbsc.OdbcSql
import OpenDbsc.OdbcText

namespace OpenDbsc

open Effects Prog

/-! ## Statements with their parameters -/

/-- The widest text of each parameter: its column's, and for a `TEXT` column
or a condition that of `SQLBindParameter`. -/
def OdbcStatement.widths : OdbcStatement → List Nat
  | insert => [64, 255, 16, 1024, 64, 1024, 32, 32]
  | update => [255, 16, 1024, 64, 1024, 32, 1024]
  | selectById | deleteById | selectByUserId | deleteByUserId => [1024]

/-- Each text is within its width. -/
def OdbcStatement.Fits (g : OdbcStatement) (params : List (Option CStr)) : Prop :=
  List.Forall₂ (fun width param => ∀ text, param = some text → text.length ≤ width) g.widths params

/-- The statement these parameters make, unless a column that is `NOT NULL`, or a key, gets a null. -/
def OdbcStatement.sqlOp : OdbcStatement → List (Option CStr) → Option SqlOp
  | insert, [some id, userId, some state, publicKey, algorithm, challenge, expiresAt, some createdAt] =>
    some (.insert id { userId, state, publicKey, algorithm, challenge, expiresAt } createdAt)
  | update, [userId, some state, publicKey, algorithm, challenge, expiresAt, some id] =>
    some (.update { userId, state, publicKey, algorithm, challenge, expiresAt } id)
  | selectById, [some id] => some (.selectById id)
  | deleteById, [some id] => some (.deleteById id)
  | selectByUserId, [some userId] => some (.selectByUserId userId)
  | deleteByUserId, [some userId] => some (.deleteByUserId userId)
  | _, _ => none

/-- The rows of a query. -/
def SqlDb.selects (db : SqlDb) : SqlOp → Option (List SqlRow)
  | .selectById id => some (db.find id).toList
  | .selectByUserId userId => some (db.rows.filter fun row => row.userId == userId)
  | _ => none

/-- The number of rows a statement changes; nothing when a constraint refuses it. -/
def SqlDb.changes (db : SqlDb) : SqlOp → Option Nat
  | .insert id values createdAt => if (db.answer (.insert id values createdAt)).1 then some 1 else none
  | .update values id => (db.answer (.update values id)).1
  | .deleteById id => some (db.rows.countP fun row => row.id == id)
  | .deleteByUserId userId => some (db.rows.countP fun row => row.userId == userId)
  | .selectById _ => some 0
  | .selectByUserId _ => some 0

/-! ## The connection -/

structure OdbcConn where
  db : SqlDb
  /-- The text prepared. -/
  sql : CStr
  /-- The parameters bound, the first one first. -/
  params : List (Option CStr)
  /-- The rows the statement changed. -/
  affected : Int
  /-- The rows not fetched yet. -/
  results : List SqlRow
  /-- What is left of each column of the row fetched last. -/
  row : Nat → Option CStr

namespace OdbcConn

/-- A new statement. -/
def fresh (conn : OdbcConn) : OdbcConn := { conn with sql := [], params := [], affected := 0, results := [], row := fun _ => none }

/-- The statement at hand executed: whether it succeeds, and what it leaves. -/
def Executes (conn : OdbcConn) (o : SqlOp) (ok : Bool) (conn' : OdbcConn) : Prop :=
  match conn.db.selects o with
  | some rows => ok = true ∧ ∃ found, found.Perm rows ∧ conn' = { conn with results := found }
  | none => match conn.db.changes o with
    | none => ok = false ∧ conn' = conn
    | some n => (ok = true ∨ n = 0 ∧ ok = false) ∧
        conn' = { conn with db := (conn.db.answer o).2, affected := n }

end OdbcConn

/-- The columns of a row, from 1. -/
def SqlRow.column (row : SqlRow) : Nat → Option CStr
  | 1 => some row.id
  | 2 => some row.userId
  | 3 => some row.state
  | 4 => row.publicKey
  | 5 => row.algorithm
  | 6 => row.challenge
  | 7 => row.expiresAt
  | 8 => some row.createdAt
  | _ => none

section

variable (table : CStr) (faults : Bool)

/-- A call that fails leaves the table; of the statement nothing is known any more. -/
def OdbcFails (ok : Bool) (conn conn' : OdbcConn) : Prop := faults = true ∧ ok = false ∧ conn'.db = conn.db

/-- The text prepared is understood, and executed with the parameters bound;
one with a text too wide for its column may be refused. -/
def OdbcExecutes (conn : OdbcConn) (ok : Bool) (conn' : OdbcConn) : Prop :=
  (∃ g : OdbcStatement, conn.sql = g.template table ∧
    ((match g.sqlOp conn.params with
      | some o => conn.Executes o ok conn'
      | none => ok = false ∧ conn' = conn) ∨
    ¬ g.Fits conn.params ∧ ok = false ∧ conn' = conn)) ∨
  (¬ ∃ g : OdbcStatement, conn.sql = g.template table) ∧ ok = false ∧ conn' = conn

def odbcServer : Comp Sys OdbcSig OdbcConn
  | .allocHandle _, conn, tr, ok, conn' => tr = [] ∧ (ok = true ∧ conn' = conn.fresh ∨ OdbcFails faults ok conn conn')
  | .prepare sql, conn, tr, ok, conn' => tr = [] ∧
      (ok = true ∧ (∃ g : OdbcStatement, sql = g.template table) ∧ conn' = { conn with sql } ∨
        (¬ ∃ g : OdbcStatement, sql = g.template table) ∧ ok = false ∧ conn' = conn ∨ OdbcFails faults ok conn conn')
  | .bindParameter idx text, conn, tr, ok, conn' => tr = [] ∧
      (ok = true ∧ conn' = { conn with params := conn.params.take (idx - 1) ++ [text] } ∨ OdbcFails faults ok conn conn')
  | .execute, conn, tr, ok, conn' => tr = [] ∧ (OdbcExecutes table conn ok conn' ∨ OdbcFails faults ok conn conn')
  | .rowCount, conn, tr, affected, conn' => tr = [] ∧
      (affected = some conn.affected ∧ conn' = conn ∨ OdbcFails faults affected.isSome conn conn')
  | .fetch, conn, tr, rc, conn' => tr = [] ∧
      ((match conn.results with
        | [] => rc = .noData ∧ conn' = conn
        | row :: rest => rc = .success ∧ conn' = { conn with results := rest, row := row.column }) ∨
      rc ≠ .noData ∧ OdbcFails faults (rc == .success) conn conn')
  | .getData col, conn, tr, reply, conn' => tr = [] ∧
      ∃ left, Delivers (conn.row col) reply left ∧ (reply.1 = .error → faults = true) ∧
        conn' = { conn with row := Function.update conn.row col left }
  | .setEnvAttr, conn, tr, ok, conn' => tr = [] ∧ (ok = true ∧ conn' = conn ∨ OdbcFails faults ok conn conn')
  | .setConnectAttr _, conn, tr, _, conn' => tr = [] ∧ conn' = conn
  | .driverConnect _, conn, tr, ok, conn' => tr = [] ∧ (ok = true ∧ conn' = conn ∨ OdbcFails faults ok conn conn')
  | .execDirect _, conn, tr, _, conn' => tr = [] ∧ conn' = conn

end

/-! ## A driver that works -/

end OpenDbsc
