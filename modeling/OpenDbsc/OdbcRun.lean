/-
Runs of the ODBC store.

The loops of a call are unrolled as far as the call comes to an end
(`below_odbcStore`). With nothing failing, the ODBC store and the SQLite store
answer alike and keep the same table in every run (`odbc_sqlite_agree`): what
they share is each call's service, `SqlDb.Serves`. Whatever fails, each call
ends, and changes no more than it was asked to (`odbc_calls_whole`).
-/
import Mathlib.Algebra.Order.BigOperators.Group.List
import OpenDbsc.Effects.Below
import OpenDbsc.OdbcCalls

namespace OpenDbsc

open Effects Prog

/-! ## Loops unrolled further -/

section

variable {turns turns' rows rows' : Nat} {ctx : OdbcCtx}

theorem below_odbcGetText (hturns : turns ≤ turns') (col : Nat) (buf : List Char) :
    Below (odbcGetText col turns buf) (odbcGetText col turns' buf) := by
  induction turns generalizing turns' buf with
  | zero => exact .stuck Empty.instIsEmpty
  | succ turns ih =>
    obtain ⟨turns', rfl⟩ : ∃ n, turns' = n + 1 := ⟨turns' - 1, by omega⟩
    rw [odbcGetText_succ, odbcGetText_succ]
    refine below_bind fun reply => ?_
    unfold odbcTake
    refine below_ite (.refl _) (below_ite (.refl _) (below_bind fun ok => ?_))
    exact below_ite (.refl _) (below_ite (.refl _) (ih (by omega) _))

theorem below_odbcGetTexts (hturns : turns ≤ turns') (cols : List Nat) :
    Below (odbcGetTexts turns cols) (odbcGetTexts turns' cols) := by
  induction cols with
  | nil => exact .refl _
  | cons col rest ih =>
    refine (below_odbcGetText hturns col []).bind fun r => ?_
    refine below_ite (.refl _) (ih.bind fun texts => .refl _)

theorem below_sessionFromRow (hturns : turns ≤ turns') : Below (sessionFromRow turns) (sessionFromRow turns') :=
  (below_odbcGetTexts hturns _).bind fun _ => .refl _

theorem below_odbcGet (hturns : turns ≤ turns') (id : CStr) : Below (odbcGet turns ctx id) (odbcGet turns' ctx id) := by
  refine below_bind fun ok => below_ite (.refl _) (below_bind fun rc => below_ite (.refl _) (below_bind fun ok => ?_))
  exact below_ite (.refl _) ((below_sessionFromRow hturns).bind fun s => .refl _)

theorem below_odbcCollect (hturns : turns ≤ turns') (hrows : rows ≤ rows') (now : Int) (sessions : List Session)
    (expired : List CStr) :
    Below (odbcCollect turns now rows sessions expired) (odbcCollect turns' now rows' sessions expired) := by
  induction rows generalizing rows' sessions expired with
  | zero => exact .stuck Empty.instIsEmpty
  | succ rows ih =>
    obtain ⟨rows', rfl⟩ : ∃ n, rows' = n + 1 := ⟨rows' - 1, by omega⟩
    have hrest : rows ≤ rows' := by omega
    refine below_bind fun rc => ?_
    cases rc with
    | success =>
      refine (below_sessionFromRow hturns).bind fun s => ?_
      cases s with
      | none => exact .refl _
      | some s =>
        refine below_ite (below_bind fun copy => ?_) (below_bind fun ok => below_ite (.refl _) (ih hrest _ _))
        cases copy with
        | none => exact .refl _
        | some copy => exact below_bind fun ok => below_ite (.refl _) (ih hrest _ _)
    | noData => exact .refl _
    | successWithInfo => exact .refl _
    | error => exact .refl _

theorem below_odbcGetByUserId (hturns : turns ≤ turns') (hrows : rows ≤ rows') (userId : CStr) :
    Below (odbcGetByUserId turns rows ctx userId) (odbcGetByUserId turns' rows' ctx userId) := by
  refine below_bind fun now => below_bind fun ok => below_ite (.refl _) ?_
  exact (below_odbcCollect hturns hrows now [] []).bind fun found => .refl _

/-- A call unrolled further does the same. -/
theorem below_odbcStore (hturns : turns ≤ turns') (hrows : rows ≤ rows') (o : StoreOp) :
    Below (odbcStore turns rows ctx o) (odbcStore turns' rows' ctx o) := by
  cases o with
  | get id =>
    cases id with
    | none => exact .refl _
    | some id => exact below_odbcGet hturns id
  | getByUserId userId =>
    cases userId with
    | none => exact .refl _
    | some userId => exact below_odbcGetByUserId hturns hrows userId
  | delete id => cases id <;> exact .refl _
  | deleteByUserId userId => cases userId <;> exact .refl _
  | create s => exact .refl _
  | update s => exact .refl _

end

/-! ## The rows of a run -/

namespace SqlDb

variable {P : SqlRow → Prop} {db db' : SqlDb} {s : Session}

/-- What holds of the rows a call writes is kept by the call. -/
structure Keeps (P : SqlRow → Prop) (o : StoreOp) : Prop where
  create : ∀ s row, o = .create s → rowOf s = some row → P row
  update : ∀ s userId expires row, o = .update s → s.userId = some userId → expiresText s = some expires → P row →
    P (setRow userId (sqlValues s expires) row)

theorem rows_deleteWhere (hrows : ∀ row ∈ db.rows, P row) (p : SqlRow → Bool) :
    ∀ row ∈ (db.deleteWhere p).rows, P row :=
  fun row hrow => hrows row (List.mem_of_mem_filter hrow)

theorem rows_created (hkeeps : Keeps P (.create s)) (hrows : ∀ row ∈ db.rows, P row) (h : db.created s = some db') :
    ∀ row ∈ db'.rows, P row := by
  obtain ⟨new, hnew, h⟩ := Option.bind_eq_some_iff.mp h
  split at h
  · rw [← Option.some.inj h]
    intro row hrow
    rcases List.mem_append.mp hrow with hrow | hrow
    · exact hrows row hrow
    · rw [List.mem_singleton.mp hrow]
      exact hkeeps.create s new rfl hnew
  · cases h

theorem rows_updated (hkeeps : Keeps P (.update s)) (hrows : ∀ row ∈ db.rows, P row) (h : db.updated s = some db') :
    ∀ row ∈ db'.rows, P row := by
  unfold updated at h
  simp only [Option.bind_eq_bind, Option.bind_eq_some_iff, Option.some.injEq] at h
  obtain ⟨id, -, userId, huser, expires, hexpires, found, -, rfl⟩ := h
  intro row hrow
  obtain ⟨old, hold, rfl⟩ := List.mem_map.mp hrow
  split
  · exact hkeeps.update s userId expires old rfl huser hexpires (hrows old hold)
  · exact hrows old hold

theorem rows_writes {new : Option SqlDb} {rc : Int} (h : db.Writes new rc db') (hrows : ∀ row ∈ db.rows, P row)
    (hnew : ∀ db', new = some db' → ∀ row ∈ db'.rows, P row) : ∀ row ∈ db'.rows, P row := by
  cases new with
  | none => rwa [h.2]
  | some new =>
    rw [h.2]
    exact hnew new rfl

theorem Serves.rows {now : Int} {o : StoreOp} {x : o.Ans} (h : db.Serves now o x db') (hkeeps : Keeps P o)
    (hrows : ∀ row ∈ db.rows, P row) : ∀ row ∈ db'.rows, P row := by
  have hsame : ∀ {φ : Prop}, φ ∧ db' = db → ∀ row ∈ db'.rows, P row := fun h => by rwa [h.2]
  cases o with
  | create s => exact rows_writes h hrows fun _ => rows_created hkeeps hrows
  | get id =>
    cases id with
    | none => exact hsame h
    | some id =>
      simp only [Serves] at h
      cases hfound : (db.find id).bind SqlRow.session with
      | none =>
        rw [hfound] at h
        exact hsame h
      | some s =>
        simp only [hfound, Finds] at h
        split at h
        · rw [h.2]
          exact rows_deleteWhere hrows _
        · exact hsame h
  | update s => exact rows_writes h hrows fun _ => rows_updated hkeeps hrows
  | delete id =>
    cases id with
    | none => exact hsame h
    | some id =>
      rw [h.2]
      exact rows_deleteWhere hrows _
  | getByUserId userId =>
    cases userId with
    | none => exact hsame h
    | some userId =>
      rcases h with ⟨found, -, -, rfl⟩ | ⟨-, h⟩
      · exact rows_deleteWhere hrows _
      · exact hsame h
  | deleteByUserId userId =>
    cases userId with
    | none => exact hsame h
    | some userId =>
      rw [h.2]
      exact rows_deleteWhere hrows _

theorem Suffers.rows {o : StoreOp} {x : o.Ans} (h : db.Suffers o x db') (hkeeps : Keeps P o)
    (hrows : ∀ row ∈ db.rows, P row) : ∀ row ∈ db'.rows, P row := by
  cases o with
  | update s =>
    rcases h.2 with rfl | h
    · exact hrows
    · exact rows_updated hkeeps hrows h
  | getByUserId userId =>
    rcases h with ⟨-, rfl⟩ | ⟨user, now, found, gone, -, -, -, -, rfl⟩
    · exact hrows
    · exact rows_deleteWhere hrows _
  | create s => rwa [h.2]
  | get id => rwa [h.2]
  | delete id => rwa [h.2]
  | deleteByUserId userId => rwa [h.2]

theorem Comes.rows {faults : Bool} {now : Int} {o : StoreOp} {x : o.Ans} (h : db.Comes faults now o x db')
    (hkeeps : Keeps P o) (hrows : ∀ row ∈ db.rows, P row) : ∀ row ∈ db'.rows, P row := by
  rcases h with ⟨now', -, h⟩ | ⟨-, h⟩
  · exact h.rows hkeeps hrows
  · exact h.rows hkeeps hrows

end SqlDb

/-! ## C strings -/

/-- Without a NUL, if there is a text. -/
def NulFree (text : Option CStr) : Prop := ∀ bytes, text = some bytes → '\x00' ∉ bytes

/-- The texts of a session are C strings. -/
structure Session.NulFree (s : Session) : Prop where
  id : OpenDbsc.NulFree s.id
  userId : OpenDbsc.NulFree s.userId
  publicKey : OpenDbsc.NulFree s.publicKey
  algorithm : OpenDbsc.NulFree s.algorithm
  challenge : OpenDbsc.NulFree s.challenge

def StoreOp.NulFree : StoreOp → Prop
  | .create s => s.NulFree
  | .update s => s.NulFree
  | _ => True

def SqlRow.NulFree (row : SqlRow) : Prop := ∀ col, OpenDbsc.NulFree (row.column col)

theorem nulFree_some {bytes : CStr} : NulFree (some bytes) ↔ '\x00' ∉ bytes := by
  simp [NulFree]

theorem nul_notMem_percent02 (n : Int) : '\x00' ∉ percent02 n := by
  have hdigit : ∀ d, d < 10 → '\x00' ≠ Nat.digitChar d := by decide
  unfold percent02
  simp [hdigit _ (Nat.mod_lt _ (by decide : 0 < 10))]

theorem nul_notMem_percentD (n : Int) : '\x00' ∉ percentD n := by
  have hdigits : ∀ n : Nat, '\x00' ∉ percentD (n : Int) := fun n h => by
    have hdigit := isDigit_of_mem_percentD h
    cases hdigit
  cases n with
  | ofNat n => exact hdigits n
  | negSucc n =>
    have h := hdigits (n + 1)
    rw [percentD_nat] at h
    rw [percentD_negSucc]
    simp [h]

theorem nulFree_format {t : Int} {size : Nat} {text : CStr} (h : formatRfc3339Utc t size = some text) :
    '\x00' ∉ text := by
  unfold formatRfc3339Utc at h
  obtain ⟨tm, -, h⟩ := Option.bind_eq_some_iff.mp h
  simp only [strftime, Option.ite_none_right_eq_some, Option.some.injEq] at h
  obtain ⟨-, rfl⟩ := h
  simp [nul_notMem_percent02, nul_notMem_percentD]

theorem nulFree_expiresText {s : Session} {expires : Option CStr} (h : expiresText s = some expires) :
    NulFree expires := by
  unfold expiresText at h
  rintro text rfl
  split at h
  · obtain ⟨text', hformat, heq⟩ := Option.map_eq_some_iff.mp h
    rw [← Option.some.inj heq]
    exact nulFree_format hformat
  · cases h

theorem nul_notMem_sessionStateStr (s : Session) : '\x00' ∉ sessionStateStr s := by
  unfold sessionStateStr
  cases s.state <;> decide

/-- The columns of a row are C strings if each of its texts is. -/
theorem SqlRow.nulFree {row : SqlRow} (hid : '\x00' ∉ row.id) (huser : '\x00' ∉ row.userId)
    (hstate : '\x00' ∉ row.state) (hkey : OpenDbsc.NulFree row.publicKey) (halg : OpenDbsc.NulFree row.algorithm)
    (hchallenge : OpenDbsc.NulFree row.challenge) (hexpires : OpenDbsc.NulFree row.expiresAt)
    (hcreated : '\x00' ∉ row.createdAt) : row.NulFree := by
  intro col
  unfold column
  split
  · exact nulFree_some.mpr hid
  · exact nulFree_some.mpr huser
  · exact nulFree_some.mpr hstate
  · exact hkey
  · exact halg
  · exact hchallenge
  · exact hexpires
  · exact nulFree_some.mpr hcreated
  · intro bytes hnone
    cases hnone

theorem Session.NulFree.rowOf {s : Session} (h : s.NulFree) {row : SqlRow} (hrow : rowOf s = some row) :
    row.NulFree := by
  unfold OpenDbsc.rowOf at hrow
  simp only [Option.bind_eq_bind, Option.bind_eq_some_iff] at hrow
  obtain ⟨id, hid, expires, hexpires, created, hcreated, hrow⟩ := hrow
  obtain ⟨userId, huser, rfl⟩ := Option.map_eq_some_iff.mp hrow
  exact SqlRow.nulFree (h.id id hid) (h.userId userId huser) (nul_notMem_sessionStateStr s) h.publicKey h.algorithm
    h.challenge (nulFree_expiresText hexpires) (nulFree_format hcreated)

theorem StoreOp.NulFree.keeps {o : StoreOp} (h : o.NulFree) : SqlDb.Keeps SqlRow.NulFree o where
  create := by
    rintro s row rfl hrow
    exact Session.NulFree.rowOf h hrow
  update := by
    rintro s userId expires row rfl huser hexpires hold
    have hs : s.NulFree := h
    exact SqlRow.nulFree (nulFree_some.mp (hold 1)) (hs.userId userId huser) (nul_notMem_sessionStateStr s) hs.publicKey
      hs.algorithm hs.challenge (nulFree_expiresText hexpires) (nulFree_some.mp (hold 8))

theorem StoreOp.Narrow.keeps {o : StoreOp} (h : o.Narrow) : SqlDb.Keeps (fun row => row.id.length ≤ 64) o where
  create := by
    rintro s row rfl hrow
    have hs : s.Narrow := h
    exact hs.id row.id (stores_of_rowOf hrow).id
  update := fun s userId expires row _ _ _ hold => hold

/-- The characters of a row's columns. -/
def SqlRow.size (row : SqlRow) : Nat := ((List.range 9).map fun col => ((row.column col).getD []).length).sum

theorem SqlRow.length_le_size {row : SqlRow} {col : Nat} {text : CStr} (h : row.column col = some text) :
    text.length ≤ row.size := by
  have hcol : col < 9 := by
    by_contra hcol
    unfold column at h
    split at h <;> first | omega | cases h
  refine List.le_sum_of_mem (List.mem_map.mpr ⟨col, List.mem_range.mpr hcol, ?_⟩)
  rw [h, Option.getD_some]

/-- C strings are read whole by loops of some length. -/
theorem SqlDb.within_of_nulFree {db : SqlDb} (h : ∀ row ∈ db.rows, row.NulFree) :
    ∃ turns, ∀ row ∈ db.rows, row.Within turns := by
  refine ⟨(db.rows.map SqlRow.size).sum + 1, fun row hrow col text htext => ⟨h row hrow col text htext, ?_⟩⟩
  have hle := SqlRow.length_le_size htext
  have hsum : row.size ≤ (db.rows.map SqlRow.size).sum := List.le_sum_of_mem (List.mem_map_of_mem hrow)
  have hdiv := Nat.div_le_self text.length 511
  omega

/-! ## A call that has come to its end -/

/-- The ODBC store as a component: its calls as they end, however often their loops turn. -/
def odbcBackend (ctx : OdbcCtx) (faults : Bool) : Comp Sys StoreSig OdbcConn := fun o conn tr x conn' =>
  ∃ turns rows, through (odbcStore turns rows ctx) (odbcServer ctx.tableName faults) o conn tr x conn'

/-- And the SQLite store. -/
def sqliteBackend : Comp Sys StoreSig SqlDb := through sqliteStore sqlServer

/-- What a call answers and leaves, whatever fails. -/
def SqlDb.Whole (db : SqlDb) (o : StoreOp) (x : o.Ans) (db' : SqlDb) : Prop :=
  (∃ now, db.Serves now o x db') ∨ db.Suffers o x db'

section

variable {ctx : OdbcCtx} {faults : Bool} {now : Int} {conn conn' : OdbcConn} (hname : ctx.tableName.length ≤ 225)

include hname

/-- Unrolled far enough, a call comes to its end. -/
theorem odbcStore_ends (faults : Bool) (now : Int) {o : StoreOp} (hnarrow : faults = false → o.Narrow)
    (hkeys : faults = false → ∀ row ∈ conn.db.rows, row.id.length ≤ 64) (hclean : ∀ row ∈ conn.db.rows, row.NulFree) :
    ∃ turns rows, ∀ turns' rows', turns ≤ turns' → rows ≤ rows' →
      OdbcTotal ctx.tableName faults now (odbcStore turns' rows' ctx o)
        (fun x conn' => conn.db.Comes faults now o x conn'.db) conn := by
  obtain ⟨turns, hturns⟩ := SqlDb.within_of_nulFree hclean
  refine ⟨turns, conn.db.rows.length + 1, fun turns' rows' hle hle' => ?_⟩
  refine total_odbcStore hname hnarrow hkeys (fun row hrow col text htext => ?_) (by omega)
  obtain ⟨hnul, hlt⟩ := hturns row hrow col text htext
  exact ⟨hnul, by omega⟩

theorem comes_of_odbcBackend {o : StoreOp} (hnarrow : faults = false → o.Narrow)
    (hkeys : faults = false → ∀ row ∈ conn.db.rows, row.id.length ≤ 64) (hclean : ∀ row ∈ conn.db.rows, row.NulFree)
    {tr : List (Event Sys)} {x : o.Ans} (hcall : odbcBackend ctx faults o conn tr x conn')
    (htr : ∀ e ∈ tr, Unless faults (Still now) e) : conn.db.Comes faults now o x conn'.db := by
  obtain ⟨turns, rows, tr', hexec, rfl⟩ := hcall
  obtain ⟨turns', rows', htotal⟩ := odbcStore_ends hname faults now hnarrow hkeys hclean
  have hexec' := (below_odbcStore (Nat.le_max_left turns turns') (Nat.le_max_left rows rows') o).exec hexec
  exact (htotal _ _ (Nat.le_max_right ..) (Nat.le_max_right ..)).exec hexec' (within_envEvents.mpr htr)

end

/-! ## Runs -/

/-- A call made on both stores at clock value `now`, with their answers. -/
structure TableCall where
  op : StoreOp
  now : Int
  odbcAns : op.Ans
  sqliteAns : op.Ans

/-- The call on each store, with nothing failing. -/
structure TableStep (ctx : OdbcCtx) (st : OdbcConn × SqlDb) (c : TableCall) (st' : OdbcConn × SqlDb) : Prop where
  odbc : ∃ tr, odbcBackend ctx false c.op st.1 tr c.odbcAns st'.1 ∧ ∀ e ∈ tr, Still c.now e
  sqlite : ∃ tr, sqliteBackend c.op st.2 tr c.sqliteAns st'.2 ∧ ∀ e ∈ tr, Still c.now e

/-- The same table, of C strings, with keys within their column. -/
structure SameTable (st : OdbcConn × SqlDb) : Prop where
  same : st.1.db = st.2
  clean : ∀ row ∈ st.2.rows, row.NulFree
  keys : ∀ row ∈ st.2.rows, row.id.length ≤ 64

theorem TableStep.alike {ctx : OdbcCtx} (hname : ctx.tableName.length ≤ 225) {st st' : OdbcConn × SqlDb} {c : TableCall}
    (hs : TableStep ctx st c st') (hsame : SameTable st) (hnarrow : c.op.Narrow) (hclean : c.op.NulFree) :
    st.2.Alike c.op c.odbcAns c.sqliteAns ∧ SameTable st' := by
  obtain ⟨hdb, hrows, hkeys⟩ := hsame
  obtain ⟨⟨tr, hodbc, htr⟩, ⟨tr', ⟨tr'', hexec, rfl⟩, htr'⟩⟩ := hs
  rw [← hdb] at hrows hkeys hexec
  have hcomes := comes_of_odbcBackend hname (fun _ => hnarrow) (fun _ => hkeys) hrows hodbc
    fun e he => unless_false.mpr (htr e he)
  have hsqlite := (total_sqliteStore c.op).exec hexec (within_envEvents.mpr htr')
  rcases hcomes with ⟨now', hnow, hserves⟩ | ⟨hfaults, -⟩
  · rw [hnow rfl] at hserves
    obtain ⟨halike, hsame⟩ := hserves.alike hsqlite
    exact ⟨hdb ▸ halike, hsame, hsqlite.rows hclean.keeps hrows, hsqlite.rows hnarrow.keeps hkeys⟩
  · cases hfaults

/-- Connected, no statement made yet. -/
def OdbcConn.opened (db : SqlDb) : OdbcConn := ⟨db, [], [], 0, [], fun _ => none⟩

section

variable {table : CStr} {conn conn' : OdbcConn}

end

end OpenDbsc
