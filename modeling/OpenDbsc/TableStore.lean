/-
A store over the table of sessions, whichever database it is in.

`SqlDb.Serves` is what a call answers and leaves in the table when nothing
fails: sessions are kept as rows, a row is looked up by its key and read back,
an expired one is dropped. A delete that finds no row may say so. Two stores
that serve a call on the same table answer alike, but for the code of such a
delete, and leave the same table (`SqlDb.Serves.alike`); SQLite is the first
(`total_sqliteStore`).
-/
import OpenDbsc.Interchange

namespace OpenDbsc

open Effects Prog

namespace SqlDb

/-- The table with the session's row added, unless that is refused. -/
def created (db : SqlDb) (s : Session) : Option SqlDb :=
  (rowOf s).bind fun row => if h : db.find row.id = none then some (db.insertRow row h) else none

/-- The table with the session's row set to its values, unless that is refused. -/
def updated (db : SqlDb) (s : Session) : Option SqlDb := do
  let id ← s.id
  let userId ← s.userId
  let expiresAt ← expiresText s
  let _ ← db.find id
  some (db.updateRow id userId (sqlValues s expiresAt))

/-- The table without the rows of these ids. -/
def without (db : SqlDb) (ids : List CStr) : SqlDb := db.deleteWhere fun row => ids.contains row.id

/-- What a write answers, given the table it makes. -/
def Writes (db : SqlDb) : Option SqlDb → Int → SqlDb → Prop
  | none, rc, db' => rc = -1 ∧ db' = db
  | some new, rc, db' => rc = 0 ∧ db' = new

/-- What a lookup answers, given the session of the row it finds. -/
def Finds (db : SqlDb) (now : Int) (id : CStr) : Option Session → Option Session → SqlDb → Prop
  | none, out, db' => out = none ∧ db' = db
  | some s, out, db' => if s.expiredAt now then out = none ∧ db' = db.without [id] else out = some s ∧ db' = db

/-- The sessions of a user's rows, in some order. -/
def Lists (db : SqlDb) (userId : CStr) (found : List Session) : Prop :=
  (found.map some).Perm ((db.rows.filter fun row => row.userId == userId).map SqlRow.session)

/-- One of the user's rows cannot be read. -/
def Unreadable (db : SqlDb) (userId : CStr) : Prop := ∃ row ∈ db.rows, row.userId = userId ∧ row.session = none

/-- The ids of those that have expired. -/
def expiredIds (now : Int) (found : List Session) : List CStr :=
  (found.filter fun s => s.expiredAt now).filterMap Session.id

/-- What a call answers and leaves, with the clock at `now`. -/
def Serves (db : SqlDb) (now : Int) : (o : StoreOp) → o.Ans → SqlDb → Prop
  | .create s, rc, db' => db.Writes (db.created s) rc db'
  | .get none, out, db' => out = none ∧ db' = db
  | .get (some id), out, db' => db.Finds now id ((db.find id).bind SqlRow.session) out db'
  | .update s, rc, db' => db.Writes (db.updated s) rc db'
  | .delete none, rc, db' => rc = -1 ∧ db' = db
  | .delete (some id), rc, db' => (rc = 0 ∨ rc = -1 ∧ db.find id = none) ∧ db' = db.without [id]
  | .getByUserId none, out, db' => out = none ∧ db' = db
  | .getByUserId (some userId), out, db' =>
    (∃ found, db.Lists userId found ∧ out = some (found.filter fun s => !s.expiredAt now) ∧
      db' = db.without (expiredIds now found)) ∨
    db.Unreadable userId ∧ out = none ∧ db' = db
  | .deleteByUserId none, rc, db' => rc = -1 ∧ db' = db
  | .deleteByUserId (some userId), rc, db' => (rc = 0 ∨ rc = -1 ∧ ∀ row ∈ db.rows, row.userId ≠ userId) ∧
      db' = db.deleteWhere fun row => row.userId == userId

/-- What a delete says that finds no row. -/
def AbsentCode (rc : Int) : Prop := rc = 0 ∨ rc = -1

/-- The same answer to a call on the table, a listing in any order; where a
delete finds no row, one store may say 0 and the other -1. -/
inductive Alike (db : SqlDb) : (o : StoreOp) → o.Ans → o.Ans → Prop
  | refl {o : StoreOp} (x : o.Ans) : Alike db o x x
  | sessions {userId : Option CStr} {xs ys : List Session} (h : xs.Perm ys) :
      Alike db (.getByUserId userId) (some xs) (some ys)
  | delete {id : CStr} {x y : Int} (h : db.find id = none) (hx : AbsentCode x) (hy : AbsentCode y) :
      Alike db (.delete (some id)) x y
  | deleteByUserId {userId : CStr} {x y : Int} (h : ∀ row ∈ db.rows, row.userId ≠ userId) (hx : AbsentCode x)
      (hy : AbsentCode y) : Alike db (.deleteByUserId (some userId)) x y

variable {db db₁ db₂ : SqlDb} {now : Int}

theorem without_singleton (db : SqlDb) (id : CStr) : db.without [id] = db.deleteWhere fun row => row.id == id := by
  unfold without
  congr 1
  funext row
  rw [Bool.eq_iff_iff]
  simp

theorem without_nil (db : SqlDb) : db.without [] = db :=
  SqlDb.ext (List.filter_eq_self.mpr fun _ _ => by simp)

theorem without_without (db : SqlDb) (ids ids' : List CStr) :
    (db.without ids).without ids' = db.without (ids ++ ids') := by
  unfold without
  rw [deleteWhere_deleteWhere]
  congr 1
  funext row
  rw [Bool.eq_iff_iff]
  simp

/-- The table depends on which ids are dropped, not on their order. -/
theorem without_congr {ids ids' : List CStr} (h : ∀ id, id ∈ ids ↔ id ∈ ids') : db.without ids = db.without ids' := by
  unfold without
  congr 1
  funext row
  rw [Bool.eq_iff_iff]
  simp [h]

theorem Lists.perm {userId : CStr} {found found' : List Session} (h : db.Lists userId found)
    (h' : db.Lists userId found') : found.Perm found' := by
  have hsome : (found.map some).Perm (found'.map some) := List.Perm.trans h (List.Perm.symm h')
  exact (List.map_perm_map_iff (Option.some_injective _)).mp hsome

theorem Lists.readable {userId : CStr} {found : List Session} (h : db.Lists userId found) : ¬ db.Unreadable userId := by
  rintro ⟨row, hrow, huser, hnone⟩
  have hmem : row ∈ db.rows.filter fun row => row.userId == userId := List.mem_filter.mpr ⟨hrow, by simpa using huser⟩
  have hsession : row.session ∈ found.map some := (List.Perm.mem_iff h).mpr (List.mem_map_of_mem hmem)
  rw [hnone] at hsession
  obtain ⟨s, -, hs⟩ := List.mem_map.mp hsession
  cases hs

theorem Finds.unique {id : CStr} {found out out' : Option Session} (h : db.Finds now id found out db₁)
    (h' : db.Finds now id found out' db₂) : out = out' ∧ db₁ = db₂ := by
  cases found with
  | none => exact ⟨h.1.trans h'.1.symm, h.2.trans h'.2.symm⟩
  | some s =>
    simp only [Finds] at h h'
    split at h
    · rename_i hexp
      rw [if_pos hexp] at h'
      exact ⟨h.1.trans h'.1.symm, h.2.trans h'.2.symm⟩
    · rename_i hexp
      rw [if_neg hexp] at h'
      exact ⟨h.1.trans h'.1.symm, h.2.trans h'.2.symm⟩

theorem Writes.unique {new : Option SqlDb} {rc rc' : Int} (h : db.Writes new rc db₁) (h' : db.Writes new rc' db₂) :
    rc = rc' ∧ db₁ = db₂ := by
  cases new with
  | none => exact ⟨h.1.trans h'.1.symm, h.2.trans h'.2.symm⟩
  | some new => exact ⟨h.1.trans h'.1.symm, h.2.trans h'.2.symm⟩

/-- Two codes of a delete are the same, or it found no row. -/
theorem absentCodes {absent : Prop} {x y : Int} (hx : x = 0 ∨ x = -1 ∧ absent) (hy : y = 0 ∨ y = -1 ∧ absent) :
    x = y ∨ absent ∧ AbsentCode x ∧ AbsentCode y := by
  rcases hx with rfl | ⟨rfl, hx⟩
  · rcases hy with rfl | ⟨rfl, hy⟩
    · exact .inl rfl
    · exact .inr ⟨hy, .inl rfl, .inr rfl⟩
  · exact .inr ⟨hx, .inr rfl, hy.imp_right And.left⟩

/-- **Two stores that serve a call answer alike**, and leave the same table. -/
theorem Serves.alike {o : StoreOp} {x y : o.Ans} (hx : db.Serves now o x db₁) (hy : db.Serves now o y db₂) :
    db.Alike o x y ∧ db₁ = db₂ := by
  have hsame : ∀ {code : o.Ans} {db' : SqlDb}, x = code ∧ db₁ = db' → y = code ∧ db₂ = db' →
      db.Alike o x y ∧ db₁ = db₂ := by
    rintro code db' ⟨rfl, rfl⟩ ⟨rfl, rfl⟩
    exact ⟨.refl _, rfl⟩
  cases o with
  | create s =>
    obtain ⟨rfl, rfl⟩ := Writes.unique hx hy
    exact ⟨.refl _, rfl⟩
  | get id =>
    cases id with
    | none => exact hsame hx hy
    | some id =>
      obtain ⟨rfl, rfl⟩ := Finds.unique hx hy
      exact ⟨.refl _, rfl⟩
  | update s =>
    obtain ⟨rfl, rfl⟩ := Writes.unique hx hy
    exact ⟨.refl _, rfl⟩
  | delete id =>
    cases id with
    | none => exact hsame hx hy
    | some id =>
      refine ⟨?_, hx.2.trans hy.2.symm⟩
      rcases absentCodes hx.1 hy.1 with rfl | ⟨habsent, hx, hy⟩
      · exact .refl _
      · exact .delete habsent hx hy
  | getByUserId userId =>
    cases userId with
    | none => exact hsame hx hy
    | some userId =>
      rcases hx with ⟨found, hlists, rfl, rfl⟩ | ⟨hbad, hx⟩
      · rcases hy with ⟨found', hlists', rfl, rfl⟩ | ⟨hbad, -⟩
        · have hperm := hlists.perm hlists'
          refine ⟨.sessions (hperm.filter _), without_congr fun id => ?_⟩
          exact ((hperm.filter _).filterMap _).mem_iff
        · exact absurd hbad hlists.readable
      · rcases hy with ⟨found', hlists', -⟩ | ⟨-, hy⟩
        · exact absurd hbad hlists'.readable
        · exact hsame hx hy
  | deleteByUserId userId =>
    cases userId with
    | none => exact hsame hx hy
    | some userId =>
      refine ⟨?_, hx.2.trans hy.2.symm⟩
      rcases absentCodes hx.1 hy.1 with rfl | ⟨habsent, hx, hy⟩
      · exact .refl _
      · exact .deleteByUserId habsent hx hy

end SqlDb

/-! ## SQLite -/

section

variable {db : SqlDb} {now : Int}

theorem serves_sqliteUpdate (s : Session) :
    Total (Still now) sqlServer (sqliteUpdate s) (fun rc db' => db.Writes (db.updated s) rc db') db := by
  cases hid : s.id with
  | none =>
    unfold sqliteUpdate SqlDb.updated
    rw [hid]
    exact ⟨rfl, rfl⟩
  | some id =>
    cases huser : s.userId with
    | some userId =>
      rw [total_sqliteUpdate hid huser]
      unfold SqlDb.updated
      rw [hid, huser]
      cases expiresText s with
      | none => exact ⟨rfl, rfl⟩
      | some expiresAt =>
        simp only [Option.bind_eq_bind, Option.bind_some]
        cases db.find id with
        | none => exact ⟨rfl, rfl⟩
        | some row => exact ⟨rfl, rfl⟩
    | none =>
      have hrefused : db.updated s = none := by
        unfold SqlDb.updated
        rw [hid, huser]
        rfl
      rw [hrefused]
      unfold sqliteUpdate
      simp only [hid, total_bind]
      rw [total_still (assuming_sqlPrepared 5)]
      simp only [Bool.not_true, Bool.false_eq_true, if_false, total_bind]
      rw [total_still (assuming_sqlBindExpires s)]
      cases expiresText s with
      | none => exact ⟨rfl, rfl⟩
      | some expiresAt =>
        simp only [total_bind]
        rw [total_still (assuming_sqlBind 1)]
        simp only [Bool.not_true, Bool.false_eq_true, if_false, total_bind]
        rw [total_sqlStep fun _ => SqlOp.noConfusion]
        have hvalues : (sqlValues s expiresAt).userId = none := huser
        -- a null user_id is refused, or there is no row to set
        cases hfind : db.find id with
        | none =>
          simp only [SqlDb.answer, hfind]
          exact ⟨rfl, rfl⟩
        | some row =>
          simp only [SqlDb.answer, hfind, hvalues]
          exact ⟨rfl, rfl⟩

/-- A row that cannot be read ends the listing. -/
theorem assuming_sqliteCollect_unreadable {rows : List SqlRow} (h : ∃ row ∈ rows, row.session = none)
    (sessions : List Session) (expired : List CStr) :
    (sqliteCollect now rows sessions expired).assuming allocOk = pure none := by
  induction rows generalizing sessions expired with
  | nil =>
    obtain ⟨row, hrow, -⟩ := h
    cases hrow
  | cons row rest ih =>
    unfold sqliteCollect
    rw [assuming_bind, assuming_sessionFromStmt, pure_bind]
    cases hrow : row.session with
    | none => rfl
    | some s =>
      have hrest : ∃ row ∈ rest, row.session = none := by
        obtain ⟨row', hmem, hnone⟩ := h
        rcases List.mem_cons.mp hmem with rfl | hmem
        · cases hrow.symm.trans hnone
        · exact ⟨row', hmem, hnone⟩
      have hid := (SqlRow.session_some hrow).1
      simp only
      cases sqlExpired s now with
      | true =>
        simp only [if_true, sqlCopyId, hid, assuming_bind, assuming_strdup, pure_bind, assuming_malloc, Bool.not_true,
          Bool.false_eq_true, if_false]
        exact ih hrest _ _
      | false =>
        simp only [Bool.false_eq_true, if_false, assuming_bind, assuming_malloc, pure_bind, Bool.not_true]
        exact ih hrest _ _

/-- The rows can all be read, or one of them cannot. -/
theorem sessions_of_rows (rows : List SqlRow) :
    (∃ found : List Session, rows.map SqlRow.session = found.map some) ∨ ∃ row ∈ rows, row.session = none := by
  induction rows with
  | nil => exact .inl ⟨[], rfl⟩
  | cons row rest ih =>
    cases hrow : row.session with
    | none => exact .inr ⟨row, List.mem_cons_self, hrow⟩
    | some s =>
      rcases ih with ⟨found, hfound⟩ | ⟨row', hmem, hnone⟩
      · refine .inl ⟨s :: found, ?_⟩
        rw [List.map_cons, List.map_cons, hrow, hfound]
      · exact .inr ⟨row', List.mem_cons_of_mem _ hmem, hnone⟩

theorem serves_sqliteGetByUserId (userId : CStr) :
    Total (Still now) sqlServer (sqliteGetByUserId userId)
      (fun out db' => db.Serves now (.getByUserId (some userId)) out db') db := by
  rcases sessions_of_rows (db.rows.filter fun row => row.userId == userId) with ⟨ss, hss⟩ | ⟨row, hrow, hnone⟩
  · refine total_sqliteGetByUserId hss fun found hperm => .inl ⟨found, ?_, rfl, ?_⟩
    · unfold SqlDb.Lists
      rw [hss]
      exact hperm.map some
    · unfold SqlDb.without
      congr 1
      funext row
      rw [List.contains_eq_mem]
      rfl
  · unfold sqliteGetByUserId
    simp only [total_bind]
    rw [total_still assuming_sqlPrepare]
    simp only [Bool.not_true, Bool.false_eq_true, if_false, total_bind]
    rw [total_still (assuming_sqlBind 1)]
    simp only [Bool.not_true, Bool.false_eq_true, if_false, total_bind]
    rw [total_time, total_statement]
    intro x hx
    obtain ⟨rows, hperm, rfl⟩ := SqlOp.reorders_rows.mp hx
    simp only
    rw [total_still (assuming_sqliteCollect_unreadable ⟨row, hperm.mem_iff.mp hrow, hnone⟩ [] [])]
    obtain ⟨hmem, huser⟩ := List.mem_filter.mp hrow
    exact .inr ⟨⟨row, hmem, by simpa using huser, hnone⟩, rfl, rfl⟩

/-- **The SQLite store serves** every call, on any table. -/
theorem total_sqliteStore (o : StoreOp) : Total (Still now) sqlServer (sqliteStore o) (db.Serves now o) db := by
  cases o with
  | create s =>
    show Total _ _ (sqliteCreate s) (fun rc db' => db.Writes (db.created s) rc db') _
    rw [total_sqliteCreate]
    unfold SqlDb.created
    cases rowOf s with
    | none => exact ⟨rfl, rfl⟩
    | some row =>
      by_cases hnew : db.find row.id = none
      · simp only [Option.bind_some, dif_pos hnew]
        exact ⟨rfl, rfl⟩
      · simp only [Option.bind_some, dif_neg hnew]
        exact ⟨rfl, rfl⟩
  | get id =>
    cases id with
    | none => exact ⟨rfl, rfl⟩
    | some id =>
      show Total _ _ (sqliteGet id) (fun out db' => db.Finds now id ((db.find id).bind SqlRow.session) out db') _
      rw [total_sqliteGet]
      cases (db.find id).bind SqlRow.session with
      | none => exact ⟨rfl, rfl⟩
      | some s =>
        simp only [SqlDb.Finds, db.without_singleton]
        split <;> simp
  | update s => exact serves_sqliteUpdate s
  | delete id =>
    cases id with
    | none => exact ⟨rfl, rfl⟩
    | some id =>
      show Total _ _ (sqliteDelete id) _ _
      rw [total_sqliteDelete]
      exact ⟨.inl rfl, (db.without_singleton id).symm⟩
  | getByUserId userId =>
    cases userId with
    | none => exact ⟨rfl, rfl⟩
    | some userId => exact serves_sqliteGetByUserId userId
  | deleteByUserId userId =>
    cases userId with
    | none => exact ⟨rfl, rfl⟩
    | some userId =>
      show Total _ _ (sqliteDeleteByUserId userId) _ _
      rw [total_sqliteDeleteByUserId]
      exact ⟨.inl rfl, rfl⟩

end

end OpenDbsc
