/-
The calls of the ODBC store, one by one.

A call comes to what serves it on the table, or, where something failed, to an
answer that says so (`SqlDb.Comes`, `total_odbcStore`). What it leaves then is
the table as it was, with two exceptions: an update whose row count cannot be
read has been made, and a listing may drop some of the expired sessions only.
-/
import OpenDbsc.OdbcSpec

namespace OpenDbsc

open Effects Prog

/-- What a call answers and leaves in which something failed. -/
def SqlDb.Suffers (db : SqlDb) : (o : StoreOp) → o.Ans → SqlDb → Prop
  | .create _, rc, db' => rc = -1 ∧ db' = db
  | .get _, out, db' => out = none ∧ db' = db
  | .update s, rc, db' => rc = -1 ∧ (db' = db ∨ db.updated s = some db')
  | .delete _, rc, db' => rc = -1 ∧ db' = db
  | .getByUserId userId, out, db' => (out = none ∧ db' = db) ∨
    ∃ user now found gone, userId = some user ∧ db.Lists user found ∧
      out = some (found.filter fun s => !s.expiredAt now) ∧ gone ⊆ SqlDb.expiredIds now found ∧ db' = db.without gone
  | .deleteByUserId _, rc, db' => rc = -1 ∧ db' = db

/-- What a call may come to: the clock is at `now` unless there are faults. -/
def SqlDb.Comes (faults : Bool) (now : Int) (db : SqlDb) (o : StoreOp) (x : o.Ans) (db' : SqlDb) : Prop :=
  (∃ now', (faults = false → now' = now) ∧ db.Serves now' o x db') ∨ faults = true ∧ db.Suffers o x db'

/-- A name of 225 characters leaves room for every statement. -/
theorem OdbcStatement.room_of_short {table : CStr} (h : table.length ≤ 225) (g : OdbcStatement) :
    table.length ≤ g.room := by
  have hroom : 225 ≤ g.room := by cases g <;> decide +kernel
  omega

/-- An insertion of the session's row writes it. -/
theorem SqlDb.writes_of_insert {db db' : SqlDb} {s : Session} {id createdAt : CStr} {values : SqlValues} {ok : Bool}
    (hrow : rowOf s = SqlDb.newRow id values createdAt)
    (h : db.answer (.insert id values createdAt) = (ok, db')) : db.Writes (db.created s) (if ok then 0 else -1) db' := by
  unfold answer at h
  unfold created
  cases hnew : SqlDb.newRow id values createdAt with
  | none =>
    simp only [hnew] at h
    obtain ⟨rfl, rfl⟩ := Prod.mk.inj h
    rw [hrow, hnew]
    exact ⟨rfl, rfl⟩
  | some row =>
    simp only [hnew] at h
    rw [hrow, hnew, Option.bind_some]
    split at h
    · rename_i hfree
      obtain ⟨rfl, rfl⟩ := Prod.mk.inj h
      rw [dif_pos hfree]
      exact ⟨rfl, rfl⟩
    · rename_i htaken
      obtain ⟨rfl, rfl⟩ := Prod.mk.inj h
      rw [dif_neg htaken]
      exact ⟨rfl, rfl⟩

/-- An update sets the session's row, or there is none to set. -/
theorem OdbcConn.Executes.updates {conn conn' : OdbcConn} {s : Session} {id : CStr} {expires : Option CStr} {ok : Bool}
    (hid : s.id = some id) (htext : expiresText s = some expires)
    (h : conn.Executes (.update (sqlValues s expires) id) ok conn') :
    (conn.db.updated s = some conn'.db ∧ ok = true ∧ conn'.affected = 1) ∨
      conn.db.updated s = none ∧ conn'.db = conn.db ∧ (ok = true → conn'.affected = 0) := by
  have h := h.update
  unfold SqlDb.updated
  simp only [hid, htext, Option.bind_eq_bind, Option.bind_some]
  cases hfind : conn.db.find id with
  | none =>
    simp only [SqlDb.answer, hfind] at h
    exact .inr ⟨by cases s.userId <;> rfl, h.2.1, fun _ => h.2.2⟩
  | some row =>
    cases huser : s.userId with
    | none =>
      have hvalues : (sqlValues s expires).userId = none := huser
      simp only [SqlDb.answer, hfind, hvalues] at h
      exact .inr ⟨rfl, h.2, fun hok => absurd (h.1.symm.trans hok) Bool.false_ne_true⟩
    | some userId =>
      have hvalues : (sqlValues s expires).userId = some userId := huser
      simp only [SqlDb.answer, hfind, hvalues, one_ne_zero, false_and, or_false] at h
      obtain ⟨hok, hdb, haffected⟩ := h
      refine .inl ⟨?_, hok, haffected⟩
      rw [hdb]
      rfl

theorem SqlDb.writes_refused {db : SqlDb} {new : Option SqlDb} (h : new = none) : db.Writes new (-1) db := by
  rw [h]
  exact ⟨rfl, rfl⟩

/-! ## Calls on one session -/

section

variable {ctx : OdbcCtx} {faults : Bool} {now : Int} {turns rows : Nat} {conn : OdbcConn}
  (hroom : ctx.tableName.length ≤ 225)

include hroom

/-- A statement whose parameters are those of `o`, executed. -/
theorem total_odbcRun_op {g : OdbcStatement} {texts : List (Option CStr)} (hlength : texts.length ≤ odbcMaxParams)
    {o : SqlOp} (hop : g.sqlOp texts = some o) (hfits : faults = false → g.Fits texts) {Q : Bool → OdbcConn → Prop}
    (hok : ∀ ok conn', (conn.bound (g.template ctx.tableName) texts).Executes o ok conn' → Q ok conn')
    (hfail : faults = true → ∀ conn', conn'.db = conn.db → Q false conn') :
    OdbcTotal ctx.tableName faults now (odbcRun (g.text ctx.tableName) texts) Q conn := by
  refine total_odbcRun (OdbcStatement.room_of_short hroom g) hlength (fun ok conn' hexec => ?_) hfail
  rcases hexec.executes with hexec | ⟨hwide, rfl, hdb⟩
  · rw [hop] at hexec
    exact hok ok conn' hexec
  · cases hfaults : faults with
    | true => exact hfail hfaults conn' hdb
    | false => exact absurd (hfits hfaults) hwide

theorem total_odbcDeleteUnlocked {id : CStr} (hid : faults = false → id.length ≤ 1024) {Q : Int → OdbcConn → Prop}
    (hok : ∀ rc conn', (rc = 0 ∨ rc = -1 ∧ conn.db.find id = none) → conn'.db = conn.db.without [id] → Q rc conn')
    (hfail : faults = true → ∀ conn', conn'.db = conn.db → Q (-1) conn') :
    OdbcTotal ctx.tableName faults now (odbcDeleteUnlocked ctx id) Q conn := by
  unfold odbcDeleteUnlocked OdbcTotal
  rw [total_bind]
  refine total_odbcRun_op (g := .deleteById) hroom (by simp [odbcMaxParams]) rfl (fun h => .cons (fits_some (hid h)) .nil)
    (fun ok conn' hexec => ?_) hfail
  obtain ⟨hrc, hdb⟩ := hexec.deleteById
  cases ok with
  | true => exact hok 0 conn' (.inl rfl) hdb
  | false =>
    refine hok (-1) conn' (.inr ⟨rfl, ?_⟩) hdb
    rcases hrc with h | ⟨hnone, -⟩
    · cases h
    · exact hnone

theorem total_odbcCreate {s : Session} (hnarrow : faults = false → s.Narrow) :
    OdbcTotal ctx.tableName faults now (odbcCreate ctx s) (fun rc conn' => conn.db.Comes faults now (.create s) rc conn'.db)
      conn := by
  have hserved : ∀ {rc : Int} {db' : SqlDb}, conn.db.Writes (conn.db.created s) rc db' →
      conn.db.Comes faults now (.create s) rc db' := fun h => .inl ⟨now, fun _ => rfl, h⟩
  have hrefused : conn.db.created s = none → conn.db.Comes faults now (.create s) (-1) conn.db :=
    fun h => hserved (SqlDb.writes_refused h)
  unfold odbcCreate
  cases hid : s.id with
  | none => exact hrefused (by simp [SqlDb.created, rowOf, hid])
  | some id =>
    simp only
    cases hexpires : odbcExpires s with
    | none =>
      have htext : expiresText s = none := hexpires
      exact hrefused (by simp [SqlDb.created, rowOf, hid, htext])
    | some expires =>
      have htext : expiresText s = some expires := hexpires
      simp only
      cases hcreated : formatRfc3339Utc s.createdAt sqlTimeBuf with
      | none => exact hrefused (by simp [SqlDb.created, rowOf, hid, htext, hcreated])
      | some created =>
        unfold OdbcTotal
        rw [total_bind]
        refine total_odbcRun_op (g := .insert) hroom (by simp [odbcMaxParams]) rfl
          (fun h => (hnarrow h).insert_fits hid hexpires hcreated) (fun ok conn' hexec => ?_)
          fun hfaults conn' hdb => .inr ⟨hfaults, rfl, hdb⟩
        have hrow : rowOf s = SqlDb.newRow id (sqlValues s expires) created := by
          simp [rowOf, hid, htext, hcreated]
        have hwrites := SqlDb.writes_of_insert hrow hexec.insert
        cases ok with
        | true => exact hserved hwrites
        | false => exact hserved hwrites

omit hroom in
/-- The number of rows an update changed is asked for. -/
theorem total_rowCounted {Q : Int → OdbcConn → Prop} (hok : Q (if conn.affected ≤ 0 then -1 else 0) conn)
    (hfail : faults = true → ∀ conn', conn'.db = conn.db → Q (-1) conn') :
    OdbcTotal ctx.tableName faults now (do
      match ← odbcCall .rowCount with
      | some affected => return if affected ≤ 0 then -1 else 0
      | none => return -1) Q conn := by
  unfold OdbcTotal
  rw [total_bind]
  refine total_odbcCall fun affected conn' hserve => ?_
  rcases hserve.2 with ⟨rfl, rfl⟩ | ⟨hfaults, hfailed, hdb⟩
  · exact hok
  · cases affected with
    | none => exact hfail hfaults conn' hdb
    | some n => cases hfailed

theorem total_odbcUpdate {s : Session} (hnarrow : faults = false → s.Narrow) :
    OdbcTotal ctx.tableName faults now (odbcUpdate ctx s) (fun rc conn' => conn.db.Comes faults now (.update s) rc conn'.db)
      conn := by
  have hserved : ∀ {rc : Int} {db' : SqlDb}, conn.db.Writes (conn.db.updated s) rc db' →
      conn.db.Comes faults now (.update s) rc db' := fun h => .inl ⟨now, fun _ => rfl, h⟩
  have hrefused : conn.db.updated s = none → conn.db.Comes faults now (.update s) (-1) conn.db :=
    fun h => hserved (SqlDb.writes_refused h)
  unfold odbcUpdate
  cases hid : s.id with
  | none => exact hrefused (by simp [SqlDb.updated, hid])
  | some id =>
    simp only
    cases hexpires : odbcExpires s with
    | none =>
      have htext : expiresText s = none := hexpires
      exact hrefused (by simp [SqlDb.updated, hid, htext])
    | some expires =>
      have htext : expiresText s = some expires := hexpires
      unfold OdbcTotal
      simp only [total_bind]
      refine total_odbcRun_op (g := .update) hroom (by simp [odbcMaxParams]) rfl
        (fun h => (hnarrow h).update_fits hid hexpires) (fun ok conn₁ hexec => ?_)
        fun hfaults conn₁ hdb => .inr ⟨hfaults, rfl, .inl hdb⟩
      have hupdates := hexec.updates hid htext
      rw [OdbcConn.bound_db] at hupdates
      rcases hupdates with ⟨hnew, rfl, haffected⟩ | ⟨hnone, hdb, haffected⟩
      · refine total_rowCounted ?_ fun hfaults conn₂ hdb => .inr ⟨hfaults, rfl, .inr (hdb ▸ hnew)⟩
        rw [haffected]
        refine hserved ?_
        rw [hnew]
        exact ⟨rfl, rfl⟩
      · have hnothing : conn.db.Comes faults now (.update s) (-1) conn₁.db := by
          rw [hdb]
          exact hrefused hnone
        cases ok with
        | false => exact hnothing
        | true =>
          refine total_rowCounted ?_ fun hfaults conn₂ hdb' => .inr ⟨hfaults, rfl, .inl (hdb'.trans hdb)⟩
          rw [haffected rfl]
          exact hnothing

/-- An expired session is dropped, or stays where that fails. -/
theorem total_odbcGet {id : CStr} (hid : faults = false → id.length ≤ 1024) (hrows : ∀ row ∈ conn.db.rows, row.Within turns) :
    OdbcTotal ctx.tableName faults now (odbcGet turns ctx id)
      (fun out conn' => conn.db.Comes faults now (.get (some id)) out conn'.db) conn := by
  have hserved : ∀ now' {out db'}, (faults = false → now' = now) →
      conn.db.Finds now' id ((conn.db.find id).bind SqlRow.session) out db' →
      conn.db.Comes faults now (.get (some id)) out db' := fun _ _ _ hnow h => .inl ⟨_, hnow, h⟩
  have hfail : faults = true → ∀ conn' : OdbcConn, conn'.db = conn.db →
      conn.db.Comes faults now (.get (some id)) none conn'.db := fun hfaults conn' hdb => .inr ⟨hfaults, rfl, hdb⟩
  unfold odbcGet OdbcTotal
  rw [buildSelectSql_id]
  simp only [total_bind]
  refine total_odbcRun_op (g := .selectById) hroom (by simp [odbcMaxParams]) rfl
    (fun h => .cons (fits_some (hid h)) .nil) (fun ok conn₁ hexec => ?_) hfail
  obtain ⟨rfl, found, hfound, rfl⟩ := hexec
  simp only [Bool.not_true, Bool.false_eq_true, if_false, total_bind]
  refine total_odbcCall fun rc conn₂ hserve => ?_
  rcases hserve.2 with hfetch | ⟨-, hfaults, hrc, hdb⟩
  · cases hfind : conn.db.find id with
    | none =>
      have hnone : found = [] := by
        have h := hfound
        rw [OdbcConn.bound_db, hfind] at h
        exact h.eq_nil
      subst hnone
      obtain ⟨rfl, rfl⟩ := hfetch
      refine hserved now (fun _ => rfl) ?_
      rw [hfind]
      exact ⟨rfl, rfl⟩
    | some row =>
      have hone : found = [row] := by
        have h := hfound
        rw [OdbcConn.bound_db, hfind] at h
        exact List.perm_singleton.mp h
      subst hone
      obtain ⟨rfl, rfl⟩ := hfetch
      have hrow := hrows row (SqlDb.mem_of_find hfind).1
      simp only [ne_eq, not_true_eq_false, if_false, total_bind]
      refine total_malloc_tried ?_ fun hfaults => hfail hfaults _ rfl
      simp only [Bool.not_true, Bool.false_eq_true, if_false, total_bind]
      refine total_sessionFromRow hrow rfl (fun left => ?_) fun hfaults left => hfail hfaults _ rfl
      cases hsession : row.session with
      | none =>
        refine hserved now (fun _ => rfl) ?_
        rw [hfind, Option.bind_some, hsession]
        exact ⟨rfl, rfl⟩
      | some s =>
        simp only [total_bind]
        refine total_time_unless fun now' hnow' => ?_
        have hfinds : ∀ {out db'}, (if s.expiredAt now' then out = none ∧ db' = conn.db.without [id] else
            out = some s ∧ db' = conn.db) → conn.db.Comes faults now (.get (some id)) out db' := by
          intro out db' h
          refine hserved now' hnow' ?_
          rw [hfind, Option.bind_some, hsession]
          exact h
        have hexpired : sqlExpired s now' = s.expiredAt now' := rfl
        rw [hexpired]
        split
        · rename_i hexp
          rw [total_bind]
          refine total_odbcDeleteUnlocked hroom hid (fun rc conn₃ _ hdb => ?_) fun hfaults conn₃ hdb => hfail hfaults _ hdb
          exact hfinds (by rw [if_pos hexp]; exact ⟨rfl, hdb⟩)
        · rename_i hexp
          exact hfinds (by rw [if_neg hexp]; exact ⟨rfl, rfl⟩)
  · have hne : rc ≠ .success := by simpa using hrc
    simp only [ne_eq, hne, not_false_eq_true, if_true]
    exact hfail hfaults conn₂ hdb

/-- The ids deleted in turn; where some of that fails, some of them. -/
theorem total_odbcDeleteEach {ids : List CStr} (hids : faults = false → ∀ id ∈ ids, id.length ≤ 1024)
    {Q : Unit → OdbcConn → Prop}
    (hok : ∀ gone conn', gone ⊆ ids → (faults = false → gone = ids) → conn'.db = conn.db.without gone → Q () conn') :
    OdbcTotal ctx.tableName faults now (odbcDeleteEach ctx ids) Q conn := by
  induction ids generalizing conn with
  | nil => exact hok [] conn (List.Subset.refl _) (fun _ => rfl) conn.db.without_nil.symm
  | cons id rest ih =>
    have hrest : faults = false → ∀ id ∈ rest, id.length ≤ 1024 := fun h id' hid' => hids h id' (List.mem_cons_of_mem _ hid')
    unfold odbcDeleteEach OdbcTotal
    rw [total_bind]
    refine total_odbcDeleteUnlocked hroom (fun h => hids h id List.mem_cons_self) (fun rc conn₁ _ hdb => ?_)
      fun hfaults conn₁ hdb => ?_
    · refine ih hrest fun gone conn₂ hgone hall hdb' => hok (id :: gone) conn₂ ?_ (fun h => by rw [hall h]) ?_
      · exact List.cons_subset_cons id hgone
      · rw [hdb', hdb, SqlDb.without_without]
        rfl
    · refine ih hrest fun gone conn₂ hgone _ hdb' => hok gone conn₂ (fun id' h => List.mem_cons_of_mem _ (hgone h)) ?_ ?_
      · exact fun h => absurd (h.symm.trans hfaults) Bool.false_ne_true
      · rw [hdb', hdb]

end

/-! ## Calls on a user's sessions -/

section

variable {table : CStr} {faults : Bool} {now : Int} {turns rows : Nat} {conn : OdbcConn}

/-- The rows fetched one after another, to the end or to one that cannot be read. -/
theorem total_odbcCollect {clock : Int} {found : List SqlRow} (hfound : conn.results = found)
    (hrows : ∀ row ∈ found, row.Within turns) (hlength : found.length < rows) {sessions : List Session}
    {expired : List CStr} {Q : Option (List Session × List CStr) → OdbcConn → Prop}
    (hok : ∀ ss conn', found.map SqlRow.session = ss.map some → conn'.db = conn.db →
      Q (some (sessions ++ ss.filter (fun s => !s.expiredAt clock), expired ++ SqlDb.expiredIds clock ss)) conn')
    (hbad : ∀ conn', (∃ row ∈ found, row.session = none) → conn'.db = conn.db → Q none conn')
    (hfail : faults = true → ∀ conn', conn'.db = conn.db → Q none conn') :
    OdbcTotal table faults now (odbcCollect turns clock rows sessions expired) Q conn := by
  induction found generalizing conn rows sessions expired with
  | nil =>
    obtain ⟨rows, rfl⟩ : ∃ n, rows = n + 1 := ⟨rows - 1, by simp only [List.length_nil] at hlength; omega⟩
    unfold odbcCollect OdbcTotal
    rw [total_bind]
    refine total_odbcCall fun rc conn₁ hserve => ?_
    rw [odbcServer, hfound] at hserve
    rcases hserve.2 with ⟨rfl, rfl⟩ | ⟨hne, hfaults, hrc, hdb⟩
    · have hdone := hok [] conn₁ rfl rfl
      simpa [SqlDb.expiredIds] using hdone
    · cases rc with
      | success => cases hrc
      | noData => exact absurd rfl hne
      | _ => exact hfail hfaults conn₁ hdb
  | cons row rest ih =>
    obtain ⟨rows, rfl⟩ : ∃ n, rows = n + 1 := ⟨rows - 1, by omega⟩
    have hlength' : rest.length < rows := by
      rw [List.length_cons] at hlength
      omega
    have hrest : ∀ row ∈ rest, row.Within turns := fun row' h => hrows row' (List.mem_cons_of_mem _ h)
    unfold odbcCollect OdbcTotal
    rw [total_bind]
    refine total_odbcCall fun rc conn₁ hserve => ?_
    rw [odbcServer, hfound] at hserve
    rcases hserve.2 with ⟨rfl, rfl⟩ | ⟨hne, hfaults, hrc, hdb⟩
    · simp only [total_bind]
      refine total_sessionFromRow (hrows row List.mem_cons_self) rfl (fun left => ?_) fun hfaults left =>
        hfail hfaults _ rfl
      cases hsession : row.session with
      | none => exact hbad _ ⟨row, List.mem_cons_self, hsession⟩ rfl
      | some s =>
        have hid := (SqlRow.session_some hsession).1
        have hexpired : sqlExpired s clock = s.expiredAt clock := rfl
        have hbad' : ∀ conn', (∃ row ∈ rest, row.session = none) → conn'.db = conn.db → Q none conn' :=
          fun conn' h => hbad conn' (h.imp fun row' h => ⟨List.mem_cons_of_mem _ h.1, h.2⟩)
        have hmap : ∀ {ss}, rest.map SqlRow.session = ss.map some → (row :: rest).map SqlRow.session = (s :: ss).map some := by
          intro ss h
          rw [List.map_cons, List.map_cons, hsession, h]
        simp only [hexpired]
        cases hexp : s.expiredAt clock with
        | true =>
          simp only [if_true, sqlCopyId, hid, total_bind]
          refine total_strdup_tried ?_ fun hfaults => hfail hfaults _ rfl
          simp only [total_bind]
          refine total_malloc_tried ?_ fun hfaults => hfail hfaults _ rfl
          simp only [Bool.not_true, Bool.false_eq_true, if_false]
          refine ih rfl hrest hlength' (fun ss conn' hss hdb => ?_) hbad' hfail
          have hdone := hok (s :: ss) conn' (hmap hss) hdb
          simpa [SqlDb.expiredIds, hexp, hid] using hdone
        | false =>
          simp only [Bool.false_eq_true, if_false, total_bind]
          refine total_malloc_tried ?_ fun hfaults => hfail hfaults _ rfl
          simp only [Bool.not_true, Bool.false_eq_true, if_false]
          refine ih rfl hrest hlength' (fun ss conn' hss hdb => ?_) hbad' hfail
          have hdone := hok (s :: ss) conn' (hmap hss) hdb
          simpa [SqlDb.expiredIds, hexp] using hdone
    · cases rc with
      | success => cases hrc
      | noData => exact absurd rfl hne
      | _ => exact hfail hfaults conn₁ hdb

end

section

variable {ctx : OdbcCtx} {faults : Bool} {now : Int} {turns rows : Nat} {conn : OdbcConn}
  (hroom : ctx.tableName.length ≤ 225)

include hroom

theorem total_odbcGetByUserId {userId : CStr} (huser : faults = false → userId.length ≤ 1024)
    (hkeys : faults = false → ∀ row ∈ conn.db.rows, row.id.length ≤ 64) (hrows : ∀ row ∈ conn.db.rows, row.Within turns)
    (hlength : conn.db.rows.length < rows) :
    OdbcTotal ctx.tableName faults now (odbcGetByUserId turns rows ctx userId)
      (fun out conn' => conn.db.Comes faults now (.getByUserId (some userId)) out conn'.db) conn := by
  have hfail : faults = true → ∀ conn' : OdbcConn, conn'.db = conn.db →
      conn.db.Comes faults now (.getByUserId (some userId)) none conn'.db :=
    fun hfaults conn' hdb => .inr ⟨hfaults, .inl ⟨rfl, hdb⟩⟩
  unfold odbcGetByUserId OdbcTotal
  rw [buildSelectSql_userId]
  simp only [total_bind]
  refine total_time_unless fun clock hclock => ?_
  refine total_odbcRun_op (g := .selectByUserId) hroom (by simp [odbcMaxParams]) rfl
    (fun h => .cons (fits_some (huser h)) .nil) (fun ok conn₁ hexec => ?_) hfail
  obtain ⟨rfl, found, hfound, rfl⟩ := hexec
  have hmem : ∀ row ∈ found, row ∈ conn.db.rows ∧ row.userId = userId := fun row h => by
    simpa using hfound.mem_iff.mp h
  have hcount : found.length < rows := by
    have hle := List.length_filter_le (fun row : SqlRow => row.userId == userId) conn.db.rows
    have heq := hfound.length_eq
    simp only [OdbcConn.bound_db] at heq
    omega
  simp only [Bool.not_true, Bool.false_eq_true, if_false, total_bind]
  refine total_odbcCollect rfl (fun row h => hrows row (hmem row h).1) hcount (fun ss conn₂ hss hdb => ?_)
    (fun conn₂ hbad hdb => ?_) hfail
  · have hlists : conn.db.Lists userId ss := by
      unfold SqlDb.Lists
      rw [← hss]
      exact hfound.map _
    have hids : faults = false → ∀ id ∈ SqlDb.expiredIds clock ss, id.length ≤ 1024 := by
      intro hfaults id hid
      obtain ⟨s, hs, hsid⟩ := List.mem_filterMap.mp hid
      have hsession : some s ∈ found.map SqlRow.session := hss ▸ List.mem_map_of_mem (List.mem_filter.mp hs).1
      obtain ⟨row, hrow, hrs⟩ := List.mem_map.mp hsession
      have hkey := (SqlRow.session_some hrs).1
      rw [hsid, Option.some.injEq] at hkey
      rw [hkey]
      exact (hkeys hfaults row (hmem row hrow).1).trans (by decide)
    simp only [List.nil_append, total_bind]
    refine total_odbcDeleteEach hroom hids fun gone conn₃ hgone hall hdb' => ?_
    have hleft : conn₃.db = conn.db.without gone := by
      rw [hdb', hdb, OdbcConn.bound_db]
    show conn.db.Comes faults now (.getByUserId (some userId)) (some (ss.filter fun s => !s.expiredAt clock)) conn₃.db
    cases hfaults : faults with
    | false =>
      rw [hall hfaults] at hleft
      exact .inl ⟨clock, fun _ => hclock hfaults, .inl ⟨ss, hlists, rfl, hleft⟩⟩
    | true => exact .inr ⟨rfl, .inr ⟨userId, clock, ss, gone, rfl, hlists, rfl, hgone, hleft⟩⟩
  · obtain ⟨row, hrow, hnone⟩ := hbad
    exact .inl ⟨now, fun _ => rfl, .inr ⟨⟨row, (hmem row hrow).1, (hmem row hrow).2, hnone⟩, rfl, hdb⟩⟩

theorem total_odbcDeleteByUserId {userId : CStr} (huser : faults = false → userId.length ≤ 1024) :
    OdbcTotal ctx.tableName faults now (odbcDeleteByUserId ctx userId)
      (fun rc conn' => conn.db.Comes faults now (.deleteByUserId (some userId)) rc conn'.db) conn := by
  unfold odbcDeleteByUserId OdbcTotal
  rw [total_bind]
  refine total_odbcRun_op (g := .deleteByUserId) hroom (by simp [odbcMaxParams]) rfl
    (fun h => .cons (fits_some (huser h)) .nil) (fun ok conn' hexec => ?_)
    fun hfaults conn' hdb => .inr ⟨hfaults, rfl, hdb⟩
  obtain ⟨hrc, hdb⟩ := hexec.deleteByUserId
  cases ok with
  | true => exact .inl ⟨now, fun _ => rfl, .inl rfl, hdb⟩
  | false =>
    refine .inl ⟨now, fun _ => rfl, .inr ⟨rfl, ?_⟩, hdb⟩
    rcases hrc with h | ⟨hnone, -⟩
    · cases h
    · exact hnone

/-- **The ODBC store serves** every call, or says that something failed, and
always comes to an end: what it is asked for fits, the rows are C strings read
within `turns` pieces, and there are fewer than `rows` of them. -/
theorem total_odbcStore {o : StoreOp} (hnarrow : faults = false → o.Narrow)
    (hkeys : faults = false → ∀ row ∈ conn.db.rows, row.id.length ≤ 64) (hrows : ∀ row ∈ conn.db.rows, row.Within turns)
    (hlength : conn.db.rows.length < rows) :
    OdbcTotal ctx.tableName faults now (odbcStore turns rows ctx o) (fun x conn' => conn.db.Comes faults now o x conn'.db)
      conn := by
  have hnull : ∀ {o : StoreOp} {x : o.Ans}, conn.db.Serves now o x conn.db → conn.db.Comes faults now o x conn.db :=
    fun h => .inl ⟨now, fun _ => rfl, h⟩
  cases o with
  | create s => exact total_odbcCreate hroom hnarrow
  | get id =>
    cases id with
    | none => exact hnull ⟨rfl, rfl⟩
    | some id => exact total_odbcGet hroom (fun h => hnarrow h id rfl) hrows
  | update s => exact total_odbcUpdate hroom hnarrow
  | delete id =>
    cases id with
    | none => exact hnull ⟨rfl, rfl⟩
    | some id =>
      refine total_odbcDeleteUnlocked hroom (fun h => hnarrow h id rfl) (fun rc conn' hrc hdb => ?_) ?_
      · exact .inl ⟨now, fun _ => rfl, hrc, hdb⟩
      · exact fun hfaults conn' hdb => .inr ⟨hfaults, rfl, hdb⟩
  | getByUserId userId =>
    cases userId with
    | none => exact hnull ⟨rfl, rfl⟩
    | some userId => exact total_odbcGetByUserId hroom (fun h => hnarrow h userId rfl) hkeys hrows hlength
  | deleteByUserId userId =>
    cases userId with
    | none => exact hnull ⟨rfl, rfl⟩
    | some userId => exact total_odbcDeleteByUserId hroom fun h => hnarrow h userId rfl

end

end OpenDbsc
